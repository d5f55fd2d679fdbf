import GasMarket.Proofs.Ledger.Steps

namespace GasMarket

namespace Event

def charged (address : Address) (denom : String) : Event → Nat
  | .txFee payer required tip =>
    if payer = address then required.worth denom + tip.worth denom else 0
  | _ => 0

def refunded (address : Address) (denom : String) : Event → Nat
  | .txRefund payee refund => if payee = address then refund.worth denom else 0
  | _ => 0

end Event

def charges (log : List Event) (address : Address) (denom : String) : Nat :=
  (log.map (Event.charged address denom)).sum

def refunds (log : List Event) (address : Address) (denom : String) : Nat :=
  (log.map (Event.refunded address denom)).sum

section Sums

variable (log told : List Event) (address : Address) (denom : String)

@[simp] theorem charges_append :
    charges (log ++ told) address denom =
      charges log address denom + charges told address denom := by
  simp [charges]

@[simp] theorem refunds_append :
    refunds (log ++ told) address denom =
      refunds log address denom + refunds told address denom := by
  simp [refunds]

@[simp] theorem charges_charge (c : Charge) : charges [c.event] address denom =
    if c.payer = address then c.required.worth denom + c.tip.worth denom else 0 := by
  simp [charges, Charge.event, Event.charged]

@[simp] theorem refunds_charge (c : Charge) : refunds [c.event] address denom = 0 := by
  simp [refunds, Charge.event, Event.refunded]

@[simp] theorem charges_refund (r : Refund) : charges r.event?.toList address denom = 0 := by
  unfold Refund.event?
  split <;> simp [charges, Event.charged]

@[simp] theorem refunds_refund (r : Refund) : refunds r.event?.toList address denom =
    if r.payee = address then r.refund.worth denom else 0 := by
  unfold Refund.event?
  by_cases h : r.refund.IsZero
  · simp [refunds, h, Coin.worth_of_isZero h]
  · simp [refunds, h, Event.refunded]

end Sums

namespace History

/-- The books of a run since the bank was `b`: the log accounts for every balance outside of the
module accounts. -/
structure Books (f : FeeAccounts) (b : Bank) (h : History) : Prop where
  feeAccounts : h.market.feeAccounts = f
  kept : b.Kept h.market.funds.bank
  balanced : ∀ address denom, address ≠ f.collector → address ≠ f.distribution →
    h.market.funds.bank.holding address denom + charges h.log address denom =
      b.holding address denom + refunds h.log address denom

variable {f : FeeAccounts} {b : Bank} {h : History}

theorem Books.backed (hh : h.Books f b) (hb : f.Backed b) :
    h.market.feeAccounts.Backed h.market.funds.bank := by
  rw [hh.feeAccounts]
  exact hb.kept hh.kept

theorem Books.entry (hh : h.Books f b) {s : Step} {told : List Event}
    (hlog : (h.step s).log = h.log ++ told)
    (hkept : h.market.funds.bank.Kept (h.step s).market.funds.bank)
    (hentry : ∀ address denom, address ≠ f.collector → address ≠ f.distribution →
      (h.step s).market.funds.bank.holding address denom + charges told address denom =
        h.market.funds.bank.holding address denom + refunds told address denom) :
    (h.step s).Books f b where
  feeAccounts := (Market.feeAccounts_step h.market s).trans hh.feeAccounts
  kept := hh.kept.trans hkept
  balanced := by
    intro address denom hc hd
    have hbefore := hh.balanced address denom hc hd
    have hstep := hentry address denom hc hd
    rw [hlog, charges_append, refunds_append]
    omega

theorem Books.quiet (hh : h.Books f b) {s : Step} (hk : s.KeepsCoins) (hs : ¬ s.MovesFunds) :
    (h.step s).Books f b := by
  obtain ⟨disabled, hbank⟩ := Market.coins_step_of_not_movesFunds h.market hk hs
  change (h.step s).market.funds.bank = _ at hbank
  have hkept : h.market.funds.bank.Kept (h.step s).market.funds.bank := by
    rw [hbank]
    exact ⟨rfl, fun _ => rfl⟩
  obtain hlog | ⟨fee, rate, height, hlog⟩ := h.log_step_of_not_movesFunds hs
  · apply hh.entry (hlog.trans (List.append_nil _).symm) hkept
    intro address denom _ _
    rw [hbank]
    rfl
  · apply hh.entry hlog hkept
    intro address denom _ _
    rw [hbank]
    rfl

theorem Books.deduct (hh : h.Books f b) (hb : f.Backed b) (tx : Tx) (required tip : Coin) :
    (h.step (.operation (.deduct tx required tip))).Books f b := by
  have hlog := h.log_step_of_events (.operation (.deduct tx required tip)) rfl
    (h.market.events_deduct tx required tip)
  obtain ⟨e, he, hsame⟩ | ⟨fee, hfee, he, ht, -⟩ :=
    Market.transfer_deduct (hh.backed hb) tx required tip
  · rw [he] at hlog
    apply hh.entry hlog hsame.toKept
    intro address denom _ _
    exact hsame.holding address denom
  · rw [he] at hlog
    apply hh.entry hlog ht.toKept
    intro address denom hc _
    have hpaid := ht.holding address denom
    rw [hh.feeAccounts, if_neg hc.symm, Coin.worth_add hfee] at hpaid
    simp only [Except.toOption, Option.map_some, Option.toList_some, charges_charge,
      refunds_charge]
    exact hpaid

theorem holding_payments {payer : Address} {back distributed : Coin} {b b' : Bank}
    {result : Except Error Refund} (h : f.Payments payer back distributed b result b')
    {address : Address} (denom : String) (hc : address ≠ f.collector)
    (hd : address ≠ f.distribution) :
    b'.holding address denom = b.holding address denom +
      refunds (result.toOption.bind Refund.event?).toList address denom := by
  cases h with
  | neither => rfl
  | first ht => exact ht.holding_of_ne denom hc.symm hd.symm
  | both ht ht' =>
    have hfirst := ht.holding_of_ne denom hc.symm hd.symm
    have hsecond := ht'.holding address denom
    rw [if_neg hc.symm] at hsecond
    simp only [Except.toOption, Option.bind_some, refunds_refund]
    omega

theorem charges_settlement (result : Except Error Refund) (address : Address) (denom : String) :
    charges (result.toOption.bind Refund.event?).toList address denom = 0 := by
  cases result with
  | error e => rfl
  | ok refund => exact charges_refund address denom refund

theorem Books.refund (hh : h.Books f b) (hb : f.Backed b) (tx : Tx) (charge : Charge)
    (gasUsed : UInt64) (success : Bool) :
    (h.step (.operation (.refund tx charge gasUsed success))).Books f b := by
  have hlog := h.log_step_of_events (.operation (.refund tx charge gasUsed success)) rfl
    (h.market.events_refund tx charge gasUsed success)
  obtain ⟨e, he, hbank⟩ | ⟨back, distributed, hpaid⟩ :=
    Market.payments_refund (hh.backed hb) tx charge gasUsed success
  · rw [he] at hlog
    change (h.step (.operation (.refund tx charge gasUsed success))).market.funds.bank = _ at hbank
    apply hh.entry hlog
    · rw [hbank]
      exact .refl _
    · intro address denom _ _
      rw [hbank]
      rfl
  · rw [hh.feeAccounts] at hpaid
    apply hh.entry hlog hpaid.kept
    intro address denom hc hd
    rw [charges_settlement]
    exact holding_payments hpaid denom hc hd

theorem Books.step (hh : h.Books f b) (hb : f.Backed b) {s : Step} (hk : s.KeepsCoins) :
    (h.step s).Books f b := by
  cases s with
  | host part => exact hh.quiet hk id
  | operation op =>
    cases op with
    | deduct tx required tip => exact hh.deduct hb tx required tip
    | refund tx charge gasUsed success => exact hh.refund hb tx charge gasUsed success
    | initGenesis | load | beginBlock | endBlock | updateParams | checkFee | drainEvents =>
      exact hh.quiet hk id

theorem books_start {c : Config} {m : Market} (hnew : Market.new c = .ok m) (b : Bank) :
    (start (m.supply (.bank b))).Books m.feeAccounts b := by
  obtain ⟨f, -, -, -, rfl⟩ := Market.new_eq_ok hnew
  exact ⟨rfl, .refl b, fun _ _ _ _ => rfl⟩

/-- Whatever is done to a new market whose bank was set up, no supply changes, and every account
but the module accounts holds what it had at first, less what the log says it was charged, and with
what the log says it was given back. -/
theorem balance_history {c : Config} {m : Market} (hnew : Market.new c = .ok m) {b : Bank}
    (hb : m.feeAccounts.Backed b) {steps : List Step} (hsteps : ∀ s ∈ steps, s.KeepsCoins) :
    (∀ denom, (m.history b steps).market.funds.bank.supply denom = b.supply denom) ∧
    ∀ address denom, address ≠ m.feeAccounts.collector → address ≠ m.feeAccounts.distribution →
      (((m.history b steps).market.funds.bank.balance address denom).toNat : Int) =
        (b.balance address denom).toNat - charges (m.history b steps).log address denom +
          refunds (m.history b steps).log address denom := by
  have hrun : (start (m.supply (.bank b))).Follows (fun _ s => s.KeepsCoins) steps :=
    follows_of_forall hsteps
  have hbooks : (m.history b steps).Books m.feeAccounts b :=
    follows_induction hrun (books_start hnew b) (fun h s hk hh => hh.step hb hk)
  refine ⟨hbooks.kept.supply, ?_⟩
  intro address denom hc hd
  have hbalanced := hbooks.balanced address denom hc hd
  unfold Bank.holding at hbalanced
  omega

theorem balance_history_charged : ∃ m, Market.new .default = .ok m ∧
    let h := m.history (m.feeAccounts.funded ⟨0xaa⟩ ⟨"stake", 130⟩)
      [.host (.accounts ⟨.empty, [⟨0xaa⟩]⟩),
        .operation (.deduct (Tx.new ⟨0xaa⟩ ⟨"stake", 100⟩ 1) ⟨"stake", 100⟩ (.zero "stake"))]
    ((h.market.funds.bank.balance ⟨0xaa⟩ "stake").toNat : Int) =
      130 - charges h.log ⟨0xaa⟩ "stake" + refunds h.log ⟨0xaa⟩ "stake" := by
  obtain ⟨m, hm, hc, hd⟩ : ∃ m, Market.new .default = .ok m ∧
      ⟨0xaa⟩ ≠ m.feeAccounts.collector ∧ ⟨0xaa⟩ ≠ m.feeAccounts.distribution :=
    ⟨_, rfl, by decide, by decide⟩
  refine ⟨m, hm, (balance_history hm (FeeAccounts.backed_funded _ _ _) ?_).2 _ _ hc hd⟩
  exact List.forall_mem_cons.2 ⟨trivial, List.forall_mem_cons.2 ⟨trivial, List.forall_mem_nil _⟩⟩

end History

end GasMarket
