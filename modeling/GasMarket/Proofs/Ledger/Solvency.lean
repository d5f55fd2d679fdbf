import GasMarket.Proofs.Ledger.Steps
import GasMarket.Proofs.Pricing.Cost
import Mathlib.Data.List.Perm.Subperm

namespace GasMarket

def Charge.worth (c : Charge) (denom : String) : Nat := c.required.worth denom + c.tip.worth denom

def owed (charges : List Charge) (denom : String) : Nat := (charges.map (·.worth denom)).sum

theorem owed_erase {charges : List Charge} {c : Charge} (h : c ∈ charges) (denom : String) :
    c.worth denom + owed (charges.erase c) denom = owed charges denom := by
  have hperm := (List.perm_cons_erase h).map fun c => c.worth denom
  exact hperm.sum_nat.symm

theorem owed_le_of_sublist {fewer charges : List Charge} (h : fewer.Sublist charges)
    (denom : String) : owed fewer denom ≤ owed charges denom := by
  induction h with
  | slnil => exact Nat.le_refl _
  | cons c h ih => exact Nat.le_trans ih (Nat.le_add_left _ _)
  | cons_cons c h ih => exact Nat.add_le_add_left ih _

theorem owed_le_of_subperm {charges others : List Charge} (h : charges.Subperm others)
    (denom : String) : owed charges denom ≤ owed others denom := by
  obtain ⟨sublist, hperm, hsublist⟩ := h
  calc owed charges denom
      = owed sublist denom := ((hperm.map fun c : Charge => c.worth denom).sum_nat).symm
    _ ≤ owed others denom := owed_le_of_sublist hsublist denom

theorem worth_le_owed {charges : List Charge} {c : Charge} (h : c ∈ charges) (denom : String) :
    c.worth denom ≤ owed charges denom := by
  have := owed_erase h denom
  omega

def Charge.Payable (disabled : List String) (c : Charge) : Prop :=
  ∃ fee, c.required.add c.tip = .ok fee ∧ (fee.IsZero ∨ fee.denom ∉ disabled)

theorem Charge.Payable.canPay {f : FeeAccounts} {b : Bank} {c : Charge} (h : c.Payable b.disabled)
    (hcover : ∀ denom, c.worth denom ≤ b.holding f.collector denom) :
    ∃ fee, c.required.add c.tip = .ok fee ∧ f.CanPay b fee := by
  obtain ⟨fee, hadd, hsend⟩ := h
  refine ⟨fee, hadd, hsend.imp_right fun henabled => ⟨henabled, ?_⟩⟩
  calc fee.amount.toNat
      = fee.worth fee.denom := (if_pos rfl).symm
    _ = c.worth fee.denom := Coin.worth_add hadd fee.denom
    _ ≤ b.holding f.collector fee.denom := hcover fee.denom

namespace History

/-- Every settlement is of an outstanding charge, or leaves all balances as they are.  The
collector pays no fees, and the host leaves the bank alone. -/
def Strict (h : History) : Step → Prop
  | .operation (.deduct tx _ _) => tx.feePayer ≠ h.market.feeAccounts.collector
  | .operation (.refund tx charge gasUsed success) => charge ∈ h.outstanding ∨
      ∀ address denom,
        (h.market.refund tx charge gasUsed success).state.funds.bank.balance address denom =
          h.market.funds.bank.balance address denom
  | s => s.KeepsBank

structure Solvent (f : FeeAccounts) (b : Bank) (h : History) : Prop where
  feeAccounts : h.market.feeAccounts = f
  kept : b.Kept h.market.funds.bank
  disabled : h.market.funds.bank.disabled = b.disabled
  payable : ∀ charge ∈ h.outstanding, charge.Payable b.disabled
  covered : ∀ denom, owed h.outstanding denom ≤ h.market.funds.bank.holding f.collector denom

variable {f : FeeAccounts} {b : Bank} {h : History}

theorem Solvent.backed (hh : h.Solvent f b) (hb : f.Backed b) :
    h.market.feeAccounts.Backed h.market.funds.bank := by
  rw [hh.feeAccounts]
  exact hb.kept hh.kept

theorem Solvent.canPay (hh : h.Solvent f b) {charge : Charge} (hc : charge ∈ h.outstanding) :
    ∃ fee, charge.required.add charge.tip = .ok fee ∧ f.CanPay h.market.funds.bank fee := by
  have hpayable := hh.payable charge hc
  rw [← hh.disabled] at hpayable
  exact hpayable.canPay fun denom => Nat.le_trans (worth_le_owed hc denom) (hh.covered denom)

theorem outstanding_step_of_not_movesFunds (h : History) {s : Step} (hs : ¬ s.MovesFunds) :
    (h.step s).outstanding = h.outstanding := by
  cases s with
  | host part => rfl
  | operation op =>
    cases op with
    | deduct | refund => exact absurd trivial hs
    | initGenesis | load | beginBlock | endBlock | updateParams | checkFee | drainEvents => rfl

theorem Solvent.rest (hh : h.Solvent f b) {s : Step}
    (hkept : h.market.funds.bank.Kept (h.step s).market.funds.bank)
    (hdisabled : (h.step s).market.funds.bank.disabled = h.market.funds.bank.disabled)
    (hholding : ∀ denom, h.market.funds.bank.holding f.collector denom ≤
      (h.step s).market.funds.bank.holding f.collector denom)
    (hout : (h.step s).outstanding.Sublist h.outstanding) : (h.step s).Solvent f b where
  feeAccounts := (Market.feeAccounts_step h.market s).trans hh.feeAccounts
  kept := hh.kept.trans hkept
  disabled := hdisabled.trans hh.disabled
  payable := by
    intro charge hc
    exact hh.payable charge (hout.subset hc)
  covered := by
    intro denom
    calc owed (h.step s).outstanding denom
        ≤ owed h.outstanding denom := owed_le_of_sublist hout denom
      _ ≤ h.market.funds.bank.holding f.collector denom := hh.covered denom
      _ ≤ _ := hholding denom

theorem Solvent.rest_of_bank_eq (hh : h.Solvent f b) {s : Step}
    (hbank : (h.step s).market.funds.bank = h.market.funds.bank)
    (hout : (h.step s).outstanding.Sublist h.outstanding) : (h.step s).Solvent f b := by
  refine hh.rest ?_ ?_ ?_ hout
  · rw [hbank]
    exact .refl _
  · rw [hbank]
  · intro denom
    exact Nat.le_of_eq (congrArg (·.holding f.collector denom) hbank.symm)

theorem Solvent.quiet (hh : h.Solvent f b) {s : Step} (hk : s.KeepsBank) (hs : ¬ s.MovesFunds) :
    (h.step s).Solvent f b := by
  apply hh.rest_of_bank_eq (Market.bank_step_of_not_movesFunds h.market hk hs)
  simp [h.outstanding_step_of_not_movesFunds hs]

theorem Solvent.deduct (hh : h.Solvent f b) (hb : f.Backed b) {tx : Tx} {required tip : Coin}
    (hpayer : tx.feePayer ≠ f.collector) :
    (h.step (.operation (.deduct tx required tip))).Solvent f b := by
  have hout : (h.step (.operation (.deduct tx required tip))).outstanding =
      (h.market.deduct tx required tip).result.toOption.toList ++ h.outstanding := rfl
  obtain ⟨e, he, hsame⟩ | ⟨fee, hfee, he, ht, hcan⟩ :=
    Market.transfer_deduct (hh.backed hb) tx required tip
  · rw [he] at hout
    refine hh.rest hsame.toKept hsame.disabled ?_ ?_
    · intro denom
      exact Nat.le_of_eq (hsame.holding f.collector denom).symm
    · rw [hout]
      exact List.Sublist.refl h.outstanding
  · rw [he] at hout
    rw [hh.feeAccounts] at ht hcan
    have hdisabled := ht.disabled.trans hh.disabled
    refine ⟨(Market.feeAccounts_step h.market _).trans hh.feeAccounts, hh.kept.trans ht.toKept,
      hdisabled, ?_, ?_⟩
    · intro charge hc
      rw [hout] at hc
      cases hc with
      | head =>
        refine ⟨fee, hfee, hcan.imp_right ?_⟩
        intro hsend
        rw [← hdisabled]
        exact hsend.1
      | tail _ hold => exact hh.payable charge hold
    · intro denom
      have hcovered := hh.covered denom
      have hgain := ht.holding_receiver denom hpayer
      rw [Coin.worth_add hfee] at hgain
      rw [hout]
      change required.worth denom + tip.worth denom + owed h.outstanding denom ≤
        (h.market.deduct tx required tip).state.funds.bank.holding f.collector denom
      omega

theorem Solvent.settlement (hh : h.Solvent f b) (hb : f.Backed b) {charge : Charge}
    (hc : charge ∈ h.outstanding) (tx : Tx) (gasUsed : UInt64) (success : Bool) :
    (∃ e, h.market.Refused tx charge gasUsed e ∧
      h.market.refund tx charge gasUsed success = .failed h.market e) ∨
    ∃ refund, (h.market.refund tx charge gasUsed success).result = .ok refund ∧
      h.market.funds.bank.Kept (h.market.refund tx charge gasUsed success).state.funds.bank ∧
      (h.market.refund tx charge gasUsed success).state.funds.bank.disabled =
        h.market.funds.bank.disabled ∧
      ∀ denom, h.market.funds.bank.holding f.collector denom ≤
        (h.market.refund tx charge gasUsed success).state.funds.bank.holding f.collector denom +
          charge.worth denom := by
  obtain hrefused | ⟨s, used, moved, -, -, hused, hmoved, hresult, he⟩ :=
    Market.refund_cases h.market tx charge gasUsed success
  · exact .inl hrefused
  -- the collector still holds the whole charge, so neither of the two payments fails
  · obtain ⟨fee, hadd, hcan⟩ := hh.canPay hc
    rw [← hh.feeAccounts] at hcan
    obtain ⟨back, distributed, mid, hdiv, ht, hok, ht'⟩ :=
      FeeAccounts.refund_of_canPay (hh.backed hb) charge hadd hcan
        (Controller.denom_requiredFee hused) success h.market.params.distributeFees
    rw [hmoved] at hok ht'
    have hbank :
        (h.market.refund tx charge gasUsed success).state.funds.bank = moved.state.bank := by
      rw [he, Market.funds_told]
    refine .inr ⟨_, hresult.trans hok, ?_, ?_, ?_⟩
    · rw [hbank]
      exact ht.toKept.trans ht'.toKept
    · rw [hbank]
      exact ht'.disabled.trans ht.disabled
    · intro denom
      rw [hbank, ← hh.feeAccounts, ← hmoved]
      exact h.market.feeAccounts.holding_le_refund charge used success _ h.market.funds denom

theorem outstanding_refund_sublist (h : History) (tx : Tx) (charge : Charge) (gasUsed : UInt64)
    (success : Bool) :
    (h.step (.operation (.refund tx charge gasUsed success))).outstanding.Sublist
      h.outstanding := by
  change (Option.elim (Option.map _ (h.market.refund tx charge gasUsed success).result.toOption)
    h.outstanding h.outstanding.erase).Sublist h.outstanding
  cases (h.market.refund tx charge gasUsed success).result with
  | ok refund => exact List.erase_sublist
  | error e => exact List.Sublist.refl _

theorem Solvent.refund (hh : h.Solvent f b) (hb : f.Backed b) {tx : Tx} {charge : Charge}
    {gasUsed : UInt64} {success : Bool}
    (hs : h.Strict (.operation (.refund tx charge gasUsed success))) :
    (h.step (.operation (.refund tx charge gasUsed success))).Solvent f b := by
  have hsublist := h.outstanding_refund_sublist tx charge gasUsed success
  cases hs with
  | inl hc =>
    obtain ⟨e, -, he⟩ | ⟨refund, hok, hkept, hdisabled, hcover⟩ :=
      hh.settlement hb hc tx gasUsed success
    · exact hh.rest_of_bank_eq (congrArg (·.state.funds.bank) he) hsublist
    · have hout : (h.step (.operation (.refund tx charge gasUsed success))).outstanding =
          h.outstanding.erase charge :=
        congrArg (fun r : Except Error Refund =>
          (r.toOption.map fun _ => charge).elim h.outstanding h.outstanding.erase) hok
      refine ⟨(Market.feeAccounts_step h.market _).trans hh.feeAccounts, hh.kept.trans hkept,
        hdisabled.trans hh.disabled, ?_, ?_⟩
      · intro other hother
        exact hh.payable other (hsublist.subset hother)
      · intro denom
        have hbefore := hh.covered denom
        have hafter := hcover denom
        have howed := owed_erase hc denom
        rw [hout]
        change owed (h.outstanding.erase charge) denom ≤
          (h.market.refund tx charge gasUsed success).state.funds.bank.holding f.collector denom
        omega
  | inr hbalance =>
    have hholding (denom) : h.market.funds.bank.holding f.collector denom ≤
        (h.market.refund tx charge gasUsed success).state.funds.bank.holding f.collector denom :=
      Nat.le_of_eq (congrArg BitVec.toNat (hbalance f.collector denom).symm)
    obtain ⟨e, -, hbank⟩ | ⟨back, distributed, hpaid⟩ :=
      Market.payments_refund (hh.backed hb) tx charge gasUsed success
    · exact hh.rest_of_bank_eq hbank hsublist
    · exact hh.rest hpaid.kept hpaid.disabled hholding hsublist

theorem Solvent.step (hh : h.Solvent f b) (hb : f.Backed b) {s : Step} (hs : h.Strict s) :
    (h.step s).Solvent f b := by
  cases s with
  | host part => exact hh.quiet hs id
  | operation op =>
    cases op with
    | deduct tx required tip =>
      apply hh.deduct hb
      rw [← hh.feeAccounts]
      exact hs
    | refund tx charge gasUsed success => exact hh.refund hb hs
    | initGenesis | load | beginBlock | endBlock | updateParams | checkFee | drainEvents =>
      exact hh.quiet trivial id

theorem solvent_start (m : Market) (b : Bank) :
    (start (m.supply (.bank b))).Solvent m.feeAccounts b := by
  refine ⟨rfl, .refl b, rfl, ?_, ?_⟩
  · intro charge hc
    cases hc
  · intro denom
    exact Nat.zero_le _

/-- However the charges and the settlements of a run are interleaved, the collector holds what the
outstanding charges were taken for, and none of their settlements fails for lack of it. -/
theorem solvent_history {m : Market} {b : Bank} (hb : m.feeAccounts.Backed b) {steps : List Step}
    (hrun : (start (m.supply (.bank b))).Follows Strict steps) :
    (∀ denom, owed (m.history b steps).outstanding denom ≤
      ((m.history b steps).market.funds.bank.balance m.feeAccounts.collector denom).toNat) ∧
    ∀ tx charge gasUsed success, charge ∈ (m.history b steps).outstanding →
      (∃ refund, ((m.history b steps).market.refund tx charge gasUsed success).result =
        .ok refund) ∨
      ∃ e, (m.history b steps).market.Refused tx charge gasUsed e ∧
        (m.history b steps).market.refund tx charge gasUsed success =
          .failed (m.history b steps).market e := by
  have hsolvent : (m.history b steps).Solvent m.feeAccounts b :=
    follows_induction hrun (solvent_start m b) (fun h s hs hh => hh.step hb hs)
  refine ⟨hsolvent.covered, ?_⟩
  intro tx charge gasUsed success hc
  obtain ⟨e, hrefused, he⟩ | ⟨refund, hok, -⟩ :=
    hsolvent.settlement hb hc tx gasUsed success
  · exact .inr ⟨e, hrefused, he⟩
  · exact .inl ⟨refund, hok⟩

def settledOnce : List Step :=
  let tx := Tx.new ⟨0xaa⟩ ⟨"stake", 100⟩ 1
  let charge : Charge := ⟨⟨0xaa⟩, ⟨"stake", 100⟩, ⟨"stake", 10⟩⟩
  [.host (.accounts ⟨.empty, [⟨0xaa⟩]⟩),
    .operation
      (.updateParams Config.default.authority { Params.eip1559 with distributeFees := true }),
    .operation (.deduct tx charge.required charge.tip),
    .operation (.deduct tx ⟨"stake", 20⟩ (.zero "stake")),
    .operation (.refund tx charge 0 true)]

theorem solvent_history_settledOnce : ∃ m, Market.new .default = .ok m ∧
    let h := m.history (m.feeAccounts.funded ⟨0xaa⟩ ⟨"stake", 130⟩) settledOnce
    ∀ denom, owed h.outstanding denom ≤
      (h.market.funds.bank.balance m.feeAccounts.collector denom).toNat := by
  have hpayer : (⟨0xaa⟩ : Address) ≠ Market.collectorAddress := by decide
  refine ⟨_, rfl, (solvent_history (FeeAccounts.backed_funded _ _ _) ?_).1⟩
  refine ⟨trivial, trivial, hpayer, hpayer, .inl ?_, trivial⟩
  decide +kernel

/-- A settlement may be tried of any charge that was ever taken, as long as no charge is settled
twice. -/
def Loose (h : History) : Step → Prop
  | .operation (.refund tx charge gasUsed success) => charge ∈ h.taken ∧
      ((h.market.settles (.operation (.refund tx charge gasUsed success))).isSome →
        charge ∈ h.outstanding)
  | s => h.Strict s

def retry : Step :=
  .operation
    (.refund (Tx.new ⟨0xaa⟩ ⟨"stake", 100⟩ 1) ⟨⟨0xaa⟩, ⟨"stake", 100⟩, ⟨"stake", 10⟩⟩ 0 true)

/-- Another attempt distributes the tip again, out of what another charge brought in, and fails only
then: what is left does not cover that charge. -/
theorem retry_not_solvent : ∃ m, Market.new .default = .ok m ∧
    let b := m.feeAccounts.funded ⟨0xaa⟩ ⟨"stake", 130⟩
    m.feeAccounts.Backed b ∧
      (start (m.supply (.bank b))).Follows Loose (settledOnce ++ [retry]) ∧
      owed (m.history b (settledOnce ++ [retry])).outstanding "stake" = 20 ∧
      (m.history b (settledOnce ++ [retry])).market.funds.bank.balance m.feeAccounts.collector
        "stake" = 10 := by
  have hpayer : (⟨0xaa⟩ : Address) ≠ Market.collectorAddress := by decide
  refine ⟨_, rfl, FeeAccounts.backed_funded _ _ _, ?_, by decide +kernel, by decide +kernel⟩
  refine ⟨trivial, trivial, hpayer, hpayer, ⟨?_, ?_⟩, ⟨?_, ?_⟩, trivial⟩
  all_goals decide +kernel

end History

end GasMarket
