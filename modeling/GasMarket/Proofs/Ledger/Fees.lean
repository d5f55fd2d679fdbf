import GasMarket.Proofs.Ledger.Bank
import GasMarket.Settlement

namespace GasMarket

theorem Charge.toNat_unused (c : Charge) (used : Coin) :
    (c.unused used).amount.toNat = c.required.amount.toNat - used.amount.toNat := by
  have hlt := c.required.amount.isLt
  unfold unused
  rw [BitVec.toNat_ofNat, Nat.mod_eq_of_lt]
  omega

theorem Charge.worth_unused {c : Charge} {used : Coin} (hdenom : used.denom = c.required.denom)
    (hle : used.amount.toNat ≤ c.required.amount.toNat) (denom : String) :
    (c.unused used).worth denom + used.worth denom = c.required.worth denom := by
  unfold Coin.worth
  rw [hdenom, show (c.unused used).denom = c.required.denom from rfl]
  split
  · rw [toNat_unused]
    omega
  · rfl

theorem Charge.worth_unused_le (c : Charge) (used : Coin) (denom : String) :
    (c.unused used).worth denom ≤ c.required.worth denom := by
  unfold Coin.worth
  rw [show (c.unused used).denom = c.required.denom from rfl]
  split
  · rw [toNat_unused]
    exact Nat.sub_le _ _
  · exact Nat.le_refl 0

theorem Charge.division_cases {c : Charge} {used back distributed : Coin}
    {success distribute : Bool} (h : c.division used success distribute = .ok (back, distributed)) :
    success = false ∧ (c.unused used).add c.tip = .ok back ∧ distributed = .zero c.tip.denom ∨
      success = true ∧ distribute = false ∧ back = c.unused used ∧ distributed = .zero c.tip.denom ∨
      success = true ∧ distribute = true ∧ back = c.unused used ∧ distributed = c.tip := by
  unfold division at h
  cases success with
  | false =>
    obtain ⟨sum, hsum, hpair⟩ := bind_eq_ok_iff.1 h
    cases hpair
    exact .inl ⟨rfl, hsum, rfl⟩
  | true =>
    cases distribute with
    | false =>
      cases h
      exact .inr (.inl ⟨rfl, rfl, rfl, rfl⟩)
    | true =>
      cases h
      exact .inr (.inr ⟨rfl, rfl, rfl, rfl⟩)

theorem Charge.worth_division {c : Charge} {used back distributed : Coin}
    {success distribute : Bool}
    (h : c.division used success distribute = .ok (back, distributed)) (denom : String) :
    back.worth denom = (c.unused used).worth denom + (if success then 0 else c.tip.worth denom) ∧
      distributed.worth denom = if success ∧ distribute then c.tip.worth denom else 0 := by
  obtain ⟨rfl, hsum, rfl⟩ | ⟨rfl, rfl, rfl, rfl⟩ | ⟨rfl, rfl, rfl, rfl⟩ := division_cases h
  · exact ⟨Coin.worth_add hsum denom, Coin.worth_zero denom _⟩
  · exact ⟨rfl, Coin.worth_zero denom _⟩
  · exact ⟨rfl, rfl⟩

theorem Charge.worth_parts_le {c : Charge} {used back distributed : Coin}
    {success distribute : Bool}
    (h : c.division used success distribute = .ok (back, distributed)) (denom : String) :
    back.worth denom + distributed.worth denom ≤ c.required.worth denom + c.tip.worth denom := by
  have hunused := c.worth_unused_le used denom
  obtain ⟨hback, hdistributed⟩ := worth_division h denom
  rw [hback, hdistributed]
  cases success with
  | false => simpa using hunused
  | true =>
    simp only [if_true, Nat.add_zero, true_and]
    split
    · exact Nat.add_le_add_right hunused _
    · exact Nat.le_trans hunused (Nat.le_add_right _ _)

theorem Charge.division_of_add {c : Charge} {fee : Coin} (h : c.required.add c.tip = .ok fee)
    (used : Coin) (success distribute : Bool) :
    ∃ back distributed, c.division used success distribute = .ok (back, distributed) ∧
      back.denom = fee.denom ∧ distributed.denom = fee.denom := by
  obtain ⟨hdenom, hfee, hamount⟩ := Coin.add_eq_ok_iff.1 h
  unfold division
  cases success with
  | false =>
    have hunused : (c.unused used).amount.toNat ≤ c.required.amount.toNat := by
      rw [toNat_unused]
      exact Nat.sub_le _ _
    have hlt := fee.amount.isLt
    let sum : Coin := ⟨fee.denom, BitVec.ofNat 256
      ((c.unused used).amount.toNat + c.tip.amount.toNat)⟩
    have hsum : (c.unused used).add c.tip = .ok sum := by
      apply Coin.add_eq_ok_iff.2
      refine ⟨hdenom, hfee, ?_⟩
      rw [BitVec.toNat_ofNat, Nat.mod_eq_of_lt (by omega)]
    refine ⟨sum, .zero c.tip.denom, ?_, rfl, hdenom.symm.trans hfee.symm⟩
    simp only [Bool.false_eq_true, not_false_eq_true, if_true, hsum]
    rfl
  | true =>
    cases distribute with
    | false => exact ⟨c.unused used, .zero c.tip.denom, rfl, hfee.symm, hdenom.symm.trans hfee.symm⟩
    | true => exact ⟨c.unused used, c.tip, rfl, hfee.symm, hdenom.symm.trans hfee.symm⟩

namespace FeeAccounts

variable (f : FeeAccounts)

/-- The bank knows the collector by its name, and no supply is too large for an amount. -/
structure Backed (b : Bank) : Prop where
  agrees : b.modules.get? f.collectorName = some f.collector
  bounded : b.Bounded

def funded (address : Address) (coin : Coin) : Bank where
  balances := Table.empty.insert (address, coin.denom) coin.amount
  modules := Table.empty.insert f.collectorName f.collector
  disabled := []

theorem backed_funded (address : Address) (coin : Coin) : f.Backed (f.funded address coin) where
  agrees := by simp [funded]
  bounded := Bank.bounded_single address coin.denom coin.amount

def CanPay (b : Bank) (coin : Coin) : Prop :=
  coin.IsZero ∨ coin.denom ∉ b.disabled ∧ coin.amount.toNat ≤ b.holding f.collector coin.denom

variable {f}

theorem Backed.kept {b b' : Bank} (h : f.Backed b) (hk : b.Kept b') : f.Backed b' where
  agrees := by
    rw [hk.modules]
    exact h.agrees
  bounded := hk.bounded h.bounded

theorem transfer_collect {b b' : Bank} {payer : Address} {fee : Coin} (h : f.Backed b)
    (hc : f.collect payer fee b = .ok b') :
    b.Transfer b' payer f.collector fee ∧ f.CanPay b' fee := by
  unfold collect at hc
  by_cases hz : fee.IsZero
  · rw [if_pos hz] at hc
    cases hc
    exact ⟨.of_isZero b payer f.collector hz, .inl hz⟩
  · rw [if_neg hz] at hc
    simp only [bind_eq_ok_iff, Bank.sendEnabled_eq_ok_iff] at hc
    obtain ⟨u, henabled, hc⟩ := hc
    rw [Bank.sendToModule, h.agrees] at hc
    obtain ⟨-, hcover, rfl⟩ := Bank.send_eq_ok_iff.1 hc
    have ht := Bank.transfer_move h.bounded hcover f.collector
    refine ⟨ht, .inr ⟨?_, ht.arrived⟩⟩
    rw [ht.disabled]
    exact henabled

theorem pay_eq_ok_iff {b b' : Bank} {receiver : Address} {coin : Coin} :
    f.pay receiver coin b = .ok b' ↔ coin.denom ∉ b.disabled ∧
      coin.amount.toNat ≤ b.holding f.collector coin.denom ∧
        b' = b.move f.collector receiver coin := by
  unfold pay
  rw [mapError_eq_ok_iff]
  exact Bank.send_eq_ok_iff

theorem giveBack_of_canPay {b : Bank} {fee : Coin} (h : f.Backed b) (hp : f.CanPay b fee)
    (payer : Address) :
    ∃ b', f.giveBack payer fee b = .ok b' ∧ b.Transfer b' f.collector payer fee := by
  unfold giveBack
  by_cases hz : fee.IsZero
  · rw [if_pos hz]
    exact ⟨b, rfl, .of_isZero b f.collector payer hz⟩
  · rw [if_neg hz]
    obtain ⟨henabled, hcover⟩ := hp.resolve_left hz
    exact ⟨_, pay_eq_ok_iff.2 ⟨henabled, hcover, rfl⟩, Bank.transfer_move h.bounded hcover payer⟩

theorem settleGrant_cases (tx : Tx) (fee : Coin) (funds : Funds) (h : f.Backed funds.bank)
    (hp : f.CanPay funds.bank fee) :
    (∃ allowances, f.settleGrant tx fee funds = .done { funds with allowances } ()) ∨
      ∃ bank e, f.settleGrant tx fee funds = .failed { funds with bank } e ∧
        funds.bank.Transfer bank f.collector tx.feePayer fee := by
  unfold settleGrant
  cases tx.feeGranter with
  | none => exact .inl ⟨funds.allowances, rfl⟩
  | some granter =>
    cases hs : funds.allowances.spend granter tx.payer [fee] with
    | ok allowances => exact .inl ⟨allowances, by simp only [hs]⟩
    | error refusal =>
      obtain ⟨bank, hg, ht⟩ := giveBack_of_canPay h hp tx.feePayer
      exact .inr ⟨bank, .feeGrantDenied granter tx.payer refusal.reason, by simp only [hs, hg], ht⟩

theorem deduct_outcome {funds : Funds} (h : f.Backed funds.bank) (tx : Tx) (required tip : Coin) :
    (∃ bank e, f.deduct tx required tip funds = .failed { funds with bank } e ∧
      funds.bank.Same bank) ∨
    ∃ fee, required.add tip = .ok fee ∧
      (f.deduct tx required tip funds).result = .ok ⟨tx.feePayer, required, tip⟩ ∧
      funds.bank.Transfer (f.deduct tx required tip funds).state.bank tx.feePayer f.collector fee ∧
      f.CanPay (f.deduct tx required tip funds).state.bank fee := by
  unfold deduct
  by_cases hx : funds.accounts.Exists tx.feePayer
  · rw [if_neg (not_not_intro hx)]
    cases hadd : required.add tip with
    | error e => exact .inl ⟨funds.bank, e, rfl, .refl _⟩
    | ok fee =>
      cases hc : f.collect tx.feePayer fee funds.bank with
      | error fault => exact .inl ⟨funds.bank, fault.error, by simp only [hc], .refl _⟩
      | ok bank =>
        obtain ⟨ht, hp⟩ := transfer_collect h hc
        simp only [hc]
        obtain ⟨allowances, hg⟩ | ⟨back, e, hg, htb⟩ :=
          settleGrant_cases tx fee { funds with bank } (h.kept ht.toKept) hp
        · rw [hg]
          exact .inr ⟨fee, rfl, rfl, ht, hp⟩
        · rw [hg]
          exact .inl ⟨back, e, rfl, ht.undone htb⟩
  · rw [if_pos hx]
    exact .inl ⟨funds.bank, _, rfl, .refl _⟩

theorem deduct_cases {funds : Funds} (h : f.Backed funds.bank) (tx : Tx) (required tip : Coin) :
    (∃ e, (f.deduct tx required tip funds).result = .error e ∧
      funds.bank.Same (f.deduct tx required tip funds).state.bank) ∨
    ∃ fee, required.add tip = .ok fee ∧
      (f.deduct tx required tip funds).result = .ok ⟨tx.feePayer, required, tip⟩ ∧
      funds.bank.Transfer (f.deduct tx required tip funds).state.bank tx.feePayer f.collector fee ∧
      f.CanPay (f.deduct tx required tip funds).state.bank fee := by
  obtain ⟨bank, e, he, hsame⟩ | hcharged := deduct_outcome h tx required tip
  · rw [he]
    exact .inl ⟨e, rfl, hsame⟩
  · exact .inr hcharged

def paid (f : FeeAccounts) (receiver : Address) (coin : Coin) (b : Bank) : Bank :=
  if coin.IsZero then b else b.move f.collector receiver coin

theorem bank_payOut (f : FeeAccounts) (receiver : Address) (coin : Coin) (funds : Funds) :
    (¬ f.CanPay funds.bank coin ∧ ∃ e, (f.payOut receiver coin funds).result = .error e ∧
      (f.payOut receiver coin funds).state.bank = funds.bank) ∨
    f.CanPay funds.bank coin ∧ (f.payOut receiver coin funds).result = .ok () ∧
      (f.payOut receiver coin funds).state.bank = f.paid receiver coin funds.bank := by
  unfold payOut paid
  by_cases hz : coin.IsZero
  · rw [if_pos hz, if_pos hz]
    exact .inr ⟨.inl hz, rfl, rfl⟩
  · rw [if_neg hz, if_neg hz]
    cases hp : f.pay receiver coin funds.bank with
    | error e =>
      refine .inl ⟨?_, e, by simp only [hp]; rfl, by simp only [hp]; rfl⟩
      intro hcan
      obtain ⟨henabled, hcover⟩ := hcan.resolve_left hz
      rw [pay_eq_ok_iff.2 ⟨henabled, hcover, rfl⟩] at hp
      cases hp
    | ok bank =>
      obtain ⟨henabled, hcover, rfl⟩ := pay_eq_ok_iff.1 hp
      exact .inr ⟨.inr ⟨henabled, hcover⟩, by simp only [hp]; rfl, by simp only [hp]; rfl⟩

section Paid

variable {b : Bank} {coin : Coin}

theorem CanPay.part {mid : Bank} {part : Coin} (h : f.CanPay b coin)
    (hdisabled : mid.disabled = b.disabled) (hdenom : part.denom = coin.denom)
    (hle : part.worth coin.denom ≤ coin.worth coin.denom)
    (hcover : part.worth coin.denom ≤ mid.holding f.collector coin.denom) : f.CanPay mid part := by
  unfold Coin.worth at hle hcover
  rw [if_pos hdenom] at hle hcover
  rw [if_pos rfl] at hle
  cases h with
  | inl hz =>
    rw [show coin.amount = 0 from hz] at hle
    exact .inl (BitVec.toNat_inj.1 (Nat.le_zero.1 hle))
  | inr hsend =>
    refine .inr ⟨?_, ?_⟩
    · rw [hdenom, hdisabled]
      exact hsend.1
    · rw [hdenom]
      exact hcover

theorem CanPay.covers (h : f.CanPay b coin) :
    coin.worth coin.denom ≤ b.holding f.collector coin.denom := by
  cases h with
  | inl hz =>
    rw [Coin.worth_of_isZero hz]
    exact Nat.zero_le _
  | inr hsend =>
    rw [Coin.worth, if_pos rfl]
    exact hsend.2

theorem paid_of_isZero (h : coin.IsZero) (receiver : Address) : f.paid receiver coin b = b :=
  if_pos h

theorem disabled_paid (f : FeeAccounts) (receiver : Address) (coin : Coin) (b : Bank) :
    (f.paid receiver coin b).disabled = b.disabled := by
  unfold paid
  split
  · rfl
  · rfl

theorem transfer_paid (hb : b.Bounded) (h : f.CanPay b coin) (receiver : Address) :
    b.Transfer (f.paid receiver coin b) f.collector receiver coin := by
  by_cases hz : coin.IsZero
  · rw [paid_of_isZero hz]
    exact .of_isZero _ _ _ hz
  · rw [paid, if_neg hz]
    exact Bank.transfer_move hb (h.resolve_left hz).2 receiver

theorem CanPay.holding_le_paid (h : f.CanPay b coin) (receiver : Address) (denom : String) :
    b.holding f.collector denom ≤
      (f.paid receiver coin b).holding f.collector denom + coin.worth denom := by
  by_cases hz : coin.IsZero
  · rw [paid_of_isZero hz]
    exact Nat.le_add_right _ _
  · rw [paid, if_neg hz]
    exact Bank.holding_le_move (h.resolve_left hz).2 receiver denom

theorem CanPay.holding_paid (h : f.CanPay b coin) {receiver : Address}
    (hother : receiver ≠ f.collector) (denom : String) :
    (f.paid receiver coin b).holding f.collector denom + coin.worth denom =
      b.holding f.collector denom := by
  by_cases hz : coin.IsZero
  · rw [paid_of_isZero hz, Coin.worth_of_isZero hz]
    rfl
  · rw [paid, if_neg hz]
    exact Bank.holding_move_of_ne hother (h.resolve_left hz).2 denom

end Paid

theorem holding_le_payOut (f : FeeAccounts) (receiver : Address) (coin : Coin) (funds : Funds)
    (denom : String) : funds.bank.holding f.collector denom ≤
      (f.payOut receiver coin funds).state.bank.holding f.collector denom + coin.worth denom := by
  obtain ⟨-, -, -, hbank⟩ | ⟨hcan, -, hbank⟩ := f.bank_payOut receiver coin funds
  · rw [hbank]
    exact Nat.le_add_right _ _
  · rw [hbank]
    exact hcan.holding_le_paid receiver denom

/-- How the two payments of a settlement can end: the first fails, the second fails with the first
already made, or both are made. -/
inductive Payouts (f : FeeAccounts) (payer : Address) (back distributed : Coin) (b : Bank) :
    Except Error Refund → Bank → Prop
  | neither {e} : ¬ f.CanPay b distributed → Payouts f payer back distributed b (.error e) b
  | first {e} : f.CanPay b distributed → ¬ f.CanPay (f.paid f.distribution distributed b) back →
      Payouts f payer back distributed b (.error e) (f.paid f.distribution distributed b)
  | both : f.CanPay b distributed → f.CanPay (f.paid f.distribution distributed b) back →
      Payouts f payer back distributed b (.ok ⟨payer, back, distributed⟩)
        (f.paid payer back (f.paid f.distribution distributed b))

theorem payouts_refund (f : FeeAccounts) (charge : Charge) (used : Coin) (success distribute : Bool)
    (funds : Funds) :
    (∃ e, f.refund charge used success distribute funds = .failed funds e ∧
      (used.denom = charge.required.denom →
        ∀ parts, charge.division used success distribute ≠ .ok parts)) ∨
    ∃ back distributed, used.denom = charge.required.denom ∧
      charge.division used success distribute = .ok (back, distributed) ∧
      f.Payouts charge.payer back distributed funds.bank
        (f.refund charge used success distribute funds).result
        (f.refund charge used success distribute funds).state.bank := by
  unfold refund
  by_cases hd : used.denom = charge.required.denom
  · rw [if_neg (not_not_intro hd)]
    cases hdiv : charge.division used success distribute with
    | error e =>
      refine .inl ⟨e, rfl, ?_⟩
      intro _ parts heq
      cases heq
    | ok parts =>
      obtain ⟨back, distributed⟩ := parts
      refine .inr ⟨back, distributed, hd, rfl, ?_⟩
      obtain ⟨hno, e, he, hb⟩ | ⟨hcan, hok, hmid⟩ := f.bank_payOut f.distribution distributed funds
      · simp only [Outcome.andThen, he]
        change f.Payouts _ _ _ _ _ (f.payOut f.distribution distributed funds).state.bank
        rw [hb]
        exact .neither hno
      · simp only [Outcome.andThen, hok]
        obtain ⟨hno, e, he, hb⟩ | ⟨hcan', hok', hb⟩ := f.bank_payOut charge.payer back
          (f.payOut f.distribution distributed funds).state
        · rw [hmid] at hno
          simp only [he]
          change f.Payouts _ _ _ _ _ (f.payOut charge.payer back _).state.bank
          rw [hb, hmid]
          exact .first hcan hno
        · rw [hmid] at hcan'
          simp only [hok']
          change f.Payouts _ _ _ _ _ (f.payOut charge.payer back _).state.bank
          rw [hb, hmid]
          exact .both hcan hcan'
  · rw [if_pos hd]
    exact .inl ⟨_, rfl, fun heq => absurd heq hd⟩

theorem holding_le_refund (f : FeeAccounts) (charge : Charge) (used : Coin)
    (success distribute : Bool)
    (funds : Funds) (denom : String) : funds.bank.holding f.collector denom ≤
      (f.refund charge used success distribute funds).state.bank.holding f.collector denom +
        (charge.required.worth denom + charge.tip.worth denom) := by
  obtain ⟨e, hfailed, -⟩ | ⟨back, distributed, -, hdiv, hpaid⟩ :=
    f.payouts_refund charge used success distribute funds
  · rw [hfailed]
    exact Nat.le_add_right _ _
  · have hparts := Charge.worth_parts_le hdiv denom
    generalize (f.refund charge used success distribute funds).result = result at hpaid
    generalize (f.refund charge used success distribute funds).state.bank = b' at hpaid ⊢
    cases hpaid with
    | neither => exact Nat.le_add_right _ _
    | first hcan =>
      have hfirst := hcan.holding_le_paid f.distribution denom
      omega
    | both hcan hcan' =>
      have hfirst := hcan.holding_le_paid f.distribution denom
      have hsecond := hcan'.holding_le_paid charge.payer denom
      omega

theorem paid_of_canPay {funds : Funds} (charge : Charge) {fee used : Coin}
    (hadd : charge.required.add charge.tip = .ok fee) (hcan : f.CanPay funds.bank fee)
    (hused : used.denom = charge.required.denom) (success distribute : Bool) :
    ∃ back distributed, charge.division used success distribute = .ok (back, distributed) ∧
      f.CanPay funds.bank distributed ∧
      f.CanPay (f.paid f.distribution distributed funds.bank) back ∧
      (f.refund charge used success distribute funds).result =
        .ok ⟨charge.payer, back, distributed⟩ ∧
      (f.refund charge used success distribute funds).state.bank =
        f.paid charge.payer back (f.paid f.distribution distributed funds.bank) := by
  obtain ⟨back, distributed, hdiv, hback, hdistributed⟩ :=
    Charge.division_of_add hadd used success distribute
  have hcovers := hcan.covers
  have hparts := Charge.worth_parts_le hdiv fee.denom
  rw [← Coin.worth_add hadd fee.denom] at hparts
  have hfirst : f.CanPay funds.bank distributed :=
    hcan.part rfl hdistributed (by omega) (by omega)
  have hleft := hfirst.holding_le_paid f.distribution fee.denom
  have hsecond : f.CanPay (f.paid f.distribution distributed funds.bank) back :=
    hcan.part (f.disabled_paid _ _ _) hback (by omega) (by omega)
  refine ⟨back, distributed, hdiv, hfirst, hsecond, ?_⟩
  obtain ⟨e, -, hnone⟩ | ⟨back', distributed', -, hdiv', hpaid⟩ :=
    f.payouts_refund charge used success distribute funds
  · exact absurd hdiv (hnone hused _)
  · cases hdiv.symm.trans hdiv'
    generalize (f.refund charge used success distribute funds).result = result at hpaid ⊢
    generalize (f.refund charge used success distribute funds).state.bank = b' at hpaid ⊢
    cases hpaid with
    | neither hno => exact absurd hfirst hno
    | first _ hno => exact absurd hsecond hno
    | both => exact ⟨rfl, rfl⟩

inductive Payments (f : FeeAccounts) (payer : Address) (back distributed : Coin) (b : Bank) :
    Except Error Refund → Bank → Prop
  | neither {e} : ¬ f.CanPay b distributed → Payments f payer back distributed b (.error e) b
  | first {mid e} : b.Transfer mid f.collector f.distribution distributed → ¬ f.CanPay mid back →
      Payments f payer back distributed b (.error e) mid
  | both {mid b'} : b.Transfer mid f.collector f.distribution distributed →
      mid.Transfer b' f.collector payer back →
      Payments f payer back distributed b (.ok ⟨payer, back, distributed⟩) b'

theorem Payments.kept {payer : Address} {back distributed : Coin} {b b' : Bank}
    {result : Except Error Refund} (h : f.Payments payer back distributed b result b') :
    b.Kept b' := by
  cases h with
  | neither => exact .refl b
  | first ht => exact ht.toKept
  | both ht ht' => exact ht.toKept.trans ht'.toKept

theorem Payments.disabled {payer : Address} {back distributed : Coin} {b b' : Bank}
    {result : Except Error Refund} (h : f.Payments payer back distributed b result b') :
    b'.disabled = b.disabled := by
  cases h with
  | neither => rfl
  | first ht => exact ht.disabled
  | both ht ht' => exact ht'.disabled.trans ht.disabled

theorem Payouts.payments {payer : Address} {back distributed : Coin} {b b' : Bank}
    {result : Except Error Refund} (h : f.Payouts payer back distributed b result b')
    (hb : b.Bounded) : f.Payments payer back distributed b result b' := by
  cases h with
  | neither hno => exact .neither hno
  | first hcan hno => exact .first (transfer_paid hb hcan f.distribution) hno
  | both hcan hcan' =>
    have hfirst := transfer_paid hb hcan f.distribution
    exact .both hfirst (transfer_paid (hfirst.toKept.bounded hb) hcan' payer)

theorem refund_cases {funds : Funds} (h : f.Backed funds.bank) (charge : Charge) (used : Coin)
    (success distribute : Bool) :
    (∃ e, f.refund charge used success distribute funds = .failed funds e ∧
      (used.denom = charge.required.denom →
        ∀ parts, charge.division used success distribute ≠ .ok parts)) ∨
    ∃ back distributed, charge.division used success distribute = .ok (back, distributed) ∧
      f.Payments charge.payer back distributed funds.bank
        (f.refund charge used success distribute funds).result
        (f.refund charge used success distribute funds).state.bank := by
  obtain hfailed | ⟨back, distributed, -, hdiv, hpaid⟩ :=
    f.payouts_refund charge used success distribute funds
  · exact .inl hfailed
  · exact .inr ⟨back, distributed, hdiv, hpaid.payments h.bounded⟩

theorem refund_of_canPay {funds : Funds} (h : f.Backed funds.bank) (charge : Charge)
    {fee used : Coin}
    (hadd : charge.required.add charge.tip = .ok fee) (hcan : f.CanPay funds.bank fee)
    (hused : used.denom = charge.required.denom) (success distribute : Bool) :
    ∃ back distributed mid, charge.division used success distribute = .ok (back, distributed) ∧
      funds.bank.Transfer mid f.collector f.distribution distributed ∧
      (f.refund charge used success distribute funds).result =
        .ok ⟨charge.payer, back, distributed⟩ ∧
      mid.Transfer (f.refund charge used success distribute funds).state.bank f.collector
        charge.payer back := by
  obtain ⟨back, distributed, hdiv, hfirst, hsecond, hresult, hbank⟩ :=
    paid_of_canPay charge hadd hcan hused success distribute
  have hout := transfer_paid h.bounded hfirst f.distribution
  refine ⟨back, distributed, _, hdiv, hout, hresult, ?_⟩
  rw [hbank]
  exact transfer_paid (hout.toKept.bounded h.bounded) hsecond charge.payer

end FeeAccounts

end GasMarket
