import GasMarket.Proofs.Ledger.Settlement
import GasMarket.Proofs.Ledger.Solvency

namespace GasMarket

theorem Rates.convert_eq_ok_iff {rates : Rates} {price quoted : Price} {denom : String}
    (h : price.denom ≠ denom) : rates.convert price denom = .ok quoted ↔ quoted.denom = denom ∧
      ∃ rate, rates.get? (price.denom, denom) = some rate ∧
        price.amount.mul rate = .ok quoted.amount := by
  rw [convert, if_neg h]
  obtain ⟨kind, amount⟩ := quoted
  cases rates.get? (price.denom, denom) with
  | none => simp
  | some rate =>
    cases hproduct : price.amount.mul rate with
    | ok product => simp [hproduct, eq_comm]
    | error fault => simp [hproduct]

namespace Controller

variable {p : Params} {s : Controller} {rates : Rates} {denom : String} {price : Decimal}
    {gas : UInt64}

def Prices (p : Params) (s : Controller) (rates : Rates) (denom : String) (price : Decimal) :
    Prop :=
  if denom = p.feeDenom then price = s.baseFee
  else ∃ rate, rates.get? (p.feeDenom, denom) = some rate ∧ s.baseFee.mul rate = .ok price

def HasCost (price : Decimal) (gas : UInt64) : Prop :=
  -Decimal.scale < price.units * gas.toNat ∧ price.units * gas.toNat < Decimal.bound

theorem gasPrice_eq_ok_iff {quoted : Price} : s.gasPrice p rates denom = .ok quoted ↔
    quoted.denom = denom ∧ s.Prices p rates denom quoted.amount := by
  unfold gasPrice Prices
  by_cases hdenom : denom = p.feeDenom
  · rw [if_pos hdenom, if_pos hdenom, Except.ok.injEq, hdenom]
    constructor
    · rintro rfl
      exact ⟨rfl, rfl⟩
    · rintro ⟨hquoted, hamount⟩
      rw [baseGasPrice, ← hquoted, ← hamount]
  · rw [if_neg hdenom, if_neg hdenom, mapError_eq_ok_iff]
    exact Rates.convert_eq_ok_iff fun h => hdenom h.symm

theorem eq_unknownDenom_of_gasPrice {e : Error} (h : s.gasPrice p rates denom = .error e) :
    e = .unknownDenom denom := by
  unfold gasPrice Rates.convert at h
  split at h
  · cases h
  · split at h
    · cases h
    · split at h
      · cases h
        rfl
      · split at h
        · cases h
        · cases h
          rfl

theorem exists_cost_iff : (∃ amount, cost price gas = .ok amount) ↔ HasCost price gas := by
  have hceil := Rounding.divide_ceil (d := Decimal.scale) (by decide) (price.units * gas.toNat)
  have hscale : 0 < Decimal.scale ∧ Decimal.scale ≤ Decimal.bound := by decide
  constructor
  · rintro ⟨amount, hcost⟩
    obtain ⟨hrange, hamount⟩ := cost_eq_ok_iff.1 hcost
    refine ⟨?_, hrange.2⟩
    unfold Decimal.scale at *
    omega
  · rintro ⟨hlow, hlt⟩
    apply exists_cost_of_nonneg ⟨by omega, hlt⟩
    unfold Decimal.scale at *
    omega

theorem onlyOverflows_cost (price : Decimal) (gas : UInt64) :
    Decimal.OnlyOverflows (cost price gas) := by
  apply (Decimal.onlyOverflows_ofUnits _).bind
  intro product _
  rw [Decimal.toAmount_eq]
  split
  · rintro fault ⟨⟩
    rfl
  · exact Decimal.onlyOverflows_ok _

theorem exists_requiredFee_iff : (∃ fee, s.requiredFee p rates gas denom = .ok fee) ↔
    (p.enabled → ∃ price, s.Prices p rates denom price ∧ HasCost price gas) := by
  simp only [← requiredFeeVia_convert, requiredFeeVia_eq_ok_iff]
  by_cases he : p.enabled
  · simp only [if_pos he, gasPriceVia_convert, gasPrice_eq_ok_iff]
    constructor
    · rintro ⟨fee, -, quoted, ⟨-, hprice⟩, hcost⟩ -
      exact ⟨quoted.amount, hprice, exists_cost_iff.1 ⟨fee.amount, hcost⟩⟩
    · intro h
      obtain ⟨price, hprice, hcost⟩ := h he
      obtain ⟨amount, hamount⟩ := exists_cost_iff.2 hcost
      exact ⟨⟨denom, amount⟩, rfl, ⟨denom, price⟩, ⟨rfl, hprice⟩, hamount⟩
  · simp only [if_neg he]
    exact iff_of_true ⟨.zero denom, rfl, rfl⟩ fun h => absurd h he

theorem requiredFee_error {e : Error} (h : s.requiredFee p rates gas denom = .error e) :
    e = .unknownDenom denom ∨ e = .arithmetic .overflow := by
  unfold requiredFee at h
  split at h
  · cases hquoted : s.gasPrice p rates denom with
    | error e' =>
      rw [hquoted] at h
      cases h
      exact .inl (eq_unknownDenom_of_gasPrice hquoted)
    | ok quoted =>
      rw [hquoted] at h
      change ((cost quoted.amount gas).mapError Error.arithmetic >>= _) = _ at h
      cases hcost : cost quoted.amount gas with
      | error fault =>
        rw [hcost] at h
        cases h
        exact .inr (congrArg Error.arithmetic (onlyOverflows_cost _ _ fault hcost))
      | ok amount =>
        rw [hcost] at h
        cases h
  · cases h

end Controller

namespace FeeAccounts

variable {f : FeeAccounts}

section Disabled

variable (f)

theorem disabled_collect {b b' : Bank} {payer : Address} {fee : Coin}
    (h : f.collect payer fee b = .ok b') : b'.disabled = b.disabled := by
  unfold collect at h
  split at h
  · cases h
    rfl
  · obtain ⟨u, -, h⟩ := bind_eq_ok_iff.1 h
    unfold Bank.sendToModule at h
    split at h
    · cases h
    · obtain ⟨-, -, rfl⟩ := Bank.send_eq_ok_iff.1 h
      rfl

theorem disabled_giveBack {b b' : Bank} {payer : Address} {fee : Coin}
    (h : f.giveBack payer fee b = .ok b') : b'.disabled = b.disabled := by
  unfold giveBack at h
  split at h
  · cases h
    rfl
  · obtain ⟨-, -, rfl⟩ := pay_eq_ok_iff.1 h
    rfl

theorem disabled_settleGrant (tx : Tx) (fee : Coin) (funds : Funds) :
    (f.settleGrant tx fee funds).state.bank.disabled = funds.bank.disabled := by
  unfold settleGrant
  split
  · rfl
  · split
    · rfl
    · cases hback : f.giveBack tx.feePayer fee funds.bank with
      | ok bank => exact f.disabled_giveBack hback
      | error e => rfl

theorem disabled_deduct (tx : Tx) (required tip : Coin) (funds : Funds) :
    (f.deduct tx required tip funds).state.bank.disabled = funds.bank.disabled := by
  unfold deduct
  split
  · rfl
  · cases required.add tip with
    | error e => rfl
    | ok fee =>
      cases hcollect : f.collect tx.feePayer fee funds.bank with
      | error fault =>
        simp only [hcollect]
        rfl
      | ok bank =>
        simp only [hcollect, Outcome.state_andThen_done]
        rw [f.disabled_settleGrant]
        exact f.disabled_collect hcollect

theorem disabled_refund (charge : Charge) (used : Coin) (success distribute : Bool)
    (funds : Funds) :
    (f.refund charge used success distribute funds).state.bank.disabled = funds.bank.disabled := by
  obtain ⟨e, hfailed, -⟩ | ⟨back, distributed, -, -, hpaid⟩ :=
    f.payouts_refund charge used success distribute funds
  · rw [hfailed]
    rfl
  · generalize (f.refund charge used success distribute funds).result = result at hpaid
    generalize (f.refund charge used success distribute funds).state.bank = b' at hpaid ⊢
    cases hpaid with
    | neither => rfl
    | first => exact f.disabled_paid _ _ _
    | both => exact (f.disabled_paid _ _ _).trans (f.disabled_paid _ _ _)

end Disabled

theorem exists_refund_of_canPay {funds : Funds} (charge : Charge) {fee used : Coin}
    (hadd : charge.required.add charge.tip = .ok fee) (hcan : f.CanPay funds.bank fee)
    (hused : used.denom = charge.required.denom) (success distribute : Bool) :
    ∃ refund, (f.refund charge used success distribute funds).result = .ok refund := by
  obtain ⟨back, distributed, -, -, -, hresult, -⟩ :=
    paid_of_canPay charge hadd hcan hused success distribute
  exact ⟨_, hresult⟩

theorem enabled_of_collect {b b' : Bank} {payer : Address} {fee : Coin}
    (h : f.collect payer fee b = .ok b') : fee.IsZero ∨ fee.denom ∉ b.disabled := by
  unfold collect at h
  split at h
  case isTrue hz => exact .inl hz
  case isFalse =>
    obtain ⟨u, henabled, -⟩ := bind_eq_ok_iff.1 h
    exact .inr (Bank.sendEnabled_eq_ok_iff.1 henabled)

theorem payable_of_deduct {funds : Funds} {tx : Tx} {required tip : Coin} {charge : Charge}
    (h : (f.deduct tx required tip funds).result = .ok charge) :
    charge.Payable funds.bank.disabled := by
  unfold deduct at h
  split at h
  · cases h
  · cases hadd : required.add tip with
    | error e =>
      rw [hadd] at h
      cases h
    | ok fee =>
      cases hcollect : f.collect tx.feePayer fee funds.bank with
      | error fault =>
        simp only [hadd, hcollect] at h
        cases h
      | ok bank =>
        simp only [hadd, hcollect, Outcome.result_andThen_eq_ok_iff] at h
        obtain ⟨-, -, h⟩ := h
        cases h
        exact ⟨fee, hadd, enabled_of_collect hcollect⟩

end FeeAccounts

namespace Market

theorem disabled_step (m : Market) {s : Step} (hs : s.KeepsBank) :
    (m.step s).funds.bank.disabled = m.funds.bank.disabled := by
  by_cases hmoves : s.MovesFunds
  · cases s with
    | host part => exact hmoves.elim
    | operation op =>
      cases op with
      | initGenesis | load | beginBlock | endBlock | updateParams | checkFee | drainEvents =>
        exact hmoves.elim
      | deduct tx required tip =>
        rw [step, perform, state_deduct, funds_told]
        exact m.feeAccounts.disabled_deduct tx required tip m.funds
      | refund tx charge gasUsed success =>
        obtain ⟨e, -, he⟩ | ⟨s, used, moved, -, -, -, rfl, -, he⟩ :=
          refund_cases m tx charge gasUsed success
        · rw [step, perform, he]
          rfl
        · rw [step, perform, he, funds_told]
          exact m.feeAccounts.disabled_refund charge used success m.params.distributeFees m.funds
  · rw [bank_step_of_not_movesFunds m hs hmoves]

theorem rates_step (m : Market) {s : Step} (hs : s.KeepsRates) : (m.step s).rates = m.rates := by
  cases s with
  | operation op => exact congrArg (·.2.1) (settings_perform m op)
  | host part =>
    cases part with
    | rates r => exact hs.elim
    | bank | disabled | accounts | allowances | gasCap => rfl

/-- A charge that was taken is settled, whatever has happened since, as long as its
denomination has a price under the params in force and the collector still holds it.  If it has
none, nothing changes. -/
theorem exists_refund_iff {m later : Market} (hm : m.Reachable) {tx : Tx} {required tip : Coin}
    {charge : Charge} (hcharged : (m.deduct tx required tip).result = .ok charge)
    {steps : List Step} (hsteps : ∀ s ∈ steps, s.KeepsBank ∧ s.KeepsRates)
    (hlater : later = (m.deduct tx required tip).state.after steps)
    (hsolvent : ∀ denom,
      charge.worth denom ≤ later.funds.bank.holding later.feeAccounts.collector denom)
    {gasUsed : UInt64} (hlimit : gasUsed ≤ tx.gasLimit)
    (hfits : later.params.enabled →
      later.state.currentGas.toNat + gasUsed.toNat ≤ later.state.maxGas.toNat) (success : Bool) :
    ((∃ refund, (later.refund tx charge gasUsed success).result = .ok refund) ↔
      (later.params.enabled → ∃ price,
        later.state.Prices later.params m.rates charge.required.denom price ∧
          Controller.HasCost price gasUsed)) ∧
    ∀ e, (later.refund tx charge gasUsed success).result = .error e →
      (later.refund tx charge gasUsed success).state = later ∧
        (e = .unknownDenom charge.required.denom ∨ e = .arithmetic .overflow) := by
  have hsound : later.Sound := by
    rw [hlater]
    exact after_induction (hm.sound.deduct tx required tip) (fun _ s h => h.step s) steps
  have hkept : later.funds.bank.disabled = m.funds.bank.disabled ∧ later.rates = m.rates := by
    rw [hlater]
    refine after_induction_on (P := fun m' => m'.funds.bank.disabled = m.funds.bank.disabled ∧
      m'.rates = m.rates) hsteps ?_ ?_
    · rw [state_deduct, funds_told]
      exact ⟨m.feeAccounts.disabled_deduct tx required tip m.funds, rfl⟩
    · rintro m' s ⟨hbank, hrates⟩ ⟨hdisabled, hsame⟩
      exact ⟨(disabled_step m' hbank).trans hdisabled, (rates_step m' hrates).trans hsame⟩
  have hpayable : charge.Payable later.funds.bank.disabled := by
    rw [result_deduct] at hcharged
    rw [hkept.1]
    exact FeeAccounts.payable_of_deduct hcharged
  obtain ⟨fee, hadd, hcan⟩ := hpayable.canPay hsolvent
  obtain ⟨s, hs⟩ := hsound.recorded_of_fits hfits
  rw [← hkept.2, ← Controller.exists_requiredFee_iff]
  obtain ⟨e, hrefused, he⟩ | ⟨s', used, moved, -, -, hused, rfl, hresult, -⟩ :=
    refund_cases later tx charge gasUsed success
  · cases hrefused with
    | limit h => exact absurd hlimit (UInt64.not_le.2 h)
    | block h => exact absurd (hs.symm.trans h) nofun
    | price h =>
      rw [he]
      refine ⟨iff_of_false nofun ?_, ?_⟩
      · rintro ⟨used, hused⟩
        exact absurd (hused.symm.trans h) nofun
      · rintro e' ⟨⟩
        exact ⟨rfl, Controller.requiredFee_error h⟩
  · obtain ⟨refund, hrefund⟩ := FeeAccounts.exists_refund_of_canPay charge hadd hcan
      (Controller.denom_requiredFee hused) success later.params.distributeFees
    rw [hresult, hrefund]
    exact ⟨iff_of_true ⟨refund, rfl⟩ ⟨used, hused⟩, nofun⟩

def chargedStake : Charge := ⟨⟨0xaa⟩, ⟨"stake", 2000000000⟩, ⟨"stake", 7⟩⟩

def feesInAtom : List Step :=
  [.operation (.beginBlock 1),
    .operation (.updateParams Config.default.authority { Params.eip1559 with feeDenom := "atom" }),
    .operation (.endBlock 1)]

theorem worth_chargedStake_le {b : Bank} {address : Address}
    (h : 2000000007 ≤ b.holding address "stake") (denom : String) :
    chargedStake.worth denom ≤ b.holding address denom := by
  unfold Charge.worth Coin.worth chargedStake
  by_cases hdenom : "stake" = denom
  · subst hdenom
    exact h
  · rw [if_neg hdenom, if_neg hdenom]
    exact Nat.zero_le _

theorem exists_refund_feesInAtom : ∃ start, new .default = .ok start ∧
    let tx := Tx.new ⟨0xaa⟩ ⟨"stake", 2000000007⟩ 2
    let m := start.after [.host (.accounts ⟨.empty, [⟨0xaa⟩]⟩),
      .host (.bank (start.feeAccounts.funded ⟨0xaa⟩ ⟨"stake", 3000000000⟩)),
      .host (.rates (Table.empty.insert ("atom", "stake") .one))]
    let later := (m.deduct tx chargedStake.required chargedStake.tip).state.after feesInAtom
    (m.deduct tx chargedStake.required chargedStake.tip).result = .ok chargedStake ∧
      ∃ refund, (later.refund tx chargedStake 1 true).result = .ok refund := by
  refine ⟨_, rfl, ?_⟩
  intro tx m later
  have hm : m.Reachable := ⟨.default, _, _, rfl, rfl⟩
  have hcharged : (m.deduct tx chargedStake.required chargedStake.tip).result = .ok chargedStake :=
    toOption_eq_some_iff.1 (by decide +kernel)
  have hsteps : ∀ s ∈ feesInAtom, s.KeepsBank ∧ s.KeepsRates := by
    simp [feesInAtom, Step.KeepsBank, Step.KeepsRates]
  have hheld : 2000000007 ≤ later.funds.bank.holding later.feeAccounts.collector "stake" := by
    decide +kernel
  have hfits : later.params.enabled →
      later.state.currentGas.toNat + UInt64.toNat 1 ≤ later.state.maxGas.toNat := by decide +kernel
  have hdenom : later.params.feeDenom = "atom" := by decide +kernel
  have hfee : later.state.baseFee = .ofUInt64 1000000000 := by decide +kernel
  have hrate : m.rates.get? ("atom", "stake") = some .one := by decide +kernel
  have hlater :
      later = (m.deduct tx chargedStake.required chargedStake.tip).state.after feesInAtom := rfl
  clear_value m later
  have hprice : later.state.Prices later.params m.rates chargedStake.required.denom
      (.ofUInt64 1000000000) := by
    rw [Controller.Prices, hdenom, hfee, if_neg (by decide)]
    exact ⟨.one, hrate, toOption_eq_some_iff.1 (by decide)⟩
  have hcost : Controller.HasCost (.ofUInt64 1000000000) 1 := by
    unfold Controller.HasCost
    decide
  exact ⟨hcharged,
    (exists_refund_iff hm hcharged hsteps hlater (worth_chargedStake_le hheld) (by decide)
      hfits true).1.2 fun _ => ⟨_, hprice, hcost⟩⟩

/-- Without a rate from the one into the other the charge cannot be settled, though the collector
holds it and the block has room. -/
theorem no_refund_feesInAtom : ∃ start, new .default = .ok start ∧
    let tx := Tx.new ⟨0xaa⟩ ⟨"stake", 2000000007⟩ 2
    let m := start.after [.host (.accounts ⟨.empty, [⟨0xaa⟩]⟩),
      .host (.bank (start.feeAccounts.funded ⟨0xaa⟩ ⟨"stake", 3000000000⟩))]
    let later := (m.deduct tx chargedStake.required chargedStake.tip).state.after feesInAtom
    m.checkFee tx ⟨1, false⟩ = .ok ⟨chargedStake.required, chargedStake.tip⟩ ∧
      (m.deduct tx chargedStake.required chargedStake.tip).result = .ok chargedStake ∧
      (∀ denom, chargedStake.worth denom ≤
        later.funds.bank.holding later.feeAccounts.collector denom) ∧
      later.state.currentGas.toNat + 1 ≤ later.state.maxGas.toNat ∧
      (later.refund tx chargedStake 1 true).result = .error (.unknownDenom "stake") := by
  refine ⟨_, rfl, toOption_eq_some_iff.1 (by decide +kernel),
    toOption_eq_some_iff.1 (by decide +kernel), worth_chargedStake_le (by decide +kernel),
    by decide +kernel, ?_⟩
  rfl

end Market

end GasMarket
