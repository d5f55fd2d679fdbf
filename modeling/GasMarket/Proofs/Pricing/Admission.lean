import GasMarket.Proofs.Decimal.Fraction
import GasMarket.Proofs.Ledger.Settleable
import Mathlib.Data.Rat.Floor

namespace GasMarket

open Decimal

theorem Rounding.divide_ceil_scale (n : Int) : ceil.divide n scale = ⌈(n / scale : ℚ)⌉ := by
  rw [divide_ceil (by decide)]
  exact (Rat.ceil_intCast_div_natCast n scale).symm

namespace Tx

variable {tx : Tx} {feeDenom : String}

def offered (tx : Tx) (feeDenom : String) : Coin := tx.fee.headD (.zero feeDenom)

def HasGas (tx : Tx) (context : Context) : Prop :=
  0 < tx.gasLimit ∨ context.simulate ∨ context.height = 0

theorem offeredFee_eq_ok_iff {fee : Coin} :
    tx.offeredFee feeDenom = .ok fee ↔ tx.fee.length ≤ 1 ∧ fee = tx.offered feeDenom := by
  unfold offeredFee offered
  cases tx.fee with
  | nil => simp [eq_comm]
  | cons coin rest =>
    cases rest with
    | nil => simp [eq_comm]
    | cons next rest => simp

theorem offeredFee_eq_error_iff {e : Error} : tx.offeredFee feeDenom = .error e ↔
    1 < tx.fee.length ∧ e = .tooManyFeeCoins tx.fee.length := by
  unfold offeredFee
  cases tx.fee with
  | nil => simp
  | cons coin rest =>
    cases rest with
    | nil => simp
    | cons next rest => simp [eq_comm]

theorem hasGas_iff {context : Context} :
    tx.HasGas context ↔ ¬ (tx.gasLimit = 0 ∧ context.RequiresGasLimit) := by
  unfold HasGas Context.RequiresGasLimit
  rw [UInt64.pos_iff_ne_zero, UInt64.pos_iff_ne_zero]
  tauto

end Tx

namespace Controller

variable {p : Params} {s : Controller} {rates : Rates} {tx : Tx} {context : Context} {gas : UInt64}
  {denom : String} {units : Int}

section Rule

variable (p : Params) (s : Controller) (rates : Rates)

def Quotes (denom : String) (units : Int) : Prop :=
  if denom = p.feeDenom then units = s.baseFee.units
  else ∃ rate, rates.get? (p.feeDenom, denom) = some rate ∧ InRange (s.baseFee.units * rate.units) ∧
    units = (s.baseFee.units * rate.units).tdiv scale

def Unquoted (denom : String) : Prop :=
  denom ≠ p.feeDenom ∧ ∀ rate, rates.get? (p.feeDenom, denom) = some rate →
    ¬ InRange (s.baseFee.units * rate.units)

def exactCost (units : Int) (gas : UInt64) : ℚ := (units * gas.toNat : Int) / scale

structure Demands (gas : UInt64) (required : Coin) : Prop where
  priced : p.enabled → ∃ units,
    s.Quotes p rates required.denom units ∧ InRange (units * gas.toNat) ∧
    (required.amount.toNat : Int) = ⌈exactCost units gas⌉
  free : ¬ p.enabled → required.amount = 0

variable (tx : Tx) (context : Context)

structure Admits (a : Admission) : Prop where
  hasGas : tx.HasGas context
  single : tx.fee.length ≤ 1
  demanded : s.Demands p rates tx.gasLimit a.required
  required_denom : a.required.denom = (tx.offered p.feeDenom).denom
  covered : a.required.amount ≤ (tx.offered p.feeDenom).amount
  tip_denom : a.tip.denom = (tx.offered p.feeDenom).denom
  split : a.required.amount.toNat + a.tip.amount.toNat = (tx.offered p.feeDenom).amount.toNat

/-- The errors by precedence: each supposes that what the earlier ones complain of is in order. -/
inductive Refuses : Error → Prop
  | gasLimit (h : ¬ tx.HasGas context) : Refuses .invalidGasLimit
  | feeCoins (hgas : tx.HasGas context) (h : 1 < tx.fee.length) :
      Refuses (.tooManyFeeCoins tx.fee.length)
  | denom (hgas : tx.HasGas context) (hsingle : tx.fee.length ≤ 1) (henabled : p.enabled)
      (h : s.Unquoted p rates (tx.offered p.feeDenom).denom) :
      Refuses (.unknownDenom (tx.offered p.feeDenom).denom)
  | cost (hgas : tx.HasGas context) (hsingle : tx.fee.length ≤ 1) (henabled : p.enabled)
      (units : Int) (hprice : s.Quotes p rates (tx.offered p.feeDenom).denom units)
      (h : ¬ InRange (units * tx.gasLimit.toNat) ∨ ⌈exactCost units tx.gasLimit⌉ < 0) :
      Refuses (.arithmetic .overflow)
  | fee (hgas : tx.HasGas context) (hsingle : tx.fee.length ≤ 1) (required : Coin)
      (hdenom : required.denom = (tx.offered p.feeDenom).denom)
      (hdemanded : s.Demands p rates tx.gasLimit required)
      (h : (tx.offered p.feeDenom).amount < required.amount) :
      Refuses (.insufficientFee required (tx.offered p.feeDenom))

end Rule

theorem prices_iff {price : Decimal} :
    s.Prices p rates denom price ↔ s.Quotes p rates denom price.units := by
  unfold Prices Quotes
  simp only [Decimal.ext_iff, mul_eq_ok_iff]

theorem Quotes.exists_prices (h : s.Quotes p rates denom units) :
    ∃ price : Decimal, price.units = units ∧ s.Prices p rates denom price := by
  have hrange : InRange units := by
    unfold Quotes at h
    split at h
    · rw [h]
      exact s.baseFee.inRange
    · obtain ⟨rate, -, hproduct, rfl⟩ := h
      exact hproduct.tdiv (by decide)
  exact ⟨⟨units, hrange⟩, rfl, prices_iff.2 h⟩

theorem unquoted_iff : s.Unquoted p rates denom ↔ ∀ units, ¬ s.Quotes p rates denom units := by
  unfold Unquoted Quotes
  by_cases hdenom : denom = p.feeDenom
  · simp [hdenom]
  · simp only [if_neg hdenom]
    constructor
    · rintro ⟨-, hnone⟩ units ⟨rate, hrate, hrange, -⟩
      exact hnone rate hrate hrange
    · exact fun h => ⟨hdenom, fun rate hrate hrange => h _ ⟨rate, hrate, hrange, rfl⟩⟩

theorem gasPrice_eq_error_iff {e : Error} : s.gasPrice p rates denom = .error e ↔
    e = .unknownDenom denom ∧ s.Unquoted p rates denom := by
  rw [unquoted_iff]
  cases hprice : s.gasPrice p rates denom with
  | ok quoted =>
    have hquotes := prices_iff.1 (gasPrice_eq_ok_iff.1 hprice).2
    exact iff_of_false nofun fun h => h.2 _ hquotes
  | error e' =>
    have hnone : ∀ units, ¬ s.Quotes p rates denom units := by
      intro units hquotes
      obtain ⟨price, -, hprice'⟩ := hquotes.exists_prices
      have hok : s.gasPrice p rates denom = .ok ⟨denom, price⟩ :=
        gasPrice_eq_ok_iff.2 ⟨rfl, hprice'⟩
      rw [hprice] at hok
      cases hok
    rw [eq_unknownDenom_of_gasPrice hprice, Except.error.injEq, eq_comm]
    exact (and_iff_left hnone).symm

theorem cost_eq_ok_iff_ceil {price : Decimal} {a : Amount} : cost price gas = .ok a ↔
    InRange (price.units * gas.toNat) ∧ (a.toNat : Int) = ⌈exactCost price.units gas⌉ := by
  rw [cost_eq_ok_iff, Rounding.divide_ceil_scale]
  rfl

theorem cost_eq_error_iff_ceil {price : Decimal} {fault : ArithmeticFault} :
    cost price gas = .error fault ↔ fault = .overflow ∧
      (¬ InRange (price.units * gas.toNat) ∨ ⌈exactCost price.units gas⌉ < 0) := by
  cases hcost : cost price gas with
  | ok a =>
    obtain ⟨hrange, ha⟩ := cost_eq_ok_iff_ceil.1 hcost
    refine iff_of_false nofun ?_
    rintro ⟨-, hout | hneg⟩
    · exact hout hrange
    · omega
  | error fault' =>
    have hnone : ¬ HasCost price gas := fun h => by
      obtain ⟨a, ha⟩ := exists_cost_iff.2 h
      rw [hcost] at ha
      cases ha
    have hout : ¬ InRange (price.units * gas.toNat) ∨ ⌈exactCost price.units gas⌉ < 0 := by
      rw [exactCost, ← Rounding.divide_ceil_scale, Rounding.divide_ceil (by decide)]
      unfold HasCost at hnone
      unfold InRange
      unfold bound scale at *
      omega
    rw [onlyOverflows_cost _ _ _ hcost, Except.error.injEq, eq_comm]
    exact (and_iff_left hout).symm

theorem requiredFee_eq_ok_iff {required : Coin} : s.requiredFee p rates gas denom = .ok required ↔
    required.denom = denom ∧ s.Demands p rates gas required := by
  rw [← requiredFeeVia_convert, requiredFeeVia_eq_ok_iff]
  apply and_congr_right
  rintro rfl
  by_cases henabled : p.enabled
  · simp only [if_pos henabled, gasPriceVia_convert, gasPrice_eq_ok_iff, cost_eq_ok_iff_ceil]
    constructor
    · rintro ⟨quoted, ⟨-, hprice⟩, hrange, hamount⟩
      exact ⟨fun _ => ⟨_, prices_iff.1 hprice, hrange, hamount⟩, fun h => absurd henabled h⟩
    · intro hdemands
      obtain ⟨units, hquotes, hrange, hamount⟩ := hdemands.priced henabled
      obtain ⟨price, rfl, hprice⟩ := hquotes.exists_prices
      exact ⟨⟨required.denom, price⟩, ⟨rfl, hprice⟩, hrange, hamount⟩
  · rw [if_neg henabled]
    exact ⟨fun hzero => ⟨fun h => absurd h henabled, fun _ => hzero⟩,
      fun hdemands => hdemands.free henabled⟩

theorem requiredFee_eq_error_iff {e : Error} : s.requiredFee p rates gas denom = .error e ↔
    p.enabled ∧ (e = .unknownDenom denom ∧ s.Unquoted p rates denom ∨
      e = .arithmetic .overflow ∧ ∃ units, s.Quotes p rates denom units ∧
        (¬ InRange (units * gas.toNat) ∨ ⌈exactCost units gas⌉ < 0)) := by
  unfold requiredFee
  by_cases henabled : p.enabled
  · simp only [if_pos henabled, bind_eq_error_iff, mapError_eq_error_iff, mapError_eq_ok_iff,
      gasPrice_eq_error_iff, gasPrice_eq_ok_iff, cost_eq_error_iff_ceil]
    constructor
    · rintro (hunquoted | ⟨price, ⟨-, hprice⟩, ⟨fault, ⟨rfl, hcost⟩, rfl⟩ | ⟨amount, -, hpure⟩⟩)
      · exact ⟨henabled, .inl hunquoted⟩
      · exact ⟨henabled, .inr ⟨rfl, _, prices_iff.1 hprice, hcost⟩⟩
      · cases hpure
    · rintro ⟨-, hunquoted | ⟨rfl, units, hquotes, hcost⟩⟩
      · exact .inl hunquoted
      · obtain ⟨price, rfl, hprice⟩ := hquotes.exists_prices
        exact .inr ⟨⟨denom, price⟩, ⟨rfl, hprice⟩, .inl ⟨.overflow, ⟨rfl, hcost⟩, rfl⟩⟩
  · rw [if_neg henabled]
    exact iff_of_false nofun fun h => henabled h.1

theorem checkFee_eq_ok_iff_admits {a : Admission} :
    s.checkFee p rates tx context = .ok a ↔ s.Admits p rates tx context a := by
  obtain ⟨required, tip⟩ := a
  unfold checkFee
  by_cases hgas : tx.HasGas context
  · simp only [if_neg (Tx.hasGas_iff.1 hgas), bind_eq_ok_iff, Tx.offeredFee_eq_ok_iff,
      requiredFee_eq_ok_iff]
    constructor
    · rintro ⟨fee, ⟨hsingle, rfl⟩, required', ⟨hdenom, hdemands⟩, hsplit⟩
      split at hsplit
      case h_1 tip' hsub =>
        cases hsplit
        obtain ⟨-, htip, hamount⟩ := Coin.sub_eq_ok_iff.1 hsub
        have hcovered : required.amount.toNat ≤ (tx.offered p.feeDenom).amount.toNat := by omega
        exact ⟨hgas, hsingle, hdemands, hdenom, hcovered, htip, (Nat.add_comm _ _).trans hamount⟩
      case h_2 => cases hsplit
    · intro h
      have hsplit : tip.amount.toNat + required.amount.toNat = _ := (Nat.add_comm _ _).trans h.split
      have hsub := Coin.sub_eq_ok_iff.2 ⟨h.required_denom.symm, h.tip_denom, hsplit⟩
      refine ⟨_, ⟨h.single, rfl⟩, required, ⟨h.required_denom, h.demanded⟩, ?_⟩
      rw [hsub]
      rfl
  · have hlimit := Decidable.not_not.1 (mt Tx.hasGas_iff.2 hgas)
    rw [if_pos hlimit]
    exact iff_of_false nofun fun h => hgas h.hasGas

theorem checkFee_eq_error_iff_refuses {e : Error} :
    s.checkFee p rates tx context = .error e ↔ s.Refuses p rates tx context e := by
  unfold checkFee
  by_cases hgas : tx.HasGas context
  · simp only [if_neg (Tx.hasGas_iff.1 hgas), bind_eq_error_iff, Tx.offeredFee_eq_error_iff,
      Tx.offeredFee_eq_ok_iff, requiredFee_eq_error_iff, requiredFee_eq_ok_iff]
    constructor
    · rintro
        (⟨hmany, rfl⟩ | ⟨fee, ⟨hsingle, rfl⟩, hrequired | ⟨required, ⟨hdenom, hdemands⟩, hsplit⟩⟩)
      · exact .feeCoins hgas hmany
      · obtain ⟨henabled, ⟨rfl, hunquoted⟩ | ⟨rfl, units, hquotes, hcost⟩⟩ := hrequired
        · exact .denom hgas hsingle henabled hunquoted
        · exact .cost hgas hsingle henabled units hquotes hcost
      · split at hsplit
        case h_1 => cases hsplit
        case h_2 fault hsub =>
          cases hsplit
          exact .fee hgas hsingle required hdenom hdemands
            ((Coin.exists_sub_eq_error_iff hdenom.symm).1 ⟨fault, hsub⟩)
    · rintro (hnone | ⟨-, hmany⟩ | ⟨-, hsingle, henabled, hunquoted⟩ |
        ⟨-, hsingle, henabled, units, hquotes, hcost⟩ |
        ⟨-, hsingle, required, hdenom, hdemands, hless⟩)
      · exact absurd hgas hnone
      · exact .inl ⟨hmany, rfl⟩
      · exact .inr ⟨_, ⟨hsingle, rfl⟩, .inl ⟨henabled, .inl ⟨rfl, hunquoted⟩⟩⟩
      · exact .inr ⟨_, ⟨hsingle, rfl⟩, .inl ⟨henabled, .inr ⟨rfl, units, hquotes, hcost⟩⟩⟩
      · obtain ⟨fault, hsub⟩ := (Coin.exists_sub_eq_error_iff hdenom.symm).2 hless
        refine .inr ⟨_, ⟨hsingle, rfl⟩, .inr ⟨required, ⟨hdenom, hdemands⟩, ?_⟩⟩
        rw [hsub]
        rfl
  · have hlimit := Decidable.not_not.1 (mt Tx.hasGas_iff.2 hgas)
    rw [if_pos hlimit]
    constructor
    · intro herror
      cases herror
      exact .gasLimit hgas
    · rintro (_ | ⟨hgas', -⟩ | ⟨hgas', -⟩ | ⟨hgas', -⟩ | ⟨hgas', -⟩)
      · rfl
      all_goals exact absurd hgas' hgas

/-- The rule of admission: which fees are admitted and into what they are split, which error refuses
any other, and that a fee found too low is in the denomination of what it falls short of. -/
theorem checkFee_rule (p : Params) (s : Controller) (rates : Rates) (tx : Tx) (context : Context) :
    (∀ a, s.checkFee p rates tx context = .ok a ↔ s.Admits p rates tx context a) ∧
      (∀ e, s.checkFee p rates tx context = .error e ↔ s.Refuses p rates tx context e) ∧
      ∀ required fee, s.checkFee p rates tx context = .error (.insufficientFee required fee) →
        required.denom = fee.denom := by
  refine ⟨fun a => checkFee_eq_ok_iff_admits, fun e => checkFee_eq_error_iff_refuses, ?_⟩
  intro required fee hrefused
  cases checkFee_eq_error_iff_refuses.1 hrefused with
  | fee _ _ _ hdenom _ _ => exact hdenom

theorem checkFee_rule_converted :
    let p : Params := { Params.eip1559 with minBaseFee := .ofAtoms 5 }
    let rates : Rates := Table.empty.insert ("stake", "atom") (.ofAtoms 333333333333333333)
    let context : Context := ⟨1, false⟩
    (new p).Refuses p rates (.new ⟨1⟩ ⟨"atom", 0⟩ 21000) context
        (.insufficientFee ⟨"atom", 1⟩ ⟨"atom", 0⟩) ∧
      (new p).Admits p rates (.new ⟨1⟩ ⟨"atom", 3⟩ 21000) context ⟨⟨"atom", 1⟩, ⟨"atom", 2⟩⟩ := by
  intro p rates context
  obtain ⟨-, hrefused, -⟩ := checkFee_rule p (new p) rates (.new ⟨1⟩ ⟨"atom", 0⟩ 21000) context
  obtain ⟨hadmitted, -, -⟩ := checkFee_rule p (new p) rates (.new ⟨1⟩ ⟨"atom", 3⟩ 21000) context
  exact ⟨(hrefused _).1 rfl, (hadmitted _).1 (toOption_eq_some_iff.1 (by decide +kernel))⟩

end Controller

end GasMarket
