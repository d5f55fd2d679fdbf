import GasMarket.Admission
import GasMarket.Proofs.Decimal.Arithmetic

namespace GasMarket

/-- Any way of quoting a price in a denomination, of which a table of rates is one. -/
abbrev Resolver := Price → String → Except NoConversion Price

namespace Rounding

theorem divide_ceil {d : Int} (hd : 0 ≤ d) (n : Int) : ceil.divide n d = -(-n / d) :=
  congrArg Neg.neg (Int.fdiv_eq_ediv_of_nonneg (-n) hd)

theorem ceil_le_ceil {n m d : Int} (hd : 0 < d) (h : n ≤ m) :
    ceil.divide n d ≤ ceil.divide m d := by
  rw [divide_ceil (Int.le_of_lt hd), divide_ceil (Int.le_of_lt hd)]
  exact Int.neg_le_neg (Int.ediv_le_ediv hd (Int.neg_le_neg h))

end Rounding

namespace Controller

theorem cost_eq_ok_iff {price : Decimal} {gas : UInt64} {a : Amount} : cost price gas = .ok a ↔
    Decimal.InRange (price.units * gas.toNat) ∧
      (a.toNat : Int) = Rounding.ceil.divide (price.units * gas.toNat) Decimal.scale := by
  unfold cost Decimal.mulUInt64
  simp only [bind_eq_ok_iff, Decimal.toAmount_eq_ok_iff, Decimal.ofUnits_eq_ok_iff,
    Decimal.round]
  constructor
  · rintro ⟨product, hproduct, ha⟩
    rw [← hproduct]
    exact ⟨product.inRange, ha⟩
  · rintro ⟨hrange, ha⟩
    exact ⟨⟨_, hrange⟩, rfl, ha⟩

theorem cost_of_inRange {price : Decimal} {gas : UInt64}
    (h : Decimal.InRange (price.units * gas.toNat)) :
    cost price gas = Decimal.toAmount .ceil ⟨_, h⟩ := by
  rw [cost, Decimal.mulUInt64, Decimal.ofUnits, dif_pos h]
  rfl

theorem exists_cost_of_nonneg {price : Decimal} {gas : UInt64}
    (h : Decimal.InRange (price.units * gas.toNat))
    (hnonneg : 0 ≤ Rounding.ceil.divide (price.units * gas.toNat) Decimal.scale) :
    ∃ a, cost price gas = .ok a := by
  have hround : ¬ Decimal.round .ceil ⟨_, h⟩ < 0 := Int.not_lt.2 hnonneg
  rw [cost_of_inRange h, Decimal.toAmount_eq, if_neg hround]
  exact ⟨_, rfl⟩

theorem cost_eq_error_iff {price : Decimal} {gas : UInt64} (hprice : 0 ≤ price.units)
    {fault : ArithmeticFault} : cost price gas = .error fault ↔
      fault = .overflow ∧ Decimal.bound ≤ price.units * gas.toNat := by
  have hproduct : 0 ≤ price.units * gas.toNat := Int.mul_nonneg hprice (Int.natCast_nonneg _)
  by_cases hrange : Decimal.InRange (price.units * gas.toNat)
  · have hnonneg := Rounding.ceil_le_ceil (d := Decimal.scale) (by decide) hproduct
    rw [Rounding.zero_divide] at hnonneg
    obtain ⟨a, ha⟩ := exists_cost_of_nonneg hrange hnonneg
    rw [ha]
    exact ⟨nofun, fun h => absurd hrange.2 (Int.not_lt.2 h.2)⟩
  · have hmul : price.mulUInt64 gas = .error .overflow :=
      Decimal.ofUnits_eq_error_iff.2 ⟨rfl, hrange⟩
    have hbound : Decimal.bound ≤ price.units * gas.toNat := by
      have : 0 < Decimal.bound := by decide
      unfold Decimal.InRange at hrange
      omega
    rw [cost, hmul]
    change Except.error _ = _ ↔ _
    rw [Except.error.injEq, and_iff_left hbound, eq_comm]

theorem exists_cost_of_between {price other : Decimal} {gas less : UInt64} {a : Amount}
    (h : cost price gas = .ok a)
    (hbetween : 0 ≤ other.units * less.toNat ∧ other.units * less.toNat ≤ price.units * gas.toNat ∨
      price.units * gas.toNat ≤ other.units * less.toNat ∧ other.units * less.toNat ≤ 0) :
    ∃ b, cost other less = .ok b ∧ b.toNat ≤ a.toNat := by
  obtain ⟨hrange, ha⟩ := cost_eq_ok_iff.1 h
  have hscale : (0 : Int) < Decimal.scale := by decide
  have hzero : Rounding.ceil.divide 0 Decimal.scale = 0 := Rounding.zero_divide _ _
  have hround : 0 ≤ Rounding.ceil.divide (other.units * less.toNat) Decimal.scale ∧
      Rounding.ceil.divide (other.units * less.toNat) Decimal.scale ≤ a.toNat := by
    cases hbetween with
    | inl habove =>
      have hnonneg := Rounding.ceil_le_ceil hscale habove.1
      have hmono := Rounding.ceil_le_ceil hscale habove.2
      rw [hzero] at hnonneg
      exact ⟨hnonneg, ha ▸ hmono⟩
    | inr hbelow =>
      -- a cost is no amount below zero, so the lower product rounds up to nothing
      have hmono := Rounding.ceil_le_ceil hscale hbelow.1
      have hnonpos := Rounding.ceil_le_ceil hscale hbelow.2
      rw [hzero] at hnonpos
      rw [← ha] at hmono
      exact ⟨by omega, by omega⟩
  have hrange' : Decimal.InRange (other.units * less.toNat) := by
    have hbound : 0 < Decimal.bound := by decide
    unfold Decimal.InRange at hrange ⊢
    omega
  obtain ⟨b, hb⟩ := exists_cost_of_nonneg hrange' hround.1
  refine ⟨b, hb, ?_⟩
  have hceil := (cost_eq_ok_iff.1 hb).2
  omega

theorem cost_mono {price : Decimal} {gas less : UInt64} {a : Amount} (h : cost price gas = .ok a)
    (hle : less ≤ gas) : ∃ b, cost price less = .ok b ∧ b.toNat ≤ a.toNat := by
  have hgas : (less.toNat : Int) ≤ gas.toNat := Int.ofNat_le.2 (UInt64.le_iff_toNat_le.1 hle)
  have hless : (0 : Int) ≤ less.toNat := Int.natCast_nonneg _
  apply exists_cost_of_between h
  obtain hprice | hprice := Int.le_total 0 price.units
  · exact .inl ⟨Int.mul_nonneg hprice hless, Int.mul_le_mul_of_nonneg_left hgas hprice⟩
  · exact .inr ⟨Int.mul_le_mul_of_nonpos_left hprice hgas,
      Int.mul_nonpos_of_nonpos_of_nonneg hprice hless⟩

theorem cost_mono_price {price lower : Decimal} {gas : UInt64} {a : Amount}
    (h : cost price gas = .ok a) (hlower : 0 ≤ lower.units) (hle : lower ≤ price) :
    ∃ b, cost lower gas = .ok b ∧ b.toNat ≤ a.toNat := by
  have hgas : (0 : Int) ≤ gas.toNat := Int.natCast_nonneg _
  exact exists_cost_of_between h
    (.inl ⟨Int.mul_nonneg hlower hgas, Int.mul_le_mul_of_nonneg_right hle hgas⟩)

section Resolved

variable {p : Params} {s t : Controller} {resolve : Resolver} {gas less : UInt64} {denom : String}
  {fee : Coin}

def gasPriceVia (p : Params) (s : Controller) (resolve : Resolver) (denom : String) :
    Except Error Price :=
  if denom = p.feeDenom then .ok (s.baseGasPrice p)
  else (resolve (s.baseGasPrice p) denom).mapError NoConversion.error

def requiredFeeVia (p : Params) (s : Controller) (resolve : Resolver) (gas : UInt64)
    (denom : String) : Except Error Coin :=
  if p.enabled then do
    let price ← s.gasPriceVia p resolve denom
    return ⟨denom, ← (cost price.amount gas).mapError .arithmetic⟩
  else .ok (.zero denom)

theorem gasPriceVia_convert (p : Params) (s : Controller) (rates : Rates) (denom : String) :
    s.gasPriceVia p rates.convert denom = s.gasPrice p rates denom := rfl

theorem requiredFeeVia_convert (p : Params) (s : Controller) (rates : Rates) (gas : UInt64)
    (denom : String) :
    s.requiredFeeVia p rates.convert gas denom = s.requiredFee p rates gas denom := rfl

theorem requiredFeeVia_eq_ok_iff : s.requiredFeeVia p resolve gas denom = .ok fee ↔
    fee.denom = denom ∧ if p.enabled then ∃ price, s.gasPriceVia p resolve denom = .ok price ∧
      cost price.amount gas = .ok fee.amount else fee.amount = 0 := by
  obtain ⟨kind, amount⟩ := fee
  unfold requiredFeeVia
  by_cases he : p.enabled
  · simp only [if_pos he, bind_eq_ok_iff, mapError_eq_ok_iff]
    constructor
    · rintro ⟨price, hprice, amount, hcost, hfee⟩
      cases hfee
      exact ⟨rfl, price, hprice, hcost⟩
    · rintro ⟨rfl, price, hprice, hcost⟩
      exact ⟨price, hprice, amount, hcost, rfl⟩
  · rw [if_neg he, if_neg he, Except.ok.injEq, Coin.zero, Coin.mk.injEq, eq_comm, @eq_comm _ 0]

theorem requiredFeeVia_le_of_cost (h : s.requiredFeeVia p resolve gas denom = .ok fee)
    (hcost : ∀ price amount, s.gasPriceVia p resolve denom = .ok price →
      cost price.amount gas = .ok amount →
      ∃ quoted used, t.gasPriceVia p resolve denom = .ok quoted ∧
        cost quoted.amount less = .ok used ∧ used.toNat ≤ amount.toNat) :
    ∃ used, t.requiredFeeVia p resolve less denom = .ok used ∧
      used.amount.toNat ≤ fee.amount.toNat := by
  obtain ⟨-, h⟩ := requiredFeeVia_eq_ok_iff.1 h
  by_cases he : p.enabled
  · rw [if_pos he] at h
    obtain ⟨price, hprice, hamount⟩ := h
    obtain ⟨quoted, used, hquoted, hused, hle⟩ := hcost price fee.amount hprice hamount
    refine ⟨⟨denom, used⟩, requiredFeeVia_eq_ok_iff.2 ⟨rfl, ?_⟩, hle⟩
    rw [if_pos he]
    exact ⟨quoted, hquoted, hused⟩
  · refine ⟨.zero denom, requiredFeeVia_eq_ok_iff.2 ⟨rfl, ?_⟩, Nat.zero_le _⟩
    rw [if_neg he]
    rfl

theorem requiredFeeVia_mono (h : s.requiredFeeVia p resolve gas denom = .ok fee)
    (hle : less ≤ gas) :
    ∃ used, s.requiredFeeVia p resolve less denom = .ok used ∧
      used.amount.toNat ≤ fee.amount.toNat := by
  apply requiredFeeVia_le_of_cost h
  intro price amount hprice hcost
  obtain ⟨used, hused, hmono⟩ := cost_mono hcost hle
  exact ⟨price, used, hprice, hused, hmono⟩

end Resolved

theorem denom_requiredFee {p : Params} {s : Controller} {rates : Rates} {gas : UInt64}
    {denom : String} {fee : Coin} (h : s.requiredFee p rates gas denom = .ok fee) :
    fee.denom = denom := by
  rw [← requiredFeeVia_convert] at h
  exact (requiredFeeVia_eq_ok_iff.1 h).1

theorem requiredFee_mono {p : Params} {s : Controller} {rates : Rates} {gas less : UInt64}
    {denom : String} {fee : Coin} (h : s.requiredFee p rates gas denom = .ok fee)
    (hle : less ≤ gas) : ∃ used, s.requiredFee p rates less denom = .ok used ∧
      used.amount.toNat ≤ fee.amount.toNat := by
  rw [← requiredFeeVia_convert] at h
  exact requiredFeeVia_mono h hle

theorem requiredFee_feeDenom {p : Params} (he : p.enabled) (s : Controller) (rates : Rates)
    (gas : UInt64) : s.requiredFee p rates gas p.feeDenom =
      ((cost s.baseFee gas).mapError .arithmetic).map (Coin.mk p.feeDenom) := by
  rw [requiredFee, if_pos he, gasPrice, if_pos rfl]
  change (cost s.baseFee gas).mapError Error.arithmetic >>= _ = _
  cases cost s.baseFee gas with
  | ok amount => rfl
  | error fault => rfl

theorem exists_requiredFee_feeDenom {p : Params} {s : Controller} {gas : UInt64}
    (hbase : 0 ≤ s.baseFee.units)
    (hlt : s.baseFee.units * gas.toNat < Decimal.bound) (rates : Rates) :
    ∃ fee, s.requiredFee p rates gas p.feeDenom = .ok fee := by
  by_cases he : p.enabled
  · rw [requiredFee_feeDenom he]
    cases hcost : cost s.baseFee gas with
    | ok amount => exact ⟨_, rfl⟩
    | error fault =>
      obtain ⟨-, hbound⟩ := (cost_eq_error_iff hbase).1 hcost
      exact absurd hlt (Int.not_lt.2 hbound)
  · rw [requiredFee, if_neg he]
    exact ⟨_, rfl⟩

theorem denom_offeredFee {tx : Tx} {denom : String} {fee : Coin}
    (hdenom : ∀ coin ∈ tx.fee, coin.denom = denom) (h : tx.offeredFee denom = .ok fee) :
    fee.denom = denom := by
  unfold Tx.offeredFee at h
  split at h
  · cases h
    rfl
  · next offered hfee =>
    cases h
    rw [hfee] at hdenom
    exact hdenom fee List.mem_cons_self
  · cases h

theorem not_isFatal_of_checkFee {p : Params} {s : Controller} {rates : Rates} {tx : Tx}
    {context : Context} (hrequired : ∀ fee, tx.offeredFee p.feeDenom = .ok fee →
      ∃ required, s.requiredFee p rates tx.gasLimit fee.denom = .ok required)
    {e : Error} (he : s.checkFee p rates tx context = .error e) : ¬ e.isFatal := by
  unfold checkFee at he
  split at he
  · cases he
    exact Bool.false_ne_true
  · obtain hoffered | ⟨fee, hoffered, he⟩ := bind_eq_error_iff.1 he
    · unfold Tx.offeredFee at hoffered
      split at hoffered
      · cases hoffered
      · cases hoffered
      · cases hoffered
        exact Bool.false_ne_true
    · obtain ⟨required, hok⟩ := hrequired fee hoffered
      obtain hfailed | ⟨required', -, he⟩ := bind_eq_error_iff.1 he
      · cases hok.symm.trans hfailed
      · split at he
        · cases he
        · cases he
          exact Bool.false_ne_true

theorem checkFee_eq_error_iff {p : Params} {s : Controller} {rates : Rates} {tx : Tx}
    {context : Context} {fee : Coin} (he : p.enabled) (hbase : 0 ≤ s.baseFee.units)
    (hfee : tx.fee = [fee]) (hdenom : fee.denom = p.feeDenom) {e : Error} (hfatal : e.isFatal) :
    s.checkFee p rates tx context = .error e ↔
      e = .arithmetic .overflow ∧ Decimal.bound ≤ s.baseFee.units * tx.gasLimit.toNat := by
  have hoffered : tx.offeredFee p.feeDenom = .ok fee := by rw [Tx.offeredFee, hfee]
  unfold checkFee
  split
  case isTrue hlimit =>
    rw [hlimit.1, UInt64.toNat_zero]
    constructor
    · rintro ⟨⟩
      cases hfatal
    · rintro ⟨-, hbound⟩
      exact absurd hbound (by rw [Int.natCast_zero, Int.mul_zero]; decide)
  case isFalse =>
    rw [hoffered]
    change (s.requiredFee p rates tx.gasLimit fee.denom >>= _) = _ ↔ _
    rw [hdenom, requiredFee_feeDenom he]
    cases hcost : cost s.baseFee tx.gasLimit with
    | error fault =>
      obtain ⟨rfl, hbound⟩ := (cost_eq_error_iff hbase).1 hcost
      change Except.error _ = _ ↔ _
      rw [Except.error.injEq, and_iff_left hbound, eq_comm]
    | ok amount =>
      have hbound : ¬ Decimal.bound ≤ s.baseFee.units * tx.gasLimit.toNat := by
        intro hbound
        rw [(cost_eq_error_iff hbase).2 ⟨rfl, hbound⟩] at hcost
        cases hcost
      change (pure (⟨p.feeDenom, amount⟩ : Coin) >>= _) = _ ↔ _
      rw [pure_bind]
      constructor
      · cases fee.sub ⟨p.feeDenom, amount⟩ with
        | ok tip => exact nofun
        | error _ =>
          rintro ⟨⟩
          cases hfatal
      · exact fun h => absurd h.2 hbound

end Controller

end GasMarket
