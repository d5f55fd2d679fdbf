import GasMarket.Proofs.Pricing.Admission

namespace GasMarket

open Decimal

namespace Controller

variable {p : Params} {s : Controller} {resolve : Resolver} {rates : Rates} {gas more : UInt64}
  {denom : String}

section Parts

variable (hfits : gas.toNat + more.toNat < UInt64.size)

include hfits in
theorem exactCost_add (units : Int) :
    exactCost units (gas + more) = exactCost units gas + exactCost units more := by
  unfold exactCost
  rw [toNat_add_of_lt hfits, Int.natCast_add, Int.mul_add, Int.cast_add, add_div]

include hfits in
theorem cost_of_parts {price : Decimal} {whole part rest : Amount}
    (hwhole : cost price (gas + more) = .ok whole) (hpart : cost price gas = .ok part)
    (hrest : cost price more = .ok rest) : whole.toNat ≤ part.toNat + rest.toNat ∧
      part.toNat + rest.toNat ≤ whole.toNat + 1 := by
  have hwhole := (cost_eq_ok_iff_ceil.1 hwhole).2
  have hpart := (cost_eq_ok_iff_ceil.1 hpart).2
  have hrest := (cost_eq_ok_iff_ceil.1 hrest).2
  rw [exactCost_add hfits] at hwhole
  have hsub := Int.ceil_add_le (exactCost price.units gas) (exactCost price.units more)
  have hsuper := Int.ceil_add_ceil_le (exactCost price.units gas) (exactCost price.units more)
  omega

include hfits in
theorem requiredFeeVia_of_parts {whole : Coin}
    (h : s.requiredFeeVia p resolve (gas + more) denom = .ok whole) :
    ∃ part rest, s.requiredFeeVia p resolve gas denom = .ok part ∧
      s.requiredFeeVia p resolve more denom = .ok rest ∧
      whole.amount.toNat ≤ part.amount.toNat + rest.amount.toNat ∧
      part.amount.toNat + rest.amount.toNat ≤ whole.amount.toNat + 1 := by
  have hsum : (gas + more).toNat = gas.toNat + more.toNat := toNat_add_of_lt hfits
  have hgas : gas ≤ gas + more := UInt64.le_iff_toNat_le.2 (by omega)
  have hmore : more ≤ gas + more := UInt64.le_iff_toNat_le.2 (by omega)
  obtain ⟨part, hpart, -⟩ := requiredFeeVia_mono h hgas
  obtain ⟨rest, hrest, -⟩ := requiredFeeVia_mono h hmore
  refine ⟨part, rest, hpart, hrest, ?_⟩
  obtain ⟨-, hpart⟩ := requiredFeeVia_eq_ok_iff.1 hpart
  obtain ⟨-, hrest⟩ := requiredFeeVia_eq_ok_iff.1 hrest
  obtain ⟨-, h⟩ := requiredFeeVia_eq_ok_iff.1 h
  by_cases he : p.enabled
  · rw [if_pos he] at h hpart hrest
    obtain ⟨price, hprice, hwhole⟩ := h
    obtain ⟨price₁, hprice₁, hpart⟩ := hpart
    obtain ⟨price₂, hprice₂, hrest⟩ := hrest
    cases hprice.symm.trans hprice₁
    cases hprice.symm.trans hprice₂
    exact cost_of_parts hfits hwhole hpart hrest
  · rw [if_neg he] at h hpart hrest
    rw [h, hpart, hrest]
    exact ⟨by decide, by decide⟩

end Parts

section BaseFee

variable {lower : Decimal}
  (hrates : denom ≠ p.feeDenom → ∀ rate, rates.get? (p.feeDenom, denom) = some rate →
    0 ≤ rate.units)
  (hlower : 0 ≤ lower.units) (hle : lower ≤ s.baseFee)

include hrates hlower hle in
theorem exists_gasPrice_of_le {price : Price} (h : s.gasPrice p rates denom = .ok price) :
    ∃ quoted, { s with baseFee := lower }.gasPrice p rates denom = .ok quoted ∧
      0 ≤ quoted.amount.units ∧ quoted.amount ≤ price.amount := by
  obtain ⟨-, hprice⟩ := gasPrice_eq_ok_iff.1 h
  by_cases hdenom : denom = p.feeDenom
  · rw [Prices, if_pos hdenom] at hprice
    refine ⟨⟨denom, lower⟩, gasPrice_eq_ok_iff.2 ⟨rfl, ?_⟩, hlower, ?_⟩
    · rw [Prices, if_pos hdenom]
    · rw [hprice]
      exact hle
  · rw [Prices, if_neg hdenom] at hprice
    obtain ⟨rate, hrate, hproduct⟩ := hprice
    obtain ⟨amount, hamount, hnonneg, hmono⟩ :=
      exists_mul_of_le hproduct (hrates hdenom rate hrate) hlower hle
    refine ⟨⟨denom, amount⟩, gasPrice_eq_ok_iff.2 ⟨rfl, ?_⟩, hnonneg, hmono⟩
    rw [Prices, if_neg hdenom]
    exact ⟨rate, hrate, hamount⟩

include hrates hlower hle in
theorem requiredFee_mono_baseFee {fee : Coin} (h : s.requiredFee p rates gas denom = .ok fee) :
    ∃ used, { s with baseFee := lower }.requiredFee p rates gas denom = .ok used ∧
      used.amount.toNat ≤ fee.amount.toNat := by
  simp only [← requiredFeeVia_convert] at h ⊢
  apply requiredFeeVia_le_of_cost h
  intro price amount hprice hcost
  obtain ⟨quoted, hquoted, hnonneg, hmono⟩ := exists_gasPrice_of_le hrates hlower hle hprice
  obtain ⟨used, hused, hfell⟩ := cost_mono_price hcost hnonneg hmono
  exact ⟨quoted, used, hquoted, hused, hfell⟩

end BaseFee

/-- At prices of either sign, and however denominations are resolved, less gas can be paid for
wherever more can be and requires no more, and the two parts of some gas require what all of
it does or one coin more.  Where a rate of conversion is not negative, a lower base fee
requires no more either. -/
theorem requiredFee_monotone_subadditive (p : Params) (s : Controller) (denom : String) :
    (∀ (resolve : Resolver) (gas less : UInt64) (fee : Coin), less ≤ gas →
      s.requiredFeeVia p resolve gas denom = .ok fee →
      ∃ used, s.requiredFeeVia p resolve less denom = .ok used ∧
        used.amount.toNat ≤ fee.amount.toNat) ∧
    (∀ (rates : Rates) (gas : UInt64) (lower : Decimal) (fee : Coin),
      (denom ≠ p.feeDenom → ∀ rate, rates.get? (p.feeDenom, denom) = some rate → 0 ≤ rate.units) →
      0 ≤ lower.units → lower ≤ s.baseFee → s.requiredFee p rates gas denom = .ok fee →
      ∃ used, { s with baseFee := lower }.requiredFee p rates gas denom = .ok used ∧
        used.amount.toNat ≤ fee.amount.toNat) ∧
    ∀ (resolve : Resolver) (gas more : UInt64) (whole : Coin),
      gas.toNat + more.toNat < UInt64.size →
      s.requiredFeeVia p resolve (gas + more) denom = .ok whole →
      ∃ part rest, s.requiredFeeVia p resolve gas denom = .ok part ∧
        s.requiredFeeVia p resolve more denom = .ok rest ∧
        whole.amount.toNat ≤ part.amount.toNat + rest.amount.toNat ∧
        part.amount.toNat + rest.amount.toNat ≤ whole.amount.toNat + 1 := by
  refine ⟨?_, ?_, ?_⟩
  · intro resolve gas less fee hless h
    exact requiredFeeVia_mono h hless
  · intro rates gas lower fee hrates hlower hle h
    exact requiredFee_mono_baseFee hrates hlower hle h
  · intro resolve gas more whole hfits h
    exact requiredFeeVia_of_parts hfits h

theorem requiredFee_monotone_subadditive_oneAndAHalf :
    let p : Params := { Params.eip1559 with minBaseFee := .ofAtoms 1500000000000000000 }
    let s : Controller := new p
    let rates : Rates :=
      (Table.empty.insert ("stake", "atom") ⟨-100000000000000000, by decide⟩).insert
        ("stake", "usd") (.ofAtoms 333333333333333333)
    s.requiredFee p rates 6 "atom" = .ok ⟨"atom", 0⟩ ∧
      (∃ used, s.requiredFee p rates 5 "atom" = .ok used ∧ used.amount.toNat ≤ 0) ∧
    s.requiredFee p rates 3 "usd" = .ok ⟨"usd", 2⟩ ∧
      (∃ used, { s with baseFee := .one }.requiredFee p rates 3 "usd" = .ok used ∧
        used.amount.toNat ≤ 2) ∧
    s.requiredFee p rates (1 + 1) "stake" = .ok ⟨"stake", 3⟩ ∧
      ∃ part rest, s.requiredFee p rates 1 "stake" = .ok part ∧
        s.requiredFee p rates 1 "stake" = .ok rest ∧
        3 ≤ part.amount.toNat + rest.amount.toNat ∧
        part.amount.toNat + rest.amount.toNat ≤ 3 + 1 := by
  intro p s rates
  obtain ⟨hless, -, -⟩ := requiredFee_monotone_subadditive p s "atom"
  obtain ⟨-, hlower, -⟩ := requiredFee_monotone_subadditive p s "usd"
  obtain ⟨-, -, hparts⟩ := requiredFee_monotone_subadditive p s "stake"
  have hatom : s.requiredFee p rates 6 "atom" = .ok ⟨"atom", 0⟩ :=
    toOption_eq_some_iff.1 (by decide +kernel)
  have husd : s.requiredFee p rates 3 "usd" = .ok ⟨"usd", 2⟩ :=
    toOption_eq_some_iff.1 (by decide +kernel)
  have hstake : s.requiredFee p rates (1 + 1) "stake" = .ok ⟨"stake", 3⟩ :=
    toOption_eq_some_iff.1 (by decide +kernel)
  have hrate : rates.get? ("stake", "usd") = some (.ofAtoms 333333333333333333) := by decide +kernel
  refine ⟨hatom, hless rates.convert 6 5 _ (by decide) hatom, husd, ?_, hstake,
    hparts rates.convert 1 1 _ (by decide) hstake⟩
  refine hlower rates 3 .one _ ?_ (by decide) (by decide) husd
  rintro - rate hrate'
  cases hrate.symm.trans hrate'
  decide

end Controller

end GasMarket
