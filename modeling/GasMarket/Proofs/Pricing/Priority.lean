import GasMarket.Proofs.Decimal.Fraction
import GasMarket.Proofs.Ledger.Settleable
import Mathlib.Algebra.Order.Floor.Semifield
import Mathlib.Data.Rat.Floor

namespace GasMarket

namespace Controller

variable {p : Params} {s : Controller} {resolve : Resolver} {gas : UInt64} {denom : String}

def checkFeeVia (p : Params) (s : Controller) (resolve : Resolver) (tx : Tx) (context : Context) :
    Except Error Admission :=
  if tx.gasLimit = 0 ∧ context.RequiresGasLimit then .error .invalidGasLimit
  else do
    let fee ← tx.offeredFee p.feeDenom
    let required ← s.requiredFeeVia p resolve tx.gasLimit fee.denom
    match fee.sub required with
    | .ok tip => return ⟨required, tip⟩
    | .error _ => throw (.insufficientFee required fee)

theorem checkFeeVia_convert (p : Params) (s : Controller) (rates : Rates) (tx : Tx)
    (context : Context) :
    s.checkFeeVia p rates.convert tx context = s.checkFee p rates tx context := rfl

theorem price_pos_of_cost {price : Decimal} {amount : Amount} (h : cost price gas = .ok amount)
    (hamount : 0 < amount.toNat) : 0 < price.units := by
  by_contra hprice
  have hproduct : price.units * gas.toNat ≤ 0 :=
    Int.mul_nonpos_of_nonpos_of_nonneg (Int.not_lt.1 hprice) (Int.natCast_nonneg _)
  have hround := Rounding.ceil_le_ceil (d := Decimal.scale) (by decide) hproduct
  rw [Rounding.zero_divide, ← (cost_eq_ok_iff.1 h).2] at hround
  omega

theorem price_pos_of_requiredFeeVia {price : Price} {required : Coin}
    (h : s.requiredFeeVia p resolve gas denom = .ok required)
    (hprice : s.gasPriceVia p resolve denom = .ok price) (hrequired : 0 < required.amount.toNat) :
    0 < price.amount.units := by
  obtain ⟨-, h⟩ := requiredFeeVia_eq_ok_iff.1 h
  split at h
  · obtain ⟨quoted, hquoted, hcost⟩ := h
    rw [hprice] at hquoted
    cases hquoted
    exact price_pos_of_cost hcost hrequired
  · rw [h] at hrequired
    exact absurd hrequired (Nat.lt_irrefl 0)

theorem checkFeeVia_eq_ok {tx : Tx} {context : Context} {fee : Coin} {admission : Admission}
    (h : s.checkFeeVia p resolve tx context = .ok admission)
    (hfee : tx.offeredFee p.feeDenom = .ok fee) :
    s.requiredFeeVia p resolve tx.gasLimit fee.denom = .ok admission.required ∧
      fee.sub admission.required = .ok admission.tip := by
  unfold checkFeeVia at h
  split at h
  · cases h
  · simp only [bind_eq_ok_iff] at h
    obtain ⟨offered, hoffered, required, hrequired, h⟩ := h
    rw [hfee] at hoffered
    cases hoffered
    cases htip : fee.sub required with
    | ok tip =>
      rw [htip] at h
      cases h
      exact ⟨hrequired, htip⟩
    | error e =>
      rw [htip] at h
      cases h

end Controller

namespace Coin

def perGas (fee : Coin) (gasLimit : UInt64) : ℚ := fee.amount.toNat / gasLimit.toNat

def multiple (fee : Coin) (price : Decimal) (gasLimit : UInt64) : ℚ :=
  fee.amount.toNat / (price.toRat * gasLimit.toNat)

theorem multiple_mul_price (fee : Coin) {price : Decimal} (gasLimit : UInt64)
    (h : 0 < price.units) : fee.multiple price gasLimit * price.toRat = fee.perGas gasLimit := by
  have hprice : price.toRat ≠ 0 := (Decimal.toRat_pos h).ne'
  unfold multiple perGas
  rw [mul_comm price.toRat, ← div_div, div_mul_cancel₀ _ hprice]

theorem multiple_nonneg (fee : Coin) {price : Decimal} (gasLimit : UInt64) (h : 0 < price.units) :
    0 ≤ fee.multiple price gasLimit :=
  div_nonneg (Nat.cast_nonneg _) (mul_nonneg (Decimal.toRat_pos h).le (Nat.cast_nonneg _))

theorem multiple_le_multiple_iff {fee fee' : Coin} {price price' gasLimit gasLimit' : UInt64}
    (h : 0 < price.toNat * gasLimit.toNat) (h' : 0 < price'.toNat * gasLimit'.toNat) :
    fee.multiple (.ofUInt64 price) gasLimit ≤ fee'.multiple (.ofUInt64 price') gasLimit' ↔
      fee.amount.toNat * (price'.toNat * gasLimit'.toNat) ≤
        fee'.amount.toNat * (price.toNat * gasLimit.toNat) := by
  unfold multiple
  rw [Decimal.toRat_ofUInt64, Decimal.toRat_ofUInt64, ← Nat.cast_mul, ← Nat.cast_mul,
    div_le_div_iff₀ (Nat.cast_pos.2 h) (Nat.cast_pos.2 h')]
  norm_cast

theorem priority_eq_floor (fee : Coin) (gasLimit : UInt64) :
    fee.priority gasLimit = min ⌊fee.perGas gasLimit⌋₊ maxPriority := by
  unfold priority perGas
  rw [Nat.floor_div_eq_div]
  split
  case isTrue hgas =>
    rw [hgas, UInt64.toNat_zero, Nat.div_zero]
    rfl
  case isFalse => rfl

theorem priority_le_priority {fee fee' : Coin} {gasLimit gasLimit' : UInt64}
    (h : fee.perGas gasLimit ≤ fee'.perGas gasLimit') :
    fee.priority gasLimit ≤ fee'.priority gasLimit' := by
  rw [priority_eq_floor, priority_eq_floor]
  exact min_le_min_right _ (Nat.floor_mono h)

end Coin

theorem Tx.priority_of_offeredFee {tx : Tx} {feeDenom : String} {fee : Coin}
    (h : tx.offeredFee feeDenom = .ok fee) : tx.priority feeDenom = fee.priority tx.gasLimit := by
  unfold offeredFee at h
  unfold priority
  split at h
  case h_1 hnone =>
    cases h
    rw [hnone]
  case h_2 hone =>
    cases h
    rw [hone]
  case h_3 => cases h

namespace Market

variable {m : Market} {resolve : Resolver}

structure Admits (m : Market) (resolve : Resolver) (tx : Tx) (fee : Coin) (price : Decimal) :
    Prop where
  offered : tx.offeredFee m.params.feeDenom = .ok fee
  gasLimit_pos : 0 < tx.gasLimit
  admitted : ∃ context admission, m.state.checkFeeVia m.params resolve tx context = .ok admission ∧
    0 < admission.required.amount.toNat
  quoted : ∃ quoted, m.state.gasPriceVia m.params resolve fee.denom = .ok quoted ∧
    quoted.amount = price

theorem admits_of_checkFee {tx : Tx} {fee : Coin} (context : Context) (admission : Admission)
    (quoted : Price) (hfee : tx.offeredFee m.params.feeDenom = .ok fee) (hgas : 0 < tx.gasLimit)
    (hchecked : m.checkFee tx context = .ok admission)
    (hrequired : 0 < admission.required.amount.toNat)
    (hquoted : m.gasPrice fee.denom = .ok quoted) :
    m.Admits m.rates.convert tx fee quoted.amount where
  offered := hfee
  gasLimit_pos := hgas
  admitted := ⟨context, admission, (Controller.checkFeeVia_convert ..).trans hchecked, hrequired⟩
  quoted := ⟨quoted, (Controller.gasPriceVia_convert ..).trans hquoted, rfl⟩

theorem Admits.price_pos {tx : Tx} {fee : Coin} {price : Decimal}
    (h : m.Admits resolve tx fee price) : 0 < price.units := by
  obtain ⟨context, admission, hchecked, hrequired⟩ := h.admitted
  obtain ⟨quoted, hquoted, rfl⟩ := h.quoted
  exact Controller.price_pos_of_requiredFeeVia (Controller.checkFeeVia_eq_ok hchecked h.offered).1
    hquoted
    hrequired

theorem Admits.priority_eq {tx : Tx} {fee : Coin} {price : Decimal}
    (h : m.Admits resolve tx fee price) :
    m.priority tx = fee.priority tx.gasLimit := Tx.priority_of_offeredFee h.offered

theorem Admits.price_unique {tx tx' : Tx} {fee fee' : Coin} {price price' : Decimal}
    (h : m.Admits resolve tx fee price) (h' : m.Admits resolve tx' fee' price')
    (hdenom : fee.denom = fee'.denom) : price = price' := by
  obtain ⟨quoted, hquoted, rfl⟩ := h.quoted
  obtain ⟨quoted', hquoted', rfl⟩ := h'.quoted
  rw [hdenom, hquoted'] at hquoted
  cases hquoted
  rfl

variable {a b : Tx} {feeA feeB : Coin} {priceA priceB : Decimal}

/-- Priority follows the fee for a unit of gas whatever the denominations, and multiples of the
price of gas where gas costs no less in the denomination of the higher one. -/
theorem priority_le_of_multiple_le (ha : m.Admits resolve a feeA priceA)
    (hb : m.Admits resolve b feeB priceB) :
    (feeB.perGas b.gasLimit ≤ feeA.perGas a.gasLimit → m.priority b ≤ m.priority a) ∧
      (feeA.denom = feeB.denom ∨ priceB ≤ priceA →
        feeB.multiple priceB b.gasLimit ≤ feeA.multiple priceA a.gasLimit →
        m.priority b ≤ m.priority a) := by
  have hperGas (h : feeB.perGas b.gasLimit ≤ feeA.perGas a.gasLimit) :
      m.priority b ≤ m.priority a := by
    rw [ha.priority_eq, hb.priority_eq]
    exact Coin.priority_le_priority h
  refine ⟨hperGas, fun hquoted hmultiple => hperGas ?_⟩
  have hprice : priceB.toRat ≤ priceA.toRat := by
    cases hquoted with
    | inl hdenom => rw [ha.price_unique hb hdenom]
    | inr hle => exact Decimal.toRat_le_toRat hle
  calc feeB.perGas b.gasLimit
      = feeB.multiple priceB b.gasLimit * priceB.toRat :=
        (feeB.multiple_mul_price b.gasLimit hb.price_pos).symm
    _ ≤ feeB.multiple priceB b.gasLimit * priceA.toRat :=
        mul_le_mul_of_nonneg_left hprice (feeB.multiple_nonneg b.gasLimit hb.price_pos)
    _ ≤ feeA.multiple priceA a.gasLimit * priceA.toRat :=
        mul_le_mul_of_nonneg_right hmultiple (Decimal.toRat_pos ha.price_pos).le
    _ = feeA.perGas a.gasLimit := feeA.multiple_mul_price a.gasLimit ha.price_pos

def quotingAtom : Step :=
  .host (.rates (Table.empty.insert ("stake", "atom") (.ofAtoms 1000000000000000)))

theorem priority_le_of_multiple_le_stakeOverAtom : ∃ start, new .default = .ok start ∧
    let m := start.after [quotingAtom]
    let a := Tx.new ⟨0xaa⟩ ⟨"stake", 3000000000⟩ 1
    let b := Tx.new ⟨0xaa⟩ ⟨"atom", 4000000⟩ 2
    m.Admits m.rates.convert a ⟨"stake", 3000000000⟩ (.ofUInt64 1000000000) ∧
      m.Admits m.rates.convert b ⟨"atom", 4000000⟩ (.ofUInt64 1000000) ∧
      m.priority b ≤ m.priority a := by
  refine ⟨_, rfl, ?_⟩
  intro m a b
  have ha : m.Admits m.rates.convert a ⟨"stake", 3000000000⟩ (.ofUInt64 1000000000) :=
    admits_of_checkFee ⟨1, false⟩ ⟨⟨"stake", 1000000000⟩, ⟨"stake", 2000000000⟩⟩
      ⟨"stake", .ofUInt64 1000000000⟩ rfl (by decide) (toOption_eq_some_iff.1 (by decide +kernel))
      (by decide) (toOption_eq_some_iff.1 (by decide +kernel))
  have hb : m.Admits m.rates.convert b ⟨"atom", 4000000⟩ (.ofUInt64 1000000) :=
    admits_of_checkFee ⟨1, false⟩ ⟨⟨"atom", 2000000⟩, ⟨"atom", 2000000⟩⟩
      ⟨"atom", .ofUInt64 1000000⟩ rfl (by decide) (toOption_eq_some_iff.1 (by decide +kernel))
      (by decide) (toOption_eq_some_iff.1 (by decide +kernel))
  have hmultiple : Coin.multiple ⟨"atom", 4000000⟩ (.ofUInt64 1000000) b.gasLimit ≤
      Coin.multiple ⟨"stake", 3000000000⟩ (.ofUInt64 1000000000) a.gasLimit :=
    (Coin.multiple_le_multiple_iff (by decide) (by decide)).2 (by decide)
  exact ⟨ha, hb, (priority_le_of_multiple_le ha hb).2 (.inr (by decide)) hmultiple⟩

/-- Twice the price of gas, in the denomination in which gas costs less, has the lower priority. -/
theorem priority_lt_atomUnderStake : ∃ m : Market, m.Reachable ∧ m.params.enabled ∧
    let a := Tx.new ⟨0xaa⟩ ⟨"atom", 2000000⟩ 1
    let b := Tx.new ⟨0xaa⟩ ⟨"stake", 1000000000⟩ 1
    m.Admits m.rates.convert a ⟨"atom", 2000000⟩ (.ofUInt64 1000000) ∧
      m.Admits m.rates.convert b ⟨"stake", 1000000000⟩ (.ofUInt64 1000000000) ∧
      Coin.multiple ⟨"stake", 1000000000⟩ (.ofUInt64 1000000000) b.gasLimit ≤
        Coin.multiple ⟨"atom", 2000000⟩ (.ofUInt64 1000000) a.gasLimit ∧
      m.priority a < m.priority b := by
  refine ⟨_, ⟨.default, _, [quotingAtom], rfl, rfl⟩, by decide +kernel, ?_⟩
  intro a b
  refine ⟨?_, ?_, (Coin.multiple_le_multiple_iff (by decide) (by decide)).2 (by decide), by decide⟩
  · exact admits_of_checkFee ⟨1, false⟩ ⟨⟨"atom", 1000000⟩, ⟨"atom", 1000000⟩⟩
      ⟨"atom", .ofUInt64 1000000⟩ rfl (by decide) (toOption_eq_some_iff.1 (by decide +kernel))
      (by decide) (toOption_eq_some_iff.1 (by decide +kernel))
  · exact admits_of_checkFee ⟨1, false⟩ ⟨⟨"stake", 1000000000⟩, ⟨"stake", 0⟩⟩
      ⟨"stake", .ofUInt64 1000000000⟩ rfl (by decide) (toOption_eq_some_iff.1 (by decide +kernel))
      (by decide) (toOption_eq_some_iff.1 (by decide +kernel))

end Market

end GasMarket
