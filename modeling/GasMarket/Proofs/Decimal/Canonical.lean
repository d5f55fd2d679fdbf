import GasMarket.Proofs.Decimal.Grammar

namespace GasMarket

open Text.Digits

structure Numeral.Canonical (n : Numeral) : Prop where
  fraction : ∃ digits, n.fraction = some digits ∧ digits.length = 18
  whole : n.whole.head? = some '0' → n.whole = ['0']

namespace Decimal

theorem length_fraction (n : Nat) :
    (padded precision (decimal (n % scale))).length = precision := by
  have hpos : 0 < precision := by decide
  rw [length_padded, Nat.max_eq_left (length_decimal_le hpos (mod_scale_lt n))]

def numeral (d : Decimal) : Numeral where
  negative := decide d.IsNegative
  whole := decimal (d.units.natAbs / scale)
  fraction := some (padded precision (decimal (d.units.natAbs % scale)))
  whole_ne_nil := decimal_ne_nil _
  whole_digits := fun _ hc => isDigit_of_mem_decimal hc
  fraction_digits :=
    fun _ hc => isDigit_of_mem_padded (fun _ hdigit => isDigit_of_mem_decimal hdigit) hc
  length_fraction_le := Nat.le_of_eq (length_fraction _)

variable {d : Decimal}

theorem canonical_numeral (d : Decimal) : d.numeral.Canonical where
  fraction := ⟨_, rfl, length_fraction _⟩
  whole h := by
    change (decimal (d.units.natAbs / scale)).head? = _ at h
    by_cases hzero : d.units.natAbs / scale = 0
    · change decimal (d.units.natAbs / scale) = _
      rw [hzero]
      rfl
    · obtain ⟨c, rest, hwhole, hc⟩ := exists_cons_of_ne_zero hzero
      rw [hwhole] at h
      exact absurd (Option.some.inj h) hc

theorem toText_numeral (d : Decimal) : d.numeral.toText = d.toText := by
  simp only [numeral, Numeral.toText, Numeral.unsigned, decide_eq_true_eq]
  rfl

theorem magnitudeOf_numeral (d : Decimal) :
    magnitudeOf d.numeral.whole (d.numeral.fraction.getD []) = d.units.natAbs := by
  change magnitudeOf (decimal (d.units.natAbs / scale))
    (padded precision (decimal (d.units.natAbs % scale))) = _
  rw [magnitudeOf, ofDigitChars_rightpad, length_fraction, Nat.sub_self, Nat.pow_zero, Nat.one_mul,
    ofDigitChars_padded, ofDigitChars_decimal, ofDigitChars_decimal]
  exact Nat.div_add_mod' _ scale

theorem negative_numeral : d.numeral.negative = true ↔ d.units < 0 := decide_eq_true_iff

theorem value_numeral (d : Decimal) : d.numeral.value = d.toRat := by
  rw [toRat, eq_div_iff scale_pos.ne', Numeral.value]
  split
  case isTrue h =>
    have hunits : -(d.units.natAbs : Int) = d.units := by
      have hneg := negative_numeral.1 h
      omega
    rw [neg_mul, Numeral.magnitude_mul_scale, magnitudeOf_numeral, ← Int.cast_natCast,
      ← Int.cast_neg, hunits]
  case isFalse h =>
    have hunits : (d.units.natAbs : Int) = d.units := by
      have hnonneg := mt negative_numeral.2 h
      omega
    rw [Numeral.magnitude_mul_scale, magnitudeOf_numeral, ← Int.cast_natCast, hunits]

theorem fits_numeral_iff : d.numeral.Fits ↔ -bound < d.units := by
  have hrange := d.inRange
  unfold InRange at hrange
  rw [Numeral.fits_iff, magnitudeOf_numeral]
  omega

theorem parse_toText (h : -bound < d.units) : parse d.toText = .ok d := by
  obtain ⟨d', hd', hvalue⟩ := d.numeral.parse_of_fits (fits_numeral_iff.2 h)
  rw [value_numeral] at hvalue
  rw [← toText_numeral, hd', toRat_injective hvalue]

theorem parse_toText_least (h : d.units = -bound) : parse d.toText = .error .outOfRange := by
  have hfits : ¬ d.numeral.Fits := by
    rw [fits_numeral_iff, h]
    exact Int.lt_irrefl _
  rw [← toText_numeral, d.numeral.parse_of_not_fits hfits]

theorem abs_toRat_mul_scale (d : Decimal) : |d.toRat| * scale = |d.units| := by
  rw [Int.cast_abs, ← toRat_mul_scale, abs_mul, abs_of_pos scale_pos]

theorem lt_units_of_parse {text : String} (h : parse text = .ok d) : -bound < d.units := by
  obtain ⟨n, -, hfits, d', hd', hvalue⟩ | ⟨e, -, he⟩ := parse_cases text
  · cases h.symm.trans hd'
    rw [Numeral.Fits, ← hvalue, abs_toRat_mul_scale] at hfits
    have hle : |d.units| ≤ bound - 1 := by exact_mod_cast hfits
    have hneg := neg_le_abs d.units
    omega
  · cases h.symm.trans he

end Decimal

end GasMarket
