import GasMarket.Proofs.Decimal.Fraction
import GasMarket.Proofs.Decimal.Text
import Mathlib.Tactic.FieldSimp
import Mathlib.Tactic.Ring

namespace GasMarket

open Decimal Text.Digits

/-- Digits, perhaps after a minus, perhaps before a point with up to eighteen digits behind it. -/
structure Numeral where
  negative : Bool
  whole : List Char
  fraction : Option (List Char)
  whole_ne_nil : whole ≠ []
  whole_digits : ∀ c ∈ whole, c.isDigit
  fraction_digits : ∀ c ∈ fraction.getD [], c.isDigit
  length_fraction_le : (fraction.getD []).length ≤ 18

namespace Numeral

def unsigned (n : Numeral) : List Char :=
  match n.fraction with
  | none => n.whole
  | some digits => n.whole ++ '.' :: digits

def toText (n : Numeral) : String :=
  String.ofList (if n.negative then '-' :: n.unsigned else n.unsigned)

def magnitude (n : Numeral) : ℚ :=
  Nat.ofDigitChars 10 n.whole 0 +
    Nat.ofDigitChars 10 (n.fraction.getD []) 0 / 10 ^ (n.fraction.getD []).length

def value (n : Numeral) : ℚ := if n.negative then -n.magnitude else n.magnitude

/-- In units, the value is at most the greatest decimal in magnitude. -/
def Fits (n : Numeral) : Prop := |n.value| * scale ≤ bound - 1

end Numeral

namespace Decimal

def unsignedChars : List Char → List Char
  | '-' :: unsigned => unsigned
  | unsigned => unsigned

def LacksWhole (unsigned : List Char) : Prop :=
  unsigned = [] ∨ ∃ fraction, unsigned = '.' :: fraction

def HasOther (unsigned : List Char) : Prop :=
  ∃ before c after, unsigned = before ++ c :: after ∧ ¬ c.isDigit ∧ (c = '.' → '.' ∈ before)

def HasLongFraction (unsigned : List Char) : Prop :=
  ∃ whole fraction, unsigned = whole ++ '.' :: fraction ∧ '.' ∉ whole ∧ 18 < fraction.length

/-- The complaints by precedence. -/
inductive Refuses (text : String) : MalformedDecimal → Prop
  | empty (h : LacksWhole (unsignedChars text.toList)) : Refuses text .empty
  | nonDigit (hwhole : ¬ LacksWhole (unsignedChars text.toList))
      (h : HasOther (unsignedChars text.toList)) : Refuses text .nonDigit
  | tooPrecise (hwhole : ¬ LacksWhole (unsignedChars text.toList))
      (hdigits : ¬ HasOther (unsignedChars text.toList))
      (h : HasLongFraction (unsignedChars text.toList)) : Refuses text .tooPrecise
  | outOfRange (n : Numeral) (htext : n.toText = text) (h : ¬ n.Fits) : Refuses text .outOfRange

section Parts

variable {unsigned whole fraction : List Char}

theorem parts_cases (unsigned : List Char) : ('.' ∉ unsigned ∧ parts unsigned = (unsigned, [])) ∨
    ∃ whole fraction, unsigned = whole ++ '.' :: fraction ∧ '.' ∉ whole ∧
      parts unsigned = (whole, fraction) := by
  by_cases h : '.' ∈ unsigned
  · obtain ⟨whole, fraction, hsplit, hwhole⟩ := List.eq_append_cons_of_mem h
    refine .inr ⟨whole, fraction, hsplit, hwhole, ?_⟩
    rw [hsplit, parts_of_point hwhole]
  · exact .inl ⟨h, parts_of_no_point h⟩

theorem lacksWhole_iff (hparts : parts unsigned = (whole, fraction)) :
    LacksWhole unsigned ↔ whole = [] := by
  unfold LacksWhole
  constructor
  · rintro (rfl | ⟨rest, rfl⟩)
    · cases hparts
      rfl
    · rw [← List.nil_append ('.' :: rest), parts_of_point List.not_mem_nil] at hparts
      exact (congrArg Prod.fst hparts).symm
  · rintro rfl
    obtain ⟨-, hnone⟩ | ⟨whole, rest, hsplit, -, hsome⟩ := parts_cases unsigned
    · exact .inl (congrArg Prod.fst (hnone.symm.trans hparts))
    · obtain rfl : whole = [] := congrArg Prod.fst (hsome.symm.trans hparts)
      exact .inr ⟨rest, hsplit⟩

theorem exists_other {digits : List Char} (h : ¬ ∀ c ∈ digits, c.isDigit) :
    ∃ before c after, digits = before ++ c :: after ∧ ¬ c.isDigit := by
  simp only [not_forall] at h
  obtain ⟨c, hmem, hc⟩ := h
  obtain ⟨before, after, hsplit⟩ := List.append_of_mem hmem
  exact ⟨before, c, after, hsplit, hc⟩

theorem hasOther_of_no_point (hpoint : '.' ∉ unsigned) :
    HasOther unsigned ↔ ¬ ∀ c ∈ unsigned, c.isDigit := by
  constructor
  · rintro ⟨before, c, after, rfl, hc, -⟩ hdigits
    exact hc (hdigits c (List.mem_append_right _ List.mem_cons_self))
  · intro h
    obtain ⟨before, c, after, rfl, hc⟩ := exists_other h
    refine ⟨before, c, after, rfl, hc, ?_⟩
    rintro rfl
    exact absurd (List.mem_append_right _ List.mem_cons_self) hpoint

theorem hasOther_of_point (hpoint : '.' ∉ whole) :
    HasOther (whole ++ '.' :: fraction) ↔ ¬ ∀ c ∈ whole ++ fraction, c.isDigit := by
  constructor
  · rintro ⟨before, c, after, hsplit, hc, hbefore⟩ hdigits
    obtain ⟨hwhole, hfraction⟩ := List.forall_mem_append.1 hdigits
    have hmem : c ∈ whole ++ '.' :: fraction := hsplit ▸ List.mem_append_right _ List.mem_cons_self
    -- only the point itself is left, and there would be two of them
    obtain rfl : c = '.' := by
      obtain hin | hin := List.mem_append.1 hmem
      · exact absurd (hwhole c hin) hc
      · obtain rfl | hin := List.mem_cons.1 hin
        · rfl
        · exact absurd (hfraction c hin) hc
    have hcount := congrArg (List.count '.') hsplit
    have htwo := List.count_pos_iff.2 (hbefore rfl)
    rw [List.count_append, List.count_append, List.count_cons_self, List.count_cons_self,
      List.count_eq_zero_of_not_mem hpoint,
      List.count_eq_zero_of_not_mem (point_not_mem hfraction)] at hcount
    omega
  · intro h
    obtain hwhole | hfraction := not_and_or.1 (mt List.forall_mem_append.2 h)
    · obtain ⟨before, c, after, rfl, hc⟩ := exists_other hwhole
      refine ⟨before, c, after ++ '.' :: fraction,
        by rw [List.append_assoc, List.cons_append], hc, ?_⟩
      rintro rfl
      exact absurd (List.mem_append_right _ List.mem_cons_self) hpoint
    · obtain ⟨before, c, after, rfl, hc⟩ := exists_other hfraction
      exact ⟨whole ++ '.' :: before, c, after, by rw [List.append_assoc, List.cons_append], hc,
        fun _ => List.mem_append_right _ List.mem_cons_self⟩

theorem hasOther_iff (hparts : parts unsigned = (whole, fraction)) :
    HasOther unsigned ↔ ¬ ∀ c ∈ whole ++ fraction, c.isDigit := by
  obtain ⟨hpoint, hnone⟩ | ⟨whole', fraction', rfl, hpoint, hsome⟩ := parts_cases unsigned
  · cases hparts.symm.trans hnone
    rw [List.append_nil]
    exact hasOther_of_no_point hpoint
  · cases hparts.symm.trans hsome
    exact hasOther_of_point hpoint

theorem hasLongFraction_iff (hparts : parts unsigned = (whole, fraction)) :
    HasLongFraction unsigned ↔ precision < fraction.length := by
  constructor
  · rintro ⟨whole', fraction', rfl, hpoint, hlength⟩
    cases hparts.symm.trans (parts_of_point hpoint fraction')
    exact hlength
  · intro h
    obtain ⟨-, hnone⟩ | ⟨whole', fraction', hsplit, hpoint, hsome⟩ := parts_cases unsigned
    · cases hparts.symm.trans hnone
      cases h
    · cases hparts.symm.trans hsome
      exact ⟨whole, fraction, hsplit, hpoint, h⟩

theorem magnitude?_of_lacksWhole (h : LacksWhole unsigned) :
    magnitude? unsigned = .error .empty := by
  cases hparts : parts unsigned with
  | mk whole fraction =>
    unfold magnitude?
    rw [hparts]
    simp only [if_pos ((lacksWhole_iff hparts).1 h)]

theorem magnitude?_of_hasOther (hwhole : ¬ LacksWhole unsigned) (h : HasOther unsigned) :
    magnitude? unsigned = .error .nonDigit := by
  cases hparts : parts unsigned with
  | mk whole fraction =>
    have hnot : ¬ (whole ++ fraction).all Char.isDigit := by
      rw [List.all_eq_true]
      exact (hasOther_iff hparts).1 h
    unfold magnitude?
    rw [hparts]
    simp only [if_neg (mt (lacksWhole_iff hparts).2 hwhole), if_pos hnot]

theorem magnitude?_of_hasLongFraction (hwhole : ¬ LacksWhole unsigned)
    (hdigits : ¬ HasOther unsigned)
    (h : HasLongFraction unsigned) : magnitude? unsigned = .error .tooPrecise := by
  cases hparts : parts unsigned with
  | mk whole fraction =>
    have hall : (whole ++ fraction).all Char.isDigit := by
      rw [List.all_eq_true]
      exact not_not.1 (mt (hasOther_iff hparts).2 hdigits)
    unfold magnitude?
    rw [hparts]
    simp only [if_neg (mt (lacksWhole_iff hparts).2 hwhole), if_neg (not_not.2 hall),
      if_pos ((hasLongFraction_iff hparts).1 h)]

end Parts

end Decimal

namespace Numeral

variable (n : Numeral)

theorem parts_unsigned : parts n.unsigned = (n.whole, n.fraction.getD []) := by
  unfold unsigned
  cases n.fraction with
  | none => exact parts_of_no_point (point_not_mem n.whole_digits)
  | some digits => exact parts_of_point (point_not_mem n.whole_digits) digits

theorem digits : ∀ c ∈ n.whole ++ n.fraction.getD [], c.isDigit :=
  List.forall_mem_append.2 ⟨n.whole_digits, n.fraction_digits⟩

theorem magnitude_mul_scale : n.magnitude * scale = magnitudeOf n.whole (n.fraction.getD []) := by
  have hlength :
      (n.fraction.getD []).length + (precision - (n.fraction.getD []).length) = precision :=
    Nat.add_sub_cancel' n.length_fraction_le
  have hscale : (scale : ℚ) =
      10 ^ (n.fraction.getD []).length * 10 ^ (precision - (n.fraction.getD []).length) := by
    rw [← pow_add, hlength]
    norm_num [scale, precision]
  rw [magnitude, magnitudeOf, ofDigitChars_rightpad, add_mul, Nat.cast_add, Nat.cast_mul,
    Nat.cast_mul, Nat.cast_pow, Nat.cast_ofNat, hscale]
  field_simp

theorem magnitude_nonneg : 0 ≤ n.magnitude :=
  add_nonneg (Nat.cast_nonneg _) (div_nonneg (Nat.cast_nonneg _) (pow_nonneg (by norm_num) _))

theorem abs_value : |n.value| = n.magnitude := by
  unfold value
  split
  · rw [abs_neg, abs_of_nonneg n.magnitude_nonneg]
  · exact abs_of_nonneg n.magnitude_nonneg

theorem fits_iff : n.Fits ↔ magnitudeOf n.whole (n.fraction.getD []) < bound := by
  rw [Fits, abs_value, magnitude_mul_scale, le_sub_iff_add_le]
  exact_mod_cast Iff.rfl

theorem magnitude?_unsigned : magnitude? n.unsigned =
    if magnitudeOf n.whole (n.fraction.getD []) < bound then
      .ok (magnitudeOf n.whole (n.fraction.getD []))
    else .error .outOfRange :=
  magnitude?_of_digits n.parts_unsigned n.whole_ne_nil n.digits n.length_fraction_le

theorem ofChars_unsigned : ofChars n.unsigned = magnitude? n.unsigned >>= ofSigned false := by
  obtain ⟨c, rest, hwhole⟩ := List.exists_cons_of_ne_nil n.whole_ne_nil
  have hdigit : c.isDigit := n.whole_digits c (hwhole ▸ List.mem_cons_self)
  unfold unsigned
  cases n.fraction with
  | none =>
    rw [hwhole]
    exact ofChars_of_digit hdigit
  | some digits =>
    rw [hwhole]
    exact ofChars_of_digit hdigit

theorem parse_eq : parse n.toText = magnitude? n.unsigned >>= ofSigned n.negative := by
  unfold parse toText
  rw [String.toList_ofList]
  cases n.negative with
  | true => rfl
  | false => exact n.ofChars_unsigned

theorem parse_of_fits (h : n.Fits) : ∃ d, parse n.toText = .ok d ∧ d.toRat = n.value := by
  have hlt := n.fits_iff.1 h
  let units : Int := if n.negative then -magnitudeOf n.whole (n.fraction.getD [])
    else magnitudeOf n.whole (n.fraction.getD [])
  have hrange : InRange units := by
    unfold InRange units
    split <;> omega
  refine ⟨⟨units, hrange⟩, ?_, ?_⟩
  · rw [parse_eq, magnitude?_unsigned, if_pos hlt]
    exact ofSigned_eq_ok_iff.2 rfl
  · rw [toRat, div_eq_iff scale_pos.ne', value]
    unfold units
    split
    · rw [neg_mul, magnitude_mul_scale, Int.cast_neg, Int.cast_natCast]
    · rw [magnitude_mul_scale, Int.cast_natCast]

theorem parse_of_not_fits (h : ¬ n.Fits) : parse n.toText = .error .outOfRange := by
  rw [parse_eq, magnitude?_unsigned, if_neg (mt n.fits_iff.2 h)]
  rfl

end Numeral

namespace Decimal

theorem toRat_injective {a b : Decimal} (h : a.toRat = b.toRat) : a = b := by
  apply Decimal.ext
  have hunits := congrArg (· * (scale : ℚ)) h
  simp only [toRat_mul_scale] at hunits
  exact_mod_cast hunits

theorem sign_cases (chars : List Char) : ∃ negative : Bool,
    chars = (if negative then '-' :: unsignedChars chars else unsignedChars chars) ∧
      ofChars chars = magnitude? (unsignedChars chars) >>= ofSigned negative := by
  unfold unsignedChars
  split
  · exact ⟨true, rfl, rfl⟩
  · next hminus =>
    refine ⟨false, rfl, ?_⟩
    unfold ofChars
    split
    · exact absurd rfl (hminus _)
    · rfl

theorem parse_of_refuses {text : String} {e : MalformedDecimal} (h : Refuses text e) :
    parse text = .error e := by
  obtain ⟨negative, -, hread⟩ := sign_cases text.toList
  unfold parse
  cases h with
  | empty h => rw [hread, magnitude?_of_lacksWhole h]; rfl
  | nonDigit hwhole h => rw [hread, magnitude?_of_hasOther hwhole h]; rfl
  | tooPrecise hwhole hdigits h => rw [hread, magnitude?_of_hasLongFraction hwhole hdigits h]; rfl
  | outOfRange n htext h => exact htext ▸ n.parse_of_not_fits h

theorem exists_numeral {text : String} (hwhole : ¬ LacksWhole (unsignedChars text.toList))
    (hdigits : ¬ HasOther (unsignedChars text.toList))
    (hlength : ¬ HasLongFraction (unsignedChars text.toList)) : ∃ n : Numeral, n.toText = text := by
  obtain ⟨negative, hsign, -⟩ := sign_cases text.toList
  have htext {n : Numeral} (hnegative : n.negative = negative)
      (h : n.unsigned = unsignedChars text.toList) : n.toText = text := by
    rw [Numeral.toText, hnegative, h, ← hsign, String.ofList_toList]
  obtain ⟨-, hparts⟩ | ⟨whole, fraction, hsplit, -, hparts⟩ :=
    parts_cases (unsignedChars text.toList)
  · rw [hasOther_iff hparts, not_not] at hdigits
    rw [lacksWhole_iff hparts] at hwhole
    obtain ⟨hwhole', -⟩ := List.forall_mem_append.1 hdigits
    exact ⟨⟨negative, _, none, hwhole, hwhole', nofun, by decide⟩, htext rfl rfl⟩
  · rw [hasOther_iff hparts, not_not] at hdigits
    rw [lacksWhole_iff hparts] at hwhole
    rw [hasLongFraction_iff hparts, Nat.not_lt] at hlength
    obtain ⟨hwhole', hfraction⟩ := List.forall_mem_append.1 hdigits
    exact ⟨⟨negative, whole, some fraction, hwhole, hwhole', hfraction, hlength⟩,
      htext rfl hsplit.symm⟩

theorem parse_cases (text : String) :
    (∃ n : Numeral, n.toText = text ∧ n.Fits ∧ ∃ d, parse text = .ok d ∧ d.toRat = n.value) ∨
      ∃ e, Refuses text e ∧ parse text = .error e := by
  have hrefused {e : MalformedDecimal} (h : Refuses text e) :
      ∃ e, Refuses text e ∧ parse text = .error e :=
    ⟨e, h, parse_of_refuses h⟩
  by_cases hwhole : LacksWhole (unsignedChars text.toList)
  · exact .inr (hrefused (.empty hwhole))
  by_cases hdigits : HasOther (unsignedChars text.toList)
  · exact .inr (hrefused (.nonDigit hwhole hdigits))
  by_cases hlength : HasLongFraction (unsignedChars text.toList)
  · exact .inr (hrefused (.tooPrecise hwhole hdigits hlength))
  obtain ⟨n, rfl⟩ := exists_numeral hwhole hdigits hlength
  by_cases hfits : n.Fits
  · exact .inl ⟨n, rfl, hfits, n.parse_of_fits hfits⟩
  · exact .inr (hrefused (.outOfRange n rfl hfits))

/-- The numerals in range are what is read, each as its value, and any other text meets the
complaint that applies first. -/
theorem parse_grammar (text : String) :
    (∀ d, parse text = .ok d ↔ ∃ n : Numeral, n.toText = text ∧ n.Fits ∧ d.toRat = n.value) ∧
    ((∃ d, parse text = .ok d) ↔ ∃ n : Numeral, n.toText = text ∧ n.Fits) ∧
    ∀ e, parse text = .error e ↔ Refuses text e := by
  refine ⟨fun d => ⟨fun h => ?_, ?_⟩, ⟨?_, ?_⟩, fun e => ⟨fun h => ?_, parse_of_refuses⟩⟩
  · obtain ⟨n, htext, hfits, d', hd', hvalue⟩ | ⟨e, -, he⟩ := parse_cases text
    · cases h.symm.trans hd'
      exact ⟨n, htext, hfits, hvalue⟩
    · cases h.symm.trans he
  · rintro ⟨n, rfl, hfits, hvalue⟩
    obtain ⟨d', hd', hvalue'⟩ := n.parse_of_fits hfits
    rw [hd', toRat_injective (hvalue.trans hvalue'.symm)]
  · rintro ⟨d, h⟩
    obtain ⟨n, htext, hfits, -⟩ | ⟨e, -, he⟩ := parse_cases text
    · exact ⟨n, htext, hfits⟩
    · cases h.symm.trans he
  · rintro ⟨n, rfl, hfits⟩
    obtain ⟨d, hd, -⟩ := n.parse_of_fits hfits
    exact ⟨d, hd⟩
  · obtain ⟨n, -, -, d, hd, -⟩ | ⟨e', hrefuses, he⟩ := parse_cases text
    · cases h.symm.trans hd
    · cases h.symm.trans he
      exact hrefuses

end Decimal

end GasMarket
