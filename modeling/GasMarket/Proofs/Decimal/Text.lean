import GasMarket.Decimal.Text
import GasMarket.Proofs.Success
import GasMarket.Proofs.Text.Digits
import Mathlib.Data.List.TakeWhile

namespace GasMarket

open Text.Digits

theorem Amount.parse?_of_digits {digits : List Char} (h : ∀ c ∈ digits, c.isDigit) :
    parse? (String.ofList digits) = ofNat? (Nat.ofDigitChars 10 digits 0) := by
  have hfilter : digits.filter (· ≠ '_') = digits := by
    apply List.filter_eq_self.2
    intro c hc
    apply decide_eq_true
    rintro rfl
    exact absurd (h _ hc) (by decide)
  unfold parse?
  rw [String.toList_ofList]
  split
  next heq =>
    split at heq
    case h_7 =>
      cases heq
      rw [hfilter, read?_ten h, Option.bind_some]
    all_goals exact absurd (h _ (List.mem_cons_of_mem _ List.mem_cons_self)) (by decide)

namespace Decimal

section Parts

variable {whole : List Char}

theorem point_not_mem {digits : List Char} (h : ∀ c ∈ digits, c.isDigit) : '.' ∉ digits :=
  fun hpoint => absurd (h _ hpoint) (by decide)

theorem parts_of_point (h : '.' ∉ whole) (fraction : List Char) :
    parts (whole ++ '.' :: fraction) = (whole, fraction) := by
  have hwhole : ∀ c ∈ whole, decide (c ≠ '.') = true :=
    fun c hc => decide_eq_true fun heq => h (heq ▸ hc)
  rw [parts, List.takeWhile_append_of_pos hwhole, List.dropWhile_append_of_pos hwhole]
  simp

theorem parts_of_no_point (h : '.' ∉ whole) : parts whole = (whole, []) := by
  have hwhole : ∀ c ∈ whole, decide (c ≠ '.') = true :=
    fun c hc => decide_eq_true fun heq => h (heq ▸ hc)
  rw [parts, List.takeWhile_eq_self_iff.2 hwhole, List.dropWhile_eq_nil_iff.2 hwhole]
  rfl

theorem mod_scale_lt (n : Nat) : n % scale < 10 ^ precision := Nat.mod_lt n (by decide)

theorem fraction?_of_digits {digits : List Char} (h : ∀ c ∈ digits, c.isDigit)
    (hlength : digits.length ≤ precision) : ∃ units : UInt64, fraction? digits = some units ∧
      units.toNat = Nat.ofDigitChars 10 (digits.rightpad precision '0') 0 ∧
      units.toNat < scale := by
  have hpadded : ∀ c ∈ digits.rightpad precision '0', c.isDigit := by
    intro c hc
    cases List.mem_append.1 hc with
    | inl hdigit => exact h c hdigit
    | inr hzero => rw [List.eq_of_mem_replicate hzero]; rfl
  have hlt := ofDigitChars_lt hpadded
  rw [List.length_rightpad, Nat.max_eq_left hlength] at hlt
  have hsmall : 10 ^ precision < UInt64.size := by decide
  unfold fraction?
  by_cases hnil : digits = []
  · rw [if_pos hnil, hnil]
    exact ⟨0, rfl, by decide, by decide⟩
  · rw [if_neg hnil, read?_ten hpadded, Option.bind_some, if_pos (Nat.lt_trans hlt hsmall)]
    refine ⟨_, rfl, ?_⟩
    rw [UInt64.toNat_ofNat_of_lt' (Nat.lt_trans hlt hsmall)]
    exact ⟨rfl, hlt⟩

theorem units?_eq_some_iff {whole : Amount} {fraction : UInt64} {n : Nat} :
    units? whole fraction = some n ↔ n = whole.toNat * scale + fraction.toNat ∧ n < bound := by
  simp only [units?, Option.bind_eq_bind, Option.bind_eq_some_iff, Amount.ofNat?_eq_some_iff]
  constructor
  · rintro ⟨scaled, hscaled, units, hunits, h⟩
    split at h
    case isTrue hlt =>
      cases h
      rw [← hscaled]
      exact ⟨hunits, hlt⟩
    case isFalse => cases h
  -- the range ends at half the size of an amount, so only the last check can refuse
  · rintro ⟨rfl, hlt⟩
    have hsize : whole.toNat * scale + fraction.toNat < 2 ^ 256 := by
      unfold bound at hlt
      omega
    have hscaled : (BitVec.ofNat 256 (whole.toNat * scale)).toNat = whole.toNat * scale := by
      rw [BitVec.toNat_ofNat, Nat.mod_eq_of_lt (by omega)]
    have hunits : (BitVec.ofNat 256 (whole.toNat * scale + fraction.toNat)).toNat =
        whole.toNat * scale + fraction.toNat := by
      rw [BitVec.toNat_ofNat, Nat.mod_eq_of_lt hsize]
    refine ⟨_, hscaled, BitVec.ofNat 256 (whole.toNat * scale + fraction.toNat), ?_, ?_⟩
    · rw [hunits, hscaled]
    · rw [hunits, if_pos hlt]

def magnitudeOf (whole fraction : List Char) : Nat :=
  Nat.ofDigitChars 10 whole 0 * scale + Nat.ofDigitChars 10 (fraction.rightpad precision '0') 0

theorem required_eq_ok_iff {α : Type} {complaint : MalformedDecimal} {o : Option α} {a : α} :
    required complaint o = .ok a ↔ o = some a := by
  cases o with
  | none => exact ⟨nofun, nofun⟩
  | some b => rw [required, Except.ok.injEq, Option.some.injEq]

theorem required_eq_error_iff {α : Type} {complaint e : MalformedDecimal} {o : Option α} :
    required complaint o = .error e ↔ o = none ∧ e = complaint := by
  cases o with
  | none => rw [required, Except.error.injEq, eq_comm, and_iff_right rfl]
  | some b => exact ⟨nofun, nofun⟩

theorem magnitude?_of_digits {unsigned fraction : List Char}
    (hparts : parts unsigned = (whole, fraction))
    (hwhole : whole ≠ []) (hdigits : ∀ c ∈ whole ++ fraction, c.isDigit)
    (hlength : fraction.length ≤ precision) :
    magnitude? unsigned = if magnitudeOf whole fraction < bound then
        .ok (magnitudeOf whole fraction)
      else .error .outOfRange := by
  obtain ⟨hwhole', hfraction'⟩ := List.forall_mem_append.1 hdigits
  obtain ⟨units, hunits, hvalue, -⟩ := fraction?_of_digits hfraction' hlength
  have hread :
      magnitude? unsigned = required .outOfRange (Amount.ofNat? (Nat.ofDigitChars 10 whole 0)) >>=
      fun whole => required .outOfRange (units? whole units) := by
    unfold magnitude?
    rw [hparts]
    simp only [if_neg hwhole, List.all_eq_true.2 hdigits, not_true, if_false,
      if_neg (Nat.not_lt.2 hlength), Amount.parse?_of_digits hwhole', hunits]
    refine congrArg (_ >>= ·) (funext fun amount => ?_)
    exact pure_bind units fun fraction => required .outOfRange (units? amount fraction)
  rw [hread, magnitudeOf, ← hvalue]
  generalize Nat.ofDigitChars 10 whole 0 = number
  split
  case isTrue hlt =>
    have hsize : number < Amount.size := by
      unfold bound scale at hlt
      unfold Amount.size
      omega
    have hamount : (BitVec.ofNat 256 number).toNat = number := by
      rw [BitVec.toNat_ofNat]
      exact Nat.mod_eq_of_lt hsize
    simp only [bind_eq_ok_iff, required_eq_ok_iff, Amount.ofNat?_eq_some_iff, units?_eq_some_iff]
    refine ⟨_, hamount, ?_⟩
    rw [hamount]
    exact ⟨rfl, hlt⟩
  case isFalse hlt =>
    simp only [bind_eq_error_iff, required_eq_error_iff, required_eq_ok_iff, and_true]
    cases hnumber : Amount.ofNat? number with
    | none => exact .inl rfl
    | some amount =>
      refine .inr ⟨amount, rfl, Option.eq_none_iff_forall_ne_some.2 fun n hn => ?_⟩
      obtain ⟨rfl, hlt'⟩ := units?_eq_some_iff.1 hn
      rw [Amount.ofNat?_eq_some_iff.1 hnumber] at hlt'
      exact hlt hlt'

end Parts

section Signed

theorem ofSigned_eq_ok_iff {negative : Bool} {n : Nat} {d : Decimal} :
    ofSigned negative n = .ok d ↔ d.units = if negative then -(n : Int) else n := by
  unfold ofSigned
  rw [← ofUnits_eq_ok_iff]
  cases ofUnits (if negative then -(n : Int) else n) with
  | ok e => simp
  | error fault => simp

theorem ofChars_of_digit {c : Char} {rest : List Char} (h : c.isDigit) :
    ofChars (c :: rest) = magnitude? (c :: rest) >>= ofSigned false := by
  unfold ofChars
  split
  · next heq =>
    cases heq
    exact absurd h (by decide)
  · rfl

end Signed

end Decimal

end GasMarket
