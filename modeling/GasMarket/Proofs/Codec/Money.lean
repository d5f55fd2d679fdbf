import GasMarket.Proofs.Codec.Faithful

namespace GasMarket

open Codec Json Text.Digits

theorem Amount.parse?_toHex (a : Amount) : parse? a.toHex = some a := by
  have hdigits : (hex a.toNat).filter (· ≠ '_') = hex a.toNat := by
    apply List.filter_eq_self.2
    intro c hc
    have hdigit := isSome_digit?_of_read? (read?_hex a.toNat) c hc
    apply decide_eq_true
    rintro rfl
    exact absurd hdigit (by decide)
  unfold parse? toHex
  rw [String.toList_ofList]
  change (read? 16 ((hex a.toNat).filter (· ≠ '_'))).bind ofNat? = some a
  have hsize : a.toNat < size := a.isLt
  rw [hdigits, read?_hex, Option.bind_some, ofNat?, if_pos hsize, BitVec.ofNat_toNat,
    BitVec.setWidth_eq]

theorem Address.parse?_toHex (a : Address) : parse? a.toHex = some a := by
  have hlength : a.digits.length = 40 := by
    rw [digits, length_padded, Nat.max_eq_left (length_hex_le (by decide) a.bits.isLt)]
  unfold parse? toHex
  rw [String.toList_ofList]
  change ofDigits? a.digits = some a
  rw [ofDigits?, if_pos hlength, digits, read?_padded, read?_hex, Option.map_some,
    BitVec.ofNat_toNat, BitVec.setWidth_eq]

namespace Codec

theorem faithful_amount (a : Amount) : Faithful a where
  decode_encode := by
    change (Escape.decode (Escape.encode a.toHex)).bind Amount.parse? = some a
    rw [Escape.decode_encode, Option.bind_some, Amount.parse?_toHex]
  plain := plain_string_encode a.toHex

theorem faithful_address (a : Address) : Faithful a where
  decode_encode := by
    change Address.decode (.string (Escape.encode a.toHex)) = some a
    rw [Address.decode, Escape.decode_encode, Option.bind_some, Address.parse?_toHex]
  plain := plain_string_encode a.toHex

theorem faithful_granter (granter : Option Address) : Faithful granter := by
  cases granter with
  | none => exact ⟨rfl, plain_of_tokens rfl trivial⟩
  | some a =>
    have ha := faithful_address a
    exact ⟨congrArg (Option.map some) ha.decode_encode, ha.plain⟩

end Codec

theorem Coin.faithful (c : Coin) : Faithful c := by
  refine faithful_record rfl (fun _ => rfl) rfl (by decide) ?_ ?_
  · simp only [List.map_cons, List.map_nil, (faithful_string _).required,
      (faithful_amount _).required]
    rfl
  · simp only [List.forall_mem_cons, (faithful_string _).plain, (faithful_amount _).plain, true_and]
    exact List.forall_mem_nil _

theorem Price.faithful {p : Price} (h : -Decimal.bound < p.amount.units) : Faithful p := by
  refine faithful_record rfl (fun _ => rfl) rfl (by decide) ?_ ?_
  · simp only [List.map_cons, List.map_nil, (faithful_string _).required,
      (faithful_decimal h).required]
    rfl
  · simp only [List.forall_mem_cons, (faithful_string _).plain, (faithful_decimal h).plain,
      true_and]
    exact List.forall_mem_nil _

theorem Price.lt_of_decode {v : Json} {p : Price} (h : decode v = some p) :
    -Decimal.bound < p.amount.units := by
  obtain ⟨fields, -, h⟩ := Option.bind_eq_some_iff.1 h
  split at h
  · obtain ⟨_, -, h⟩ := Option.bind_eq_some_iff.1 h
    obtain ⟨_, hamount, h⟩ := Option.bind_eq_some_iff.1 h
    cases h
    exact lt_of_required hamount
  · cases h

end GasMarket
