import GasMarket.Json.Escape
import GasMarket.Json.Token

namespace GasMarket.Json

open Text

theorem Escape.hex_control : ∀ code < 0x20,
    Digits.padded 4 (Digits.hex code) =
        ['0', '0', Nat.digitChar (code / 16), Nat.digitChar (code % 16)] ∧
      Digits.read? 16 ['0', '0', Nat.digitChar (code / 16), Nat.digitChar (code % 16)] =
        some code ∧
      Token.isHexDigit (Nat.digitChar (code / 16)) ∧
      Token.isHexDigit (Nat.digitChar (code % 16)) := by
  decide

namespace Escape

theorem pieces?_escapeChar (c : Char) (before : List Piece) (rest : List Char) :
    ∃ piece, pieces? before (escapeChar c ++ rest) = pieces? (piece :: before) rest ∧
      ∀ chars pieces, chars? chars (piece :: pieces) = chars? (c :: chars) pieces := by
  unfold escapeChar
  split
  · exact ⟨.char '"', rfl, fun _ _ => rfl⟩
  · exact ⟨.char '\\', rfl, fun _ _ => rfl⟩
  · exact ⟨.char '\x08', rfl, fun _ _ => rfl⟩
  · exact ⟨.char '\x0c', rfl, fun _ _ => rfl⟩
  · exact ⟨.char '\n', rfl, fun _ _ => rfl⟩
  · exact ⟨.char '\r', rfl, fun _ _ => rfl⟩
  · exact ⟨.char '\t', rfl, fun _ _ => rfl⟩
  · next _ hbackslash _ _ _ _ _ =>
    by_cases hcontrol : c.toNat < 0x20
    · obtain ⟨hpadded, hread, -, -⟩ := hex_control _ hcontrol
      refine ⟨.unit c.toNat, ?_, ?_⟩
      · rw [if_pos hcontrol, hpadded]
        simp only [List.cons_append, List.nil_append, pieces?, hread]
      · intro chars pieces
        have hhigh : ¬ IsHigh c.toNat := by unfold IsHigh; omega
        have hlow : ¬ IsLow c.toNat := by unfold IsLow; omega
        rw [chars?.eq_def]
        simp only [if_neg hhigh, if_neg hlow, Char.ofNat_toNat]
    · refine ⟨.char c, ?_, fun _ _ => rfl⟩
      rw [if_neg hcontrol]
      exact pieces?.eq_5 before c rest (fun _ _ _ _ _ h _ => hbackslash h)
        (fun _ _ h _ => hbackslash h)
        (fun h _ => hbackslash h)

theorem decodeChars_encodeChars (text : List Char) :
    decodeChars (encodeChars text) = some text := by
  have hgo (text : List Char) (before : List Piece) :
      ∃ pieces, pieces? before (encodeChars text) = some (before.reverse ++ pieces) ∧
        ∀ chars, chars? chars pieces = some (chars.reverse ++ text) := by
    induction text generalizing before with
    | nil => exact ⟨[], by simp [encodeChars, pieces?], by simp [chars?]⟩
    | cons c text ih =>
      obtain ⟨piece, hpiece, hchar⟩ := pieces?_escapeChar c before (encodeChars text)
      obtain ⟨pieces, hpieces, hchars⟩ := ih (piece :: before)
      refine ⟨piece :: pieces, ?_, ?_⟩
      · rw [List.reverse_cons, List.append_assoc] at hpieces
        exact hpiece.trans hpieces
      · intro chars
        rw [hchar, hchars, List.reverse_cons, List.append_assoc]
        rfl
  obtain ⟨pieces, hpieces, hchars⟩ := hgo text []
  rw [decodeChars, hpieces]
  exact hchars []

@[simp] theorem decode_encode (text : String) : decode (encode text) = some text := by
  unfold decode encode
  rw [String.toList_ofList, decodeChars_encodeChars, Option.map_some, String.ofList_toList]

end Escape

namespace Token

def IsBody (body : List Char) : Prop :=
  ∀ tokens before rest, run ⟨tokens, .string before⟩ (body ++ rest) =
    run ⟨tokens, .string (body.reverse ++ before)⟩ rest

theorem IsBody.append {body more : List Char} (h : IsBody body) (h' : IsBody more) :
    IsBody (body ++ more) := by
  intro tokens before rest
  rw [List.append_assoc, h, h', List.reverse_append, List.append_assoc]

theorem isBody_escapeChar (c : Char) : IsBody (Escape.escapeChar c) := by
  intro tokens before rest
  unfold Escape.escapeChar
  split
  · rfl
  · rfl
  · rfl
  · rfl
  · rfl
  · rfl
  · rfl
  · next hquote hbackslash _ _ _ _ _ =>
    by_cases hcontrol : c.toNat < 0x20
    · obtain ⟨hpadded, -, hhigh, hlow⟩ := Escape.hex_control _ hcontrol
      rw [if_pos hcontrol, hpadded]
      have hzero : isHexDigit '0' := by decide
      simp [run, step, hzero, hhigh, hlow]
    · have hquote : ¬ c = '"' := hquote
      have hbackslash : ¬ c = '\\' := hbackslash
      rw [if_neg hcontrol]
      simp [run, step, hquote, hbackslash, hcontrol]

theorem isBody_encodeChars (text : List Char) : IsBody (Escape.encodeChars text) := by
  induction text with
  | nil => exact fun _ _ _ => rfl
  | cons c text ih => exact (isBody_escapeChar c).append ih

end Token

end GasMarket.Json
