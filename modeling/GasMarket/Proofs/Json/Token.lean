import GasMarket.Json.Printer
import GasMarket.Proofs.Json.Escape
import GasMarket.Proofs.Text.Digits
import Mathlib.Data.List.TakeWhile

/-! Tokens read back from their texts.  A word or a number ends only where the next character
cannot continue it, so no two of them may meet. -/

namespace GasMarket.Json.Token

open Text.Digits

def Plain : Token → Prop
  | .number literal => ∃ n, literal = String.ofList (decimal n)
  | .string body => ∃ text, body = Escape.encode text
  | _ => True

def isOpenEnded : Token → Bool
  | .null | .bool _ | .number _ => true
  | _ => false

def Delimits : List Char → Prop
  | [] => True
  | c :: _ => c.isAlpha = false ∧ isNumberChar c = false

def readFrom (before : List Token) (text : List Char) : Option (List Token) :=
  (run ⟨before, .between⟩ text).bind Machine.finish

section Ends

variable {before : List Token} {token : Token} {rest : List Char}

theorem finish_word {letters : List Char} (hword : ofWord? letters.reverse = some token)
    (hrest : Delimits rest) :
    (run ⟨before, .word letters⟩ rest).bind Machine.finish = readFrom (token :: before) rest := by
  cases rest with
  | nil => simp [run, Machine.finish, hword, readFrom]
  | cons c rest => simp [run, step, hword, readFrom, hrest.1]

theorem finish_number {literal : List Char} (hnumber : ofNumber? literal.reverse = some token)
    (hrest : Delimits rest) :
    (run ⟨before, .number literal⟩ rest).bind Machine.finish =
      readFrom (token :: before) rest := by
  cases rest with
  | nil => simp [run, Machine.finish, hnumber, readFrom]
  | cons c rest => simp [run, step, hnumber, readFrom, hrest.2]

end Ends

theorem start_digit (tokens : List Token) {c : Char} (h : c.isDigit) :
    start tokens c = some ⟨tokens, .number [c]⟩ := by
  unfold start
  split
  · next hblank =>
    simp only [isBlank, Bool.or_eq_true, beq_iff_eq] at hblank
    obtain ((rfl | rfl) | rfl) | rfl := hblank
    all_goals exact absurd h (by decide)
  · split
    all_goals first
      | exact absurd h (by decide)
      | simp [h]

theorem run_digits (tokens : List Token) {digits : List Char} (h : ∀ c ∈ digits, c.isDigit)
    (literal rest : List Char) : run ⟨tokens, .number literal⟩ (digits ++ rest) =
      run ⟨tokens, .number (digits.reverse ++ literal)⟩ rest := by
  induction digits generalizing literal with
  | nil => rfl
  | cons c digits ih =>
    obtain ⟨hc, hdigits⟩ := List.forall_mem_cons.1 h
    have hnumber : isNumberChar c := by simp [isNumberChar, hc]
    simp only [List.cons_append, run, step, hnumber, if_true]
    rw [ih hdigits, List.reverse_cons, List.append_assoc]
    rfl

theorem isUnsigned_decimal (n : Nat) : Number.isUnsigned (decimal n) := by
  have hdigits : ∀ c ∈ decimal n, c.isDigit := fun c hc => isDigit_of_mem_decimal hc
  have hwhole : Number.isWhole (decimal n) := by
    by_cases hn : n = 0
    · subst hn
      rfl
    · obtain ⟨c, rest, hc, hne⟩ := exists_cons_of_ne_zero hn
      rw [hc]
      unfold Number.isWhole
      split
      · next heq => cases heq
      · next heq =>
        cases heq
        exact absurd rfl hne
      · rfl
  unfold Number.isUnsigned
  rw [List.takeWhile_eq_self_iff.2 hdigits, List.dropWhile_eq_nil_iff.2 hdigits, hwhole]
  rfl

theorem ofNumber?_decimal (n : Nat) :
    ofNumber? (decimal n) = some (.number (String.ofList (decimal n))) := by
  have hliteral : Number.isLiteral (decimal n) := by
    unfold Number.isLiteral
    split
    · next rest heq =>
      have hminus : '-' ∈ decimal n := by simp [heq]
      exact absurd (isDigit_of_mem_decimal hminus) (by decide)
    · exact isUnsigned_decimal n
  rw [ofNumber?, if_pos hliteral]

theorem run_decimal (tokens : List Token) (n : Nat) (rest : List Char) :
    run ⟨tokens, .between⟩ (decimal n ++ rest) =
      run ⟨tokens, .number (decimal n).reverse⟩ rest := by
  have hdigits : ∀ c ∈ decimal n, c.isDigit := fun c hc => isDigit_of_mem_decimal hc
  obtain ⟨c, digits, hc⟩ := List.exists_cons_of_ne_nil (decimal_ne_nil n)
  rw [hc] at hdigits ⊢
  obtain ⟨hdigit, hdigits⟩ := List.forall_mem_cons.1 hdigits
  simp only [List.cons_append, run, step, start_digit tokens hdigit]
  rw [run_digits tokens hdigits, List.reverse_cons]

theorem readFrom_text {token : Token} (h : token.Plain) (before : List Token) {rest : List Char}
    (hrest : token.isOpenEnded → Delimits rest) :
    readFrom before (token.text.toList ++ rest) = readFrom (token :: before) rest := by
  cases token with
  | openArray | closeArray | openObject | closeObject | comma | colon => rfl
  | null => exact @finish_word before .null rest ['l', 'l', 'u', 'n'] rfl (hrest rfl)
  | bool value =>
    cases value with
    | true => exact @finish_word before (.bool true) rest ['e', 'u', 'r', 't'] rfl (hrest rfl)
    | false =>
      exact @finish_word before (.bool false) rest ['e', 's', 'l', 'a', 'f'] rfl (hrest rfl)
  | number literal =>
    obtain ⟨n, rfl⟩ := h
    unfold readFrom
    rw [text, String.toList_ofList, run_decimal]
    apply finish_number _ (hrest rfl)
    rw [List.reverse_reverse]
    exact ofNumber?_decimal n
  | string body =>
    obtain ⟨content, rfl⟩ := h
    have hbody := isBody_encodeChars content.toList before [] ('"' :: rest)
    have hquote : "\"".toList = ['"'] := by decide
    have hopen (text : List Char) :
        run ⟨before, .between⟩ ('"' :: text) = run ⟨before, .string []⟩ text := rfl
    unfold readFrom
    rw [text, Escape.encode, String.toList_append, String.toList_append, hquote]
    simp only [List.append_assoc, List.cons_append, List.nil_append]
    rw [hopen, String.toList_ofList, hbody]
    simp only [run, step, if_true, List.append_nil, List.reverse_reverse]

def StartsClosed : List Token → Prop
  | [] => True
  | token :: _ => token.isOpenEnded = false

def Separated : List Token → Prop
  | [] => True
  | token :: rest => (token.isOpenEnded → StartsClosed rest) ∧ Separated rest

inductive Spaced : List Token → List Char → Prop
  | nil : Spaced [] []
  | cons (token : Token) {blanks : List Char} {rest : List Token} {text : List Char}
      (blank : ∀ c ∈ blanks, isBlank c) (more : Spaced rest text) :
      Spaced (token :: rest) (blanks ++ (token.text.toList ++ text))

theorem readFrom_blanks (before : List Token) {blanks : List Char} (h : ∀ c ∈ blanks, isBlank c)
    (text : List Char) : readFrom before (blanks ++ text) = readFrom before text := by
  induction blanks with
  | nil => rfl
  | cons c blanks ih =>
    obtain ⟨hc, hblanks⟩ := List.forall_mem_cons.1 h
    rw [← ih hblanks]
    simp only [List.cons_append, readFrom, run, step, start, hc, if_true]

theorem delimits_text {token : Token} (h : token.isOpenEnded = false) (rest : List Char) :
    Delimits (token.text.toList ++ rest) := by
  cases token with
  | openArray | closeArray | openObject | closeObject | comma | colon => exact ⟨rfl, rfl⟩
  | null | bool _ | number _ => cases h
  | string body =>
    rw [text, String.toList_append, String.toList_append, List.append_assoc]
    exact ⟨rfl, rfl⟩

theorem delimits_blank {c : Char} (h : isBlank c) (rest : List Char) : Delimits (c :: rest) := by
  simp only [isBlank, Bool.or_eq_true, beq_iff_eq] at h
  obtain ((rfl | rfl) | rfl) | rfl := h
  all_goals exact ⟨by decide, by decide⟩

theorem Spaced.delimits {tokens : List Token} {text : List Char} (h : Spaced tokens text)
    (hclosed : StartsClosed tokens) : Delimits text := by
  cases h with
  | nil => trivial
  | @cons token blanks rest text hblank hmore =>
    cases blanks with
    | nil => exact delimits_text hclosed text
    | cons c blanks => exact delimits_blank (hblank c List.mem_cons_self) _

theorem Spaced.readFrom {tokens : List Token} {text : List Char} (h : Spaced tokens text)
    (hplain : ∀ token ∈ tokens, token.Plain) (hseparated : Separated tokens) (before : List Token) :
    readFrom before text = some (before.reverse ++ tokens) := by
  induction h generalizing before with
  | nil => simp [Token.readFrom, run, Machine.finish]
  | cons token hblank hmore ih =>
    obtain ⟨htoken, hrest⟩ := List.forall_mem_cons.1 hplain
    rw [readFrom_blanks before hblank,
      readFrom_text htoken before fun hopen => hmore.delimits (hseparated.1 hopen),
      ih hrest hseparated.2, List.reverse_cons, List.append_assoc]
    rfl

theorem Spaced.ofChars? {tokens : List Token} {text : List Char} (h : Spaced tokens text)
    (hplain : ∀ token ∈ tokens, token.Plain) (hseparated : Separated tokens) :
    ofChars? text = some tokens := h.readFrom hplain hseparated []

end GasMarket.Json.Token
