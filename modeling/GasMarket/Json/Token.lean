import GasMarket.Json.Number

namespace GasMarket.Json

inductive Token
  | openArray | closeArray | openObject | closeObject | comma | colon
  | null
  | bool (value : Bool)
  | number (literal : String)
  | string (body : String)
  deriving DecidableEq

namespace Token

def opens : Token → Bool
  | .openArray | .openObject => true
  | _ => false

def closes : Token → Bool
  | .closeArray | .closeObject => true
  | _ => false

inductive Mode
  | between
  | word (letters : List Char)
  | number (literal : List Char)
  | string (body : List Char)
  | escape (body : List Char)
  | hex (missing : Nat) (body : List Char)

structure Machine where
  tokens : List Token
  mode : Mode

def isBlank (c : Char) : Bool := c == ' ' || c == '\t' || c == '\n' || c == '\r'

def isNumberChar (c : Char) : Bool :=
  c.isDigit || c == '-' || c == '+' || c == '.' || c == 'e' || c == 'E'

def isHexDigit (c : Char) : Bool :=
  c.isDigit || ('a' ≤ c && c ≤ 'f') || ('A' ≤ c && c ≤ 'F')

def isEscape (c : Char) : Bool :=
  c == '"' || c == '\\' || c == '/' || c == 'b' || c == 'f' || c == 'n' || c == 'r' || c == 't'

def ofWord? : List Char → Option Token
  | ['t', 'r', 'u', 'e'] => some (.bool true)
  | ['f', 'a', 'l', 's', 'e'] => some (.bool false)
  | ['n', 'u', 'l', 'l'] => some .null
  | _ => none

def ofNumber? (literal : List Char) : Option Token :=
  if Number.isLiteral literal then some (.number (String.ofList literal)) else none

def start (tokens : List Token) (c : Char) : Option Machine :=
  if isBlank c then some ⟨tokens, .between⟩
  else match c with
    | '[' => some ⟨.openArray :: tokens, .between⟩
    | ']' => some ⟨.closeArray :: tokens, .between⟩
    | '\x7b' => some ⟨.openObject :: tokens, .between⟩
    | '\x7d' => some ⟨.closeObject :: tokens, .between⟩
    | ',' => some ⟨.comma :: tokens, .between⟩
    | ':' => some ⟨.colon :: tokens, .between⟩
    | '"' => some ⟨tokens, .string []⟩
    | c =>
      if c.isDigit || c == '-' then some ⟨tokens, .number [c]⟩
      else if c.isAlpha then some ⟨tokens, .word [c]⟩
      else none

def step (m : Machine) (c : Char) : Option Machine :=
  match m.mode with
  | .between => start m.tokens c
  | .word letters =>
    if c.isAlpha then some ⟨m.tokens, .word (c :: letters)⟩
    else match ofWord? letters.reverse with
      | some token => start (token :: m.tokens) c
      | none => none
  | .number literal =>
    if isNumberChar c then some ⟨m.tokens, .number (c :: literal)⟩
    else match ofNumber? literal.reverse with
      | some token => start (token :: m.tokens) c
      | none => none
  | .string body =>
    if c = '"' then some ⟨.string (String.ofList body.reverse) :: m.tokens, .between⟩
    else if c = '\\' then some ⟨m.tokens, .escape (c :: body)⟩
    else if c.toNat < 0x20 then none
    else some ⟨m.tokens, .string (c :: body)⟩
  | .escape body =>
    if c = 'u' then some ⟨m.tokens, .hex 3 (c :: body)⟩
    else if isEscape c then some ⟨m.tokens, .string (c :: body)⟩
    else none
  | .hex missing body =>
    if isHexDigit c then
      match missing with
      | 0 => some ⟨m.tokens, .string (c :: body)⟩
      | missing + 1 => some ⟨m.tokens, .hex missing (c :: body)⟩
    else none

def Machine.finish (m : Machine) : Option (List Token) :=
  match m.mode with
  | .between => some m.tokens.reverse
  | .word letters => (ofWord? letters.reverse).map fun token => (token :: m.tokens).reverse
  | .number literal => (ofNumber? literal.reverse).map fun token => (token :: m.tokens).reverse
  | .string _ | .escape _ | .hex _ _ => none

def run : Machine → List Char → Option Machine
  | m, [] => some m
  | m, c :: rest =>
    match step m c with
    | some m => run m rest
    | none => none

def ofChars? (text : List Char) : Option (List Token) :=
  (run ⟨[], .between⟩ text).bind Machine.finish

end Token

end GasMarket.Json
