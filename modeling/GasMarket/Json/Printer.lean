import GasMarket.Json.Token

namespace GasMarket.Json

mutual

def pushTokens : Json → List Token → List Token
  | .null, before => .null :: before
  | .bool b, before => .bool b :: before
  | .number literal, before => .number literal :: before
  | .string body, before => .string body :: before
  | .array [], before => .closeArray :: .openArray :: before
  | .array (v :: rest), before =>
    .closeArray :: pushElements rest (v.pushTokens (.openArray :: before))
  | .object [], before => .closeObject :: .openObject :: before
  | .object ((key, v) :: rest), before =>
    .closeObject :: pushMembers rest (v.pushTokens (.colon :: .string key :: .openObject :: before))

def pushElements : List Json → List Token → List Token
  | [], before => before
  | v :: rest, before => pushElements rest (v.pushTokens (.comma :: before))

def pushMembers : List (String × Json) → List Token → List Token
  | [], before => before
  | (key, v) :: rest, before =>
    pushMembers rest (v.pushTokens (.colon :: .string key :: .comma :: before))

end

def tokens (v : Json) : List Token := (v.pushTokens []).reverse

def Token.text : Token → String
  | .openArray => "["
  | .closeArray => "]"
  | .openObject => "\x7b"
  | .closeObject => "\x7d"
  | .comma => ","
  | .colon => ":"
  | .null => "null"
  | .bool true => "true"
  | .bool false => "false"
  | .number literal => literal
  | .string body => "\"" ++ body ++ "\""

def compact (v : Json) : String := v.tokens.foldl (fun text token => text ++ token.text) ""

def lineBreak (depth : Nat) : String := String.ofList ('\n' :: List.replicate (2 * depth) ' ')

def gap (depth : Nat) (before token : Token) : String :=
  if before = .colon then " "
  else if before.opens then if token.closes then "" else lineBreak depth
  else if before = .comma || token.closes then lineBreak depth
  else ""

def prettyFrom (depth : Nat) (before : Token) (text : String) : List Token → String
  | [] => text
  | token :: rest =>
    let depth := if token.closes then depth - 1 else depth
    let text := text ++ gap depth before token ++ token.text
    prettyFrom (if token.opens then depth + 1 else depth) token text rest

def pretty (v : Json) : String :=
  match v.tokens with
  | [] => ""
  | token :: rest => prettyFrom (if token.opens then 1 else 0) token token.text rest

end GasMarket.Json
