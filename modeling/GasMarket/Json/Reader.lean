import GasMarket.Json.Token

namespace GasMarket.Json

inductive Frame
  | array (before : List Json)
  | object (before : List (String × Json)) (name : String)

inductive Reader
  | value (outer : List Frame)
  | elementOrClose (outer : List Frame)
  | keyOrClose (outer : List Frame)
  | key (outer : List Frame) (before : List (String × Json))
  | colon (outer : List Frame) (before : List (String × Json)) (name : String)
  | complete (outer : List Frame) (value : Json)

namespace Reader

def begin (outer : List Frame) : Token → Option Reader
  | .null => some (.complete outer .null)
  | .bool b => some (.complete outer (.bool b))
  | .number literal => some (.complete outer (.number literal))
  | .string body => some (.complete outer (.string body))
  | .openArray => some (.elementOrClose outer)
  | .openObject => some (.keyOrClose outer)
  | _ => none

def step : Reader → Token → Option Reader
  | .value outer, token => begin outer token
  | .elementOrClose outer, .closeArray => some (.complete outer (.array []))
  | .elementOrClose outer, token => begin (.array [] :: outer) token
  | .keyOrClose outer, .closeObject => some (.complete outer (.object []))
  | .keyOrClose outer, .string body => some (.colon outer [] body)
  | .key outer before, .string body => some (.colon outer before body)
  | .colon outer before name, .colon => some (.value (.object before name :: outer))
  | .complete (.array before :: outer) v, .comma => some (.value (.array (v :: before) :: outer))
  | .complete (.array before :: outer) v, .closeArray =>
    some (.complete outer (.array (v :: before).reverse))
  | .complete (.object before name :: outer) v, .comma => some (.key outer ((name, v) :: before))
  | .complete (.object before name :: outer) v, .closeObject =>
    some (.complete outer (.object ((name, v) :: before).reverse))
  | _, _ => none

def run : Reader → List Token → Option Reader
  | r, [] => some r
  | r, token :: rest =>
    match step r token with
    | some r => run r rest
    | none => none

end Reader

def ofTokens? (tokens : List Token) : Option Json :=
  match Reader.run (.value []) tokens with
  | some (.complete [] value) => some value
  | _ => none

def parse? (text : String) : Option Json := (Token.ofChars? text.toList).bind ofTokens?

end GasMarket.Json
