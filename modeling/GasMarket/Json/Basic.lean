/-! JSON values as they are written: numbers keep their literal, strings keep the text between
the quotes with its escapes, and objects keep their members in order, repeated names included.
What a number or a string denotes is asked for by the type that reads it. -/

namespace GasMarket

inductive Json
  | null
  | bool (value : Bool)
  | number (literal : String)
  | string (body : String)
  | array (elements : List Json)
  | object (members : List (String × Json))

instance : Inhabited Json := ⟨.null⟩

end GasMarket
