import ScriptDebugger.Json.Token

namespace ScriptDebugger

inductive Json where
  | null
  | boolean (value : Bool)
  /-- A string, with its text unless that has half of a surrogate pair in it. -/
  | string (text : Option String)
  /-- A number, with its value if it is written as a plain count. -/
  | number (count : Option Nat)
  | array (items : List Json)
  | object (members : List (Option String × Json))
  deriving Repr

namespace Json

/-- An array or object that is still open; what it holds so far stands latest first. -/
inductive Open where
  | array (items : List Json)
  | object (members : List (Option String × Json)) (key : Option String)
  deriving Repr

mutual

def readValue (outer : List Open) : List Token → Option Json
  | .null :: rest => readAfter .null outer rest
  | .boolean value :: rest => readAfter (.boolean value) outer rest
  | .string text :: rest => readAfter (.string text) outer rest
  | .number count :: rest => readAfter (.number count) outer rest
  | .openArray :: .closeArray :: rest => readAfter (.array []) outer rest
  | .openArray :: rest => readValue (.array [] :: outer) rest
  | .openObject :: .closeObject :: rest => readAfter (.object []) outer rest
  | .openObject :: .string key :: .colon :: rest => readValue (.object [] key :: outer) rest
  | _ => none

def readAfter (value : Json) : List Open → List Token → Option Json
  | [], [] => some value
  | .array items :: outer, .comma :: rest => readValue (.array (value :: items) :: outer) rest
  | .array items :: outer, .closeArray :: rest =>
      readAfter (.array (value :: items).reverse) outer rest
  | .object members key :: outer, .comma :: .string next :: .colon :: rest =>
      readValue (.object ((key, value) :: members) next :: outer) rest
  | .object members key :: outer, .closeObject :: rest =>
      readAfter (.object ((key, value) :: members).reverse) outer rest
  | _, _ => none

end

def read? (text : String) : Option Json := do
  readValue [] (← tokens? text)

end Json

end ScriptDebugger
