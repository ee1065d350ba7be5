import ScriptDebugger.Number.Display

namespace ScriptDebugger

inductive PropertyId where
  | name (s : String)
  | index (i : UInt32)
  deriving DecidableEq, Repr

namespace PropertyId

def text : PropertyId → String
  | name s => s
  | index i => Text.numeral i.toNat

def childPath (id : PropertyId) (parent : String) : String :=
  match id with
  | name s => parent ++ "." ++ s
  | index i => parent ++ "[" ++ Text.numeral i.toNat ++ "]"

end PropertyId

inductive Scalar where
  /-- The outcome of looking up a property that is not there. -/
  | notFound
  | undefined
  | null
  | boolean (value : Bool)
  | number (value : Number)
  | string (value : String)
  | date (text : String)
  | other (className text : String)
  deriving DecidableEq, Repr

namespace Scalar

def className : Scalar → String
  | notFound | null => ""
  | undefined => "Undefined"
  | boolean _ => "Boolean"
  | number _ => "Number"
  | string _ => "String"
  | date _ => "Date"
  | other className _ => className

def text : Scalar → String
  | notFound => ""
  | undefined => "Undefined"
  | null => "null"
  | boolean true => "true"
  | boolean false => "false"
  | number value => value.text
  | string value => value
  | date text => text
  | other _ text => text

def isTruthy : Scalar → Bool
  | notFound | undefined | null => false
  | boolean value => value
  | number value => !value.isZero && !value.isNaN
  | string value => !value.isEmpty
  | date _ | other _ _ => true

end Scalar

abbrev ObjectId := Nat

inductive Value where
  | object (id : ObjectId)
  | scalar (s : Scalar)
  deriving DecidableEq, Repr

namespace Value

def notFound : Value := .scalar .notFound

def string (s : String) : Value := .scalar (.string s)

def number (n : Number) : Value := .scalar (.number n)

def isFound (v : Value) : Bool :=
  v != notFound

/-- Truth in the sense of the script, which decides guards. -/
def isTruthy : Value → Bool
  | object _ => true
  | scalar s => s.isTruthy

end Value

end ScriptDebugger
