import ScriptDebugger.Number.Basic
import ScriptDebugger.Text.Numeral

namespace ScriptDebugger.Number

def spanDigits (cs : List Char) : List Char × List Char :=
  (cs.takeWhile Text.isDigit, cs.dropWhile Text.isDigit)

/-- An exponent that is at least as large takes no more digits. -/
def exponentLimit : Nat := 65536

def addExponentDigit (exponent digit : Nat) : Nat :=
  if exponent < exponentLimit then exponent * 10 + digit else exponent

/-- The value of one or more digits of an exponent.  Digits that come when it has reached the
limit have to be digits, and mean nothing. -/
def readExponentDigits? : List Char → Option Nat
  | [] => none
  | cs => (cs.mapM Text.digitValue?).map fun ds => ds.foldl addExponentDigit 0

def readExponent? : List Char → Option Int
  | [] => some 0
  | c :: rest =>
      if c = 'e' ∨ c = 'E' then
        match rest with
        | '-' :: ds => (readExponentDigits? ds).map fun n => -Int.ofNat n
        | '+' :: ds => (readExponentDigits? ds).map Int.ofNat
        | ds => (readExponentDigits? ds).map Int.ofNat
      else none

def spanFraction : List Char → List Char × List Char
  | '.' :: rest => spanDigits rest
  | cs => ([], cs)

def readMagnitude? (negative : Bool) (cs : List Char) : Option Number := do
  let (whole, afterWhole) := spanDigits cs
  let (fraction, afterFraction) := spanFraction afterWhole
  let coefficient ← Text.readDigits? (whole ++ fraction)
  let exponent ← readExponent? afterFraction
  some (ofDecimal negative coefficient (exponent - Int.ofNat fraction.length))

def readWord? (negative : Bool) (word : String) : Option Number :=
  if word = "inf" ∨ word = "infinity" then some (infinity negative)
  else if word = "nan" then some nan
  else none

def readUnsigned? (negative : Bool) (cs : List Char) : Option Number :=
  match readWord? negative (String.ofList (cs.map Char.toLower)) with
  | some x => some x
  | none => readMagnitude? negative cs

def readLiteral? : List Char → Option Number
  | '-' :: cs => readUnsigned? true cs
  | '+' :: cs => readUnsigned? false cs
  | cs => readUnsigned? false cs

end ScriptDebugger.Number
