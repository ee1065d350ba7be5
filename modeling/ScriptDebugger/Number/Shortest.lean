import ScriptDebugger.Number.Basic
import ScriptDebugger.Text.Numeral

/-!
The fewest decimal digits that read back as a given number.  Every finite number is an exact
decimal, and so are the ends of the interval of values that round to it.  For one digit, two
digits and so on, the two neighbours of the value on that decimal grid are tried; the first
grid with a neighbour in the interval gives the digits.
-/

namespace ScriptDebugger.Number

structure Decimal where
  coefficient : Nat
  exponent : Int
  deriving DecidableEq, Repr

def decimalPlace (exponent : Int) : Int :=
  min exponent 0

def atPlace (n : Nat) (exponent : Int) : Nat :=
  if 0 ≤ exponent then n * Nat.pow 2 exponent.toNat else n * Nat.pow 5 (-exponent).toNat

def exactDecimal (significand : Nat) (exponent : Int) : Decimal :=
  ⟨atPlace significand exponent, decimalPlace exponent⟩

structure Interval where
  low : Nat
  value : Nat
  high : Nat
  closed : Bool
  place : Int
  deriving DecidableEq, Repr

def Interval.contains (i : Interval) (x : Nat) : Bool :=
  if i.closed then i.low ≤ x && x ≤ i.high else i.low < x && x < i.high

/-- The rounding interval of a positive number.  Its ends belong to it when the significand is
even, and below a power of two the gap is half as wide. -/
def interval (significand : Nat) (exponent : Int) : Interval :=
  let narrow := significand == leadingBit && decide (-1074 < exponent)
  let at4 (n : Nat) := atPlace n (exponent - 2)
  { low := at4 (4 * significand - if narrow then 1 else 2)
    value := at4 (4 * significand)
    high := at4 (4 * significand + 2)
    closed := significand % 2 == 0
    place := decimalPlace (exponent - 2) }

/-- The neighbour of the value on the grid of multiples of `unit` that reads back, the nearer
one if both do, and the upper one if they are equally near. -/
def Interval.neighbour? (i : Interval) (unit : Nat) : Option Nat :=
  let below := i.value / unit * unit
  let above := below + unit
  match i.contains below, i.contains above with
  | true, true => some (if i.value - below < above - i.value then below else above)
  | true, false => some below
  | false, true => some above
  | false, false => none

def Interval.dropping? (i : Interval) (dropped : Nat) : Option Decimal :=
  let unit := Nat.pow 10 dropped
  (i.neighbour? unit).map fun x => ⟨x / unit, i.place + Int.ofNat dropped⟩

/-- The shortest decimal that reads back as a positive number.  Seventeen digits are always
enough. -/
def shortest (significand : Nat) (exponent : Int) : Decimal :=
  let range := interval significand exponent
  let total := Text.digitCount range.value
  ((List.range 17).findSome? fun count => range.dropping? (total - (count + 1))).getD
    (exactDecimal significand exponent)

end ScriptDebugger.Number
