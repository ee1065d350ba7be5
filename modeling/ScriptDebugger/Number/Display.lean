import ScriptDebugger.Number.Shortest

namespace ScriptDebugger.Number

def dropZeros (cs : List Char) : List Char :=
  (cs.reverse.dropWhile (· == '0')).reverse

def Decimal.positional (d : Decimal) : List Char :=
  let ds := Text.digits d.coefficient
  if 0 ≤ d.exponent then ds ++ List.replicate d.exponent.toNat '0'
  else
    let places := (-d.exponent).toNat
    let padded := List.replicate (places + 1 - ds.length) '0' ++ ds
    let whole := padded.take (padded.length - places)
    let fraction := dropZeros (padded.drop (padded.length - places))
    if fraction.isEmpty then whole else whole ++ '.' :: fraction

def integer? (significand : Nat) (exponent : Int) : Option Nat :=
  if 0 ≤ exponent then some (significand * Nat.pow 2 exponent.toNat)
  else
    let unit := Nat.pow 2 (-exponent).toNat
    if significand % unit = 0 then some (significand / unit) else none

def magnitudeText (significand : Nat) (exponent : Int) : List Char :=
  match integer? significand exponent with
  | some n =>
      if n < Nat.pow 10 21 then Text.digits n else (shortest significand exponent).positional
  | none => (shortest significand exponent).positional

def text (x : Number) : String :=
  match x.view with
  | .nan => "NaN"
  | .infinite false => "Infinity"
  | .infinite true => "-Infinity"
  | .finite negative significand exponent =>
      String.ofList
        ((if negative then ['-'] else []) ++ magnitudeText significand exponent)

end ScriptDebugger.Number
