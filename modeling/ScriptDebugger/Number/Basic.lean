namespace ScriptDebugger

structure Number where
  bits : UInt64
  deriving DecidableEq, Repr

namespace Number

inductive View where
  | nan
  | infinite (negative : Bool)
  | finite (negative : Bool) (significand : Nat) (exponent : Int)
  deriving DecidableEq, Repr

def signBit : Nat := Nat.pow 2 63

/-- The leading bit of a significand, which normal numbers leave out of their bits. -/
def leadingBit : Nat := Nat.pow 2 52

def view (x : Number) : View :=
  let bits := x.bits.toNat
  let negative := decide (signBit ≤ bits)
  let field := bits / leadingBit % 2048
  let fraction := bits % leadingBit
  if field = 2047 then
    if fraction = 0 then .infinite negative else .nan
  else if field = 0 then .finite negative fraction (-1074)
  else .finite negative (leadingBit + fraction) (Int.ofNat field - 1075)

def ofParts (negative : Bool) (magnitude : Nat) : Number :=
  ⟨.ofNat (magnitude + if negative then signBit else 0)⟩

def infiniteBits : Nat := 2047 * leadingBit

def infinity (negative : Bool) : Number :=
  ofParts negative infiniteBits

def nan : Number :=
  ofParts false (infiniteBits + leadingBit / 2)

def nearest (numerator denominator : Nat) : Nat :=
  let quotient := numerator / denominator
  let rest := numerator % denominator * 2
  if rest < denominator then quotient
  else if denominator < rest then quotient + 1
  else quotient + quotient % 2

def scaled (numerator denominator : Nat) (exponent : Int) : Nat × Nat :=
  if 0 ≤ exponent then (numerator, denominator * Nat.pow 2 exponent.toNat)
  else (numerator * Nat.pow 2 (-exponent).toNat, denominator)

/-- The magnitude nearest to a positive fraction.  The exponent is the least one at which the
significand fits 53 bits, and never below that of the smallest numbers. -/
def magnitudeOf (numerator denominator : Nat) : Nat :=
  let guess := max (-1074) (Int.ofNat numerator.log2 - Int.ofNat denominator.log2 - 53)
  let (n, d) := scaled numerator denominator guess
  let exponent := if 2 * leadingBit ≤ n / d then guess + 1 else guess
  let (n, d) := scaled numerator denominator exponent
  let significand := nearest n d
  let magnitude :=
    if significand < leadingBit then significand
    else (exponent + 1074).toNat * leadingBit + significand
  min magnitude infiniteBits

/-- The number nearest to `coefficient` times ten to the power `exponent`. -/
def ofDecimal (negative : Bool) (coefficient : Nat) (exponent : Int) : Number :=
  if coefficient = 0 then ofParts negative 0
  else
    let magnitude := exponent + Int.ofNat coefficient.log2 / 4
    let size := exponent + Int.ofNat coefficient.log2
    if 310 < magnitude then infinity negative
    else if size < -1100 then ofParts negative 0
    else if 0 ≤ exponent then
      ofParts negative (magnitudeOf (coefficient * Nat.pow 10 exponent.toNat) 1)
    else ofParts negative (magnitudeOf coefficient (Nat.pow 10 (-exponent).toNat))

def ofNat (n : Nat) : Number :=
  ofDecimal false n 0

def isZero (x : Number) : Bool :=
  x.bits.toNat % signBit == 0

def isNaN (x : Number) : Bool :=
  x.view == .nan

end Number

end ScriptDebugger
