import ScriptDebugger.Text.Numeral

namespace ScriptDebugger.Json

inductive Token where
  | openArray
  | closeArray
  | openObject
  | closeObject
  | comma
  | colon
  | null
  | boolean (value : Bool)
  | string (text : Option String)
  | number (count : Option Nat)
  deriving DecidableEq, Repr

structure Spelling where
  chars : List Char := []
  /-- The first half of a surrogate pair that waits for the second. -/
  high : Option Nat := none
  wellFormed : Bool := true
  deriving DecidableEq, Repr

namespace Spelling

def addChar (s : Spelling) (c : Char) : Spelling :=
  { chars := c :: s.chars, high := none, wellFormed := s.wellFormed && s.high.isNone }

def addUnit (s : Spelling) (unit : Nat) : Spelling :=
  if 0xd800 ≤ unit ∧ unit < 0xdc00 then
    { s with high := some unit, wellFormed := s.wellFormed && s.high.isNone }
  else if 0xdc00 ≤ unit ∧ unit < 0xe000 then
    match s.high with
    | some high =>
        { s with
          chars := Char.ofNat (0x10000 + (high - 0xd800) * 0x400 + (unit - 0xdc00)) :: s.chars
          high := none }
    | none => { s with wellFormed := false }
  else s.addChar (Char.ofNat unit)

def text? (s : Spelling) : Option String :=
  if s.wellFormed && s.high.isNone then some (String.ofList s.chars.reverse) else none

end Spelling

def hexValue? (c : Char) : Option Nat :=
  if 48 ≤ c.toNat ∧ c.toNat ≤ 57 then some (c.toNat - 48)
  else if 65 ≤ c.toNat ∧ c.toNat ≤ 70 then some (c.toNat - 55)
  else if 97 ≤ c.toNat ∧ c.toNat ≤ 102 then some (c.toNat - 87)
  else none

def hexUnit? (a b c d : Char) : Option Nat := do
  return (((← hexValue? a) * 16 + (← hexValue? b)) * 16 + (← hexValue? c)) * 16 + (← hexValue? d)

def escaped? : Char → Option Char
  | '"' => some '"'
  | '\\' => some '\\'
  | '/' => some '/'
  | 'b' => some '\x08'
  | 'f' => some '\x0c'
  | 'n' => some '\n'
  | 'r' => some '\r'
  | 't' => some '\t'
  | _ => none

/-- Reads a string behind its opening quote, and gives what follows it. -/
def readString (s : Spelling) : List Char → Option (Option String × List Char)
  | [] => none
  | '"' :: rest => some (s.text?, rest)
  | '\\' :: 'u' :: a :: b :: c :: d :: rest =>
      match hexUnit? a b c d with
      | some unit => readString (s.addUnit unit) rest
      | none => none
  | '\\' :: c :: rest =>
      match escaped? c with
      | some meant => readString (s.addChar meant) rest
      | none => none
  | c :: rest => if c.toNat < 0x20 then none else readString (s.addChar c) rest

theorem length_readString_lt {s : Spelling} {cs rest : List Char} {text : Option String}
    (h : readString s cs = some (text, rest)) : rest.length < cs.length := by
  fun_induction readString s cs with
  | case1 => simp at h
  | case2 s tail =>
      simp only [Option.some.injEq, Prod.mk.injEq] at h
      simp [h.2]
  | case3 s a b c d tail unit _ ih =>
      have := ih h
      simp only [List.length_cons]
      omega
  | case4 => simp at h
  | case5 s c tail meant _ _ ih =>
      have := ih h
      simp only [List.length_cons]
      omega
  | case6 => simp at h
  | case7 => simp at h
  | case8 s c tail _ _ _ _ ih =>
      have := ih h
      simp only [List.length_cons]
      omega

def spanDigits (cs : List Char) : List Char × List Char :=
  (cs.takeWhile Text.isDigit, cs.dropWhile Text.isDigit)

def isExponentPart : List Char → Bool
  | [] => true
  | c :: rest =>
      let digits := match rest with
        | '+' :: digits | '-' :: digits => digits
        | _ => rest
      (c == 'e' || c == 'E') && !digits.isEmpty && digits.all Text.isDigit

def isNumberTail : List Char → Bool
  | '.' :: rest =>
      let (digits, after) := spanDigits rest
      !digits.isEmpty && isExponentPart after
  | cs => isExponentPart cs

def isWholePart : List Char → Bool
  | [] => false
  | ['0'] => true
  | '0' :: _ => false
  | _ => true

def numberToken? (cs : List Char) : Option Token :=
  let unsigned := match cs with
    | '-' :: rest => rest
    | _ => cs
  let (whole, tail) := spanDigits unsigned
  if isWholePart whole && isNumberTail tail then
    some (.number (if cs.all Text.isDigit then Text.readDigits? cs else none))
  else none

/-- The token of a lexeme that is no punctuation and no string. -/
def atom? (cs : List Char) : Option Token :=
  match String.ofList cs with
  | "null" => some .null
  | "true" => some (.boolean true)
  | "false" => some (.boolean false)
  | _ => numberToken? cs

def punctuation? : Char → Option Token
  | '[' => some .openArray
  | ']' => some .closeArray
  | '\x7b' => some .openObject
  | '\x7d' => some .closeObject
  | ',' => some .comma
  | ':' => some .colon
  | _ => none

def isSpace (c : Char) : Bool :=
  c == ' ' || c == '\n' || c == '\t' || c == '\r'

def isAtomChar (c : Char) : Bool :=
  c.isAlphanum || c == '+' || c == '-' || c == '.'

def tokensAfter (found : List Token) (cs : List Char) : Option (List Token) :=
  match cs with
  | [] => some found.reverse
  | c :: rest =>
      if isSpace c then tokensAfter found rest
      else if c = '"' then
        match _hread : readString {} rest with
        | some (text, after) => tokensAfter (.string text :: found) after
        | none => none
      else
        match punctuation? c with
        | some token => tokensAfter (token :: found) rest
        | none =>
            match atom? (c :: rest.takeWhile isAtomChar) with
            | some token => tokensAfter (token :: found) (rest.dropWhile isAtomChar)
            | none => none
termination_by cs.length
decreasing_by
  · simp
  · have := length_readString_lt _hread
    simp only [List.length_cons]
    omega
  · simp
  · have := (List.dropWhile_suffix isAtomChar (l := rest)).length_le
    simp only [List.length_cons]
    omega

def tokens? (text : String) : Option (List Token) :=
  tokensAfter [] text.toList

end ScriptDebugger.Json
