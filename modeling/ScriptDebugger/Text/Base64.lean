namespace ScriptDebugger.Text.Base64

def symbol (value : Nat) : Char :=
  if value < 26 then Char.ofNat (65 + value)
  else if value < 52 then Char.ofNat (71 + value)
  else if value < 62 then Char.ofNat (value - 4)
  else if value = 62 then '+'
  else '/'

def value? (c : Char) : Option Nat :=
  let code := c.toNat
  if 65 ≤ code ∧ code ≤ 90 then some (code - 65)
  else if 97 ≤ code ∧ code ≤ 122 then some (code - 71)
  else if 48 ≤ code ∧ code ≤ 57 then some (code + 4)
  else if c = '+' then some 62
  else if c = '/' then some 63
  else none

def encode : List UInt8 → List Char
  | [] => []
  | [a] =>
      [symbol (a.toNat / 4), symbol (a.toNat % 4 * 16), '=', '=']
  | [a, b] =>
      [symbol (a.toNat / 4), symbol (a.toNat % 4 * 16 + b.toNat / 16),
        symbol (b.toNat % 16 * 4), '=']
  | a :: b :: c :: rest =>
      symbol (a.toNat / 4) :: symbol (a.toNat % 4 * 16 + b.toNat / 16)
        :: symbol (b.toNat % 16 * 4 + c.toNat / 64) :: symbol (c.toNat % 64) :: encode rest

/-- The bytes of a last group, which may be padded. -/
def decodeLast? (a b c d : Char) : Option (List UInt8) := do
  let first ← value? a
  let second ← value? b
  if c = '=' then
    if d = '=' ∧ second % 16 = 0 then
      some [.ofNat (first * 4 + second / 16)]
    else none
  else do
    let third ← value? c
    if d = '=' then
      if third % 4 = 0 then
        some [.ofNat (first * 4 + second / 16), .ofNat (second % 16 * 16 + third / 4)]
      else none
    else do
      let fourth ← value? d
      some [.ofNat (first * 4 + second / 16), .ofNat (second % 16 * 16 + third / 4),
        .ofNat (third % 4 * 64 + fourth)]

def decodeGroup? (a b c d : Char) : Option (List UInt8) := do
  let first ← value? a
  let second ← value? b
  let third ← value? c
  let fourth ← value? d
  some [.ofNat (first * 4 + second / 16), .ofNat (second % 16 * 16 + third / 4),
    .ofNat (third % 4 * 64 + fourth)]

def decode? : List Char → Option (List UInt8)
  | [] => some []
  | [a, b, c, d] => decodeLast? a b c d
  | a :: b :: c :: d :: rest => do
      let group ← decodeGroup? a b c d
      let others ← decode? rest
      some (group ++ others)
  | _ => none

theorem encode_eq_nil_iff {bytes : List UInt8} : encode bytes = [] ↔ bytes = [] := by
  fun_cases encode bytes <;> simp

end ScriptDebugger.Text.Base64
