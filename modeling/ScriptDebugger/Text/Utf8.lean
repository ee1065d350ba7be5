/-!
UTF-8.  Bytes are read as a list of pieces: a well-formed sequence is a character, and a
maximal stretch that begins a sequence but cannot be completed is one malformed piece.
-/

namespace ScriptDebugger.Text.Utf8

def encodeChar (c : Char) : List UInt8 :=
  let code := c.toNat
  if code < 0x80 then [.ofNat code]
  else if code < 0x800 then [.ofNat (0xc0 + code / 64), .ofNat (0x80 + code % 64)]
  else if code < 0x10000 then
    [.ofNat (0xe0 + code / 4096), .ofNat (0x80 + code / 64 % 64), .ofNat (0x80 + code % 64)]
  else
    [.ofNat (0xf0 + code / 262144), .ofNat (0x80 + code / 4096 % 64),
      .ofNat (0x80 + code / 64 % 64), .ofNat (0x80 + code % 64)]

def encode (cs : List Char) : List UInt8 :=
  cs.flatMap encodeChar

/-- What the first byte of a longer sequence says: its share of the code point, how many bytes
follow, and the range of the next one. -/
structure Lead where
  value : Nat
  following : Nat
  low : Nat
  high : Nat
  deriving DecidableEq, Repr

/-- First bytes that begin a well-formed sequence of two, three or four bytes.  The range of
the second byte leaves out overlong forms, surrogates and code points beyond the last one. -/
def lead? (byte : Nat) : Option Lead :=
  if byte < 0xc2 then none
  else if byte < 0xe0 then some ⟨byte - 0xc0, 1, 0x80, 0xbf⟩
  else if byte = 0xe0 then some ⟨0, 2, 0xa0, 0xbf⟩
  else if byte = 0xed then some ⟨0xd, 2, 0x80, 0x9f⟩
  else if byte < 0xf0 then some ⟨byte - 0xe0, 2, 0x80, 0xbf⟩
  else if byte = 0xf0 then some ⟨0, 3, 0x90, 0xbf⟩
  else if byte < 0xf4 then some ⟨byte - 0xf0, 3, 0x80, 0xbf⟩
  else if byte = 0xf4 then some ⟨4, 3, 0x80, 0x8f⟩
  else none

/-- Takes the following bytes of a sequence, the first of them in the given range.  The rest of
the input comes back also when the sequence breaks off. -/
def follow (value low high : Nat) : Nat → List UInt8 → Option Nat × List UInt8
  | 0, bytes => (some value, bytes)
  | _ + 1, [] => (none, [])
  | count + 1, byte :: rest =>
      if low ≤ byte.toNat ∧ byte.toNat ≤ high then
        follow (value * 64 + (byte.toNat - 0x80)) 0x80 0xbf count rest
      else
        (none, byte :: rest)

theorem length_follow_le (value low high count : Nat) (bytes : List UInt8) :
    (follow value low high count bytes).2.length ≤ bytes.length := by
  induction count generalizing value low high bytes with
  | zero => simp [follow]
  | succ count ih =>
      cases bytes with
      | nil => simp [follow]
      | cons byte rest =>
          simp only [follow]
          split
          · exact Nat.le_succ_of_le (ih ..)
          · exact Nat.le_refl _

def piece (byte : UInt8) (rest : List UInt8) : Option Char × List UInt8 :=
  if byte.toNat < 0x80 then (some (Char.ofNat byte.toNat), rest)
  else
    match lead? byte.toNat with
    | none => (none, rest)
    | some lead =>
        let (code, remaining) := follow lead.value lead.low lead.high lead.following rest
        (code.map Char.ofNat, remaining)

theorem length_piece_le (byte : UInt8) (rest : List UInt8) :
    (piece byte rest).2.length ≤ rest.length := by
  unfold piece
  split
  · exact Nat.le_refl _
  · split
    · exact Nat.le_refl _
    · exact length_follow_le ..

def piecesFrom (found : List (Option Char)) : List UInt8 → List (Option Char)
  | [] => found.reverse
  | byte :: rest => piecesFrom ((piece byte rest).1 :: found) (piece byte rest).2
termination_by bytes => bytes.length
decreasing_by exact Nat.lt_succ_of_le (length_piece_le byte rest)

def pieces (bytes : List UInt8) : List (Option Char) :=
  piecesFrom [] bytes

def decode? (bytes : List UInt8) : Option (List Char) :=
  let found := pieces bytes
  if found.all Option.isSome then some (found.filterMap id) else none

/-- The text of any bytes, with one replacement character for each malformed piece. -/
def decodeLossy (bytes : List UInt8) : List Char :=
  (pieces bytes).map fun found => found.getD '\ufffd'

theorem piecesFrom_eq (found : List (Option Char)) (bytes : List UInt8) :
    piecesFrom found bytes = found.reverse ++ pieces bytes := by
  induction hlength : bytes.length using Nat.strongRecOn generalizing found bytes with
  | _ length ih =>
    cases bytes with
    | nil => simp [pieces, piecesFrom]
    | cons byte rest =>
        have hshorter : (piece byte rest).2.length < length := by
          have := length_piece_le byte rest
          simp only [List.length_cons] at hlength
          omega
        unfold pieces
        rw [piecesFrom, piecesFrom, ih _ hshorter _ _ rfl, ih _ hshorter [_] _ rfl]
        simp

@[simp] theorem pieces_nil : pieces [] = [] := by
  simp [pieces, piecesFrom]

theorem pieces_cons (byte : UInt8) (rest : List UInt8) :
    pieces (byte :: rest) = (piece byte rest).1 :: pieces (piece byte rest).2 := by
  conv => lhs; unfold pieces
  rw [piecesFrom, piecesFrom_eq]
  rfl

@[simp] theorem encode_nil : encode [] = [] := rfl

@[simp] theorem encode_cons (c : Char) (cs : List Char) :
    encode (c :: cs) = encodeChar c ++ encode cs := rfl

theorem encodeChar_ne_nil (c : Char) : encodeChar c ≠ [] := by
  fun_cases encodeChar c <;> simp

theorem encode_eq_nil_iff {cs : List Char} : encode cs = [] ↔ cs = [] := by
  cases cs <;> simp [encodeChar_ne_nil]

end ScriptDebugger.Text.Utf8
