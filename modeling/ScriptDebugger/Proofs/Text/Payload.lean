import ScriptDebugger.Payload
import ScriptDebugger.Proofs.Text.Trim

namespace ScriptDebugger

namespace Text

namespace Base64

theorem value?_symbol {value : Nat} (h : value < 64) : value? (symbol value) = some value := by
  revert value
  decide

theorem symbol_ne_pad {value : Nat} (h : value < 64) : symbol value ≠ '=' := by
  revert value
  decide

theorem forall_mem_encode {p : Char → Prop} (hsymbol : ∀ value < 64, p (symbol value))
    (hpad : p '=') (bytes : List UInt8) : ∀ c ∈ encode bytes, p c := by
  induction bytes using encode.induct with
  | case1 => simp [encode]
  | case2 a =>
      have := a.toNat_lt
      simp only [encode, List.forall_mem_cons]
      exact ⟨hsymbol _ (by omega), hsymbol _ (by omega), hpad, hpad, List.forall_mem_nil _⟩
  | case3 a b =>
      have := a.toNat_lt
      have := b.toNat_lt
      simp only [encode, List.forall_mem_cons]
      exact ⟨hsymbol _ (by omega), hsymbol _ (by omega), hsymbol _ (by omega), hpad,
        List.forall_mem_nil _⟩
  | case4 a b c rest ih =>
      have := a.toNat_lt
      have := b.toNat_lt
      have := c.toNat_lt
      simp only [encode, List.forall_mem_cons]
      exact ⟨hsymbol _ (by omega), hsymbol _ (by omega), hsymbol _ (by omega),
        hsymbol _ (by omega), ih⟩

section Groups

variable {x y z w : Nat}

theorem decodeLast?_one (hx : x < 64) (hy : y < 64) (hunused : y % 16 = 0) :
    decodeLast? (symbol x) (symbol y) '=' '=' = some [.ofNat (x * 4 + y / 16)] := by
  simp only [decodeLast?, value?_symbol hx, value?_symbol hy, Option.bind_eq_bind,
    Option.bind_some, hunused, and_self, if_true]

theorem decodeLast?_two (hx : x < 64) (hy : y < 64) (hz : z < 64) (hunused : z % 4 = 0) :
    decodeLast? (symbol x) (symbol y) (symbol z) '=' =
      some [.ofNat (x * 4 + y / 16), .ofNat (y % 16 * 16 + z / 4)] := by
  simp only [decodeLast?, value?_symbol hx, value?_symbol hy, value?_symbol hz,
    if_neg (symbol_ne_pad hz), Option.bind_eq_bind, Option.bind_some, hunused, if_true]

theorem decodeGroup?_symbols (hx : x < 64) (hy : y < 64) (hz : z < 64) (hw : w < 64) :
    decodeGroup? (symbol x) (symbol y) (symbol z) (symbol w) =
      some [.ofNat (x * 4 + y / 16), .ofNat (y % 16 * 16 + z / 4), .ofNat (z % 4 * 64 + w)] := by
  simp only [decodeGroup?, value?_symbol hx, value?_symbol hy, value?_symbol hz,
    value?_symbol hw, Option.bind_eq_bind, Option.bind_some]

theorem decodeLast?_full (hx : x < 64) (hy : y < 64) (hz : z < 64) (hw : w < 64) :
    decodeLast? (symbol x) (symbol y) (symbol z) (symbol w) =
      decodeGroup? (symbol x) (symbol y) (symbol z) (symbol w) := by
  simp only [decodeLast?, decodeGroup?, value?_symbol hx, value?_symbol hy, value?_symbol hz,
    if_neg (symbol_ne_pad hz), if_neg (symbol_ne_pad hw), Option.bind_eq_bind, Option.bind_some]

end Groups

theorem ofNat_eq {n : Nat} {a : UInt8} (h : n = a.toNat) : UInt8.ofNat n = a := by
  rw [h, UInt8.ofNat_toNat]

theorem decode?_encode (bytes : List UInt8) : decode? (encode bytes) = some bytes := by
  induction bytes using encode.induct with
  | case1 => rfl
  | case2 a =>
      have := a.toNat_lt
      rw [encode, decode?, decodeLast?_one (by omega) (by omega) (by omega)]
      congr 2
      exact ofNat_eq (by omega)
  | case3 a b =>
      have := a.toNat_lt
      have := b.toNat_lt
      rw [encode, decode?, decodeLast?_two (by omega) (by omega) (by omega) (by omega)]
      congr 2
      · exact ofNat_eq (by omega)
      · congr 1
        exact ofNat_eq (by omega)
  | case4 a b c rest ih =>
      have := a.toNat_lt
      have := b.toNat_lt
      have := c.toNat_lt
      have hgroup : decodeGroup? (symbol (a.toNat / 4)) (symbol (a.toNat % 4 * 16 + b.toNat / 16))
          (symbol (b.toNat % 16 * 4 + c.toNat / 64)) (symbol (c.toNat % 64)) = some [a, b, c] := by
        rw [decodeGroup?_symbols (by omega) (by omega) (by omega) (by omega)]
        congr 2
        · exact ofNat_eq (by omega)
        · congr 1
          · exact ofNat_eq (by omega)
          · congr 1
            exact ofNat_eq (by omega)
      rw [encode]
      cases hrest : encode rest with
      | nil =>
          rw [encode_eq_nil_iff.mp hrest, decode?,
            decodeLast?_full (by omega) (by omega) (by omega) (by omega), hgroup]
      | cons next others =>
          rw [hrest] at ih
          rw [decode?, hgroup, ih]
          · rfl
          · intro hnil
            cases hnil

end Base64

namespace Utf8

theorem lead?_two : ∀ n < 32, 2 ≤ n → lead? (0xc0 + n) = some ⟨n, 1, 0x80, 0xbf⟩ := by
  decide

theorem lead?_three : ∀ n < 16, lead? (0xe0 + n) =
    some ⟨n, 2, if n = 0 then 0xa0 else 0x80, if n = 13 then 0x9f else 0xbf⟩ := by
  decide

theorem lead?_four : ∀ n < 5, lead? (0xf0 + n) =
    some ⟨n, 3, if n = 0 then 0x90 else 0x80, if n = 4 then 0x8f else 0xbf⟩ := by
  decide

theorem toNat_ofNat {n : Nat} (h : n < 256) : (UInt8.ofNat n).toNat = n := by
  rw [UInt8.toNat_ofNat', Nat.mod_eq_of_lt h]

theorem follow_cons {value low high n : Nat} (hn : n < 64) (hlow : low ≤ 0x80 + n)
    (hhigh : 0x80 + n ≤ high) (count : Nat) (rest : List UInt8) :
    follow value low high (count + 1) (.ofNat (0x80 + n) :: rest) =
      follow (value * 64 + n) 0x80 0xbf count rest := by
  rw [follow, toNat_ofNat (by omega), if_pos ⟨hlow, hhigh⟩, Nat.add_sub_cancel_left]

theorem piece_lead {byte value following low high : Nat} (hbyte : byte < 256)
    (hbegins : 0x80 ≤ byte) (hlead : lead? byte = some ⟨value, following, low, high⟩)
    (rest : List UInt8) :
    piece (.ofNat byte) rest =
      ((follow value low high following rest).1.map Char.ofNat,
        (follow value low high following rest).2) := by
  rw [piece, toNat_ofNat hbyte, if_neg (Nat.not_lt_of_le hbegins), hlead]

theorem toNat_cases (c : Char) : c.toNat < 0xd800 ∨ 0xdfff < c.toNat ∧ c.toNat < 0x110000 :=
  c.valid

theorem pieces_encodeChar (c : Char) (rest : List UInt8) :
    pieces (encodeChar c ++ rest) = some c :: pieces rest := by
  have hc : Char.ofNat c.toNat = c := c.ofNat_toNat
  have hcases := toNat_cases c
  generalize hcode : c.toNat = code at hc hcases
  rw [encodeChar, hcode]
  by_cases hone : code < 0x80
  · rw [if_pos hone, List.singleton_append, pieces_cons, piece, toNat_ofNat (by omega),
      if_pos hone, hc]
  rw [if_neg hone]
  by_cases htwo : code < 0x800
  · have hlead := lead?_two (code / 64) (by omega) (by omega)
    rw [if_pos htwo, List.cons_append, List.singleton_append, pieces_cons,
      piece_lead (by omega) (by omega) hlead, follow_cons (by omega) (by omega) (by omega), follow,
      Nat.div_add_mod', Option.map_some, hc]
  rw [if_neg htwo]
  by_cases hthree : code < 0x10000
  · have hlead := lead?_three (code / 4096) (by omega)
    have hvalue : (code / 4096 * 64 + code / 64 % 64) * 64 + code % 64 = code := by omega
    rw [if_pos hthree, List.cons_append, List.cons_append, List.singleton_append, pieces_cons,
      piece_lead (by omega) (by omega) hlead,
      follow_cons (by omega) (by split <;> omega) (by split <;> omega),
      follow_cons (by omega) (by omega) (by omega), follow, hvalue, Option.map_some, hc]
  · have hlead := lead?_four (code / 262144) (by omega)
    have hvalue : ((code / 262144 * 64 + code / 4096 % 64) * 64 + code / 64 % 64) * 64
        + code % 64 = code := by omega
    rw [if_neg hthree, List.cons_append, List.cons_append, List.cons_append,
      List.singleton_append, pieces_cons, piece_lead (by omega) (by omega) hlead,
      follow_cons (by omega) (by split <;> omega) (by split <;> omega),
      follow_cons (by omega) (by omega) (by omega), follow_cons (by omega) (by omega) (by omega),
      follow, hvalue, Option.map_some, hc]

theorem pieces_encode (cs : List Char) : pieces (encode cs) = cs.map some := by
  induction cs with
  | nil => simp
  | cons c cs ih => rw [encode_cons, pieces_encodeChar, ih, List.map_cons]

theorem decode?_encode (cs : List Char) : decode? (encode cs) = some cs := by
  simp [decode?, pieces_encode, List.filterMap_map]

end Utf8

end Text

namespace Payload

theorem isBlank_encodeChars (cs : List Char) :
    ∀ c ∈ encodeChars cs, Text.isBlank c = false := by
  apply Text.Base64.forall_mem_encode
  · decide
  · decide

theorem trimChars_encodeChars (cs : List Char) :
    Text.trimChars (encodeChars cs) = encodeChars cs :=
  Text.trimChars_of_visible (isBlank_encodeChars cs)

theorem decode_encode (text : String) : decode (encode text) = .ok text := by
  rw [decode, encode, String.toList_ofList, trimChars_encodeChars, encodeChars,
    Text.Base64.decode?_encode]
  dsimp only
  rw [Text.Utf8.decode?_encode]
  dsimp only
  rw [String.ofList_toList]

end Payload

end ScriptDebugger
