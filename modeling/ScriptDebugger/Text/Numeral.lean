namespace ScriptDebugger.Text

def digitValue? (c : Char) : Option Nat :=
  if 48 ≤ c.toNat ∧ c.toNat ≤ 57 then some (c.toNat - 48) else none

def isDigit (c : Char) : Bool :=
  (digitValue? c).isSome

def digitChar (value : Nat) : Char :=
  Char.ofNat (48 + value)

def digits (n : Nat) : List Char :=
  if _h : n < 10 then [digitChar n] else digits (n / 10) ++ [digitChar (n % 10)]
termination_by n

def digitCount (n : Nat) : Nat :=
  if _h : n < 10 then 1 else digitCount (n / 10) + 1
termination_by n

def numeral (n : Nat) : String :=
  String.ofList (digits n)

def readDigitsFrom (value : Nat) : List Char → Option Nat
  | [] => some value
  | c :: rest => do
    let digit ← digitValue? c
    readDigitsFrom (value * 10 + digit) rest

def valueFrom (value : Nat) (ds : List Nat) : Nat :=
  ds.foldl (fun value digit => value * 10 + digit) value

/-- The value of digits.  A long list is cut in halves, as often as `levels` says, because long
numbers are joined at less cost than digits are added to them. -/
def valueByHalves : Nat → List Nat → Nat
  | 0, ds => valueFrom 0 ds
  | levels + 1, ds =>
      if ds.length ≤ 32 then valueFrom 0 ds
      else
        let half := ds.length / 2
        valueByHalves levels (ds.take half) * Nat.pow 10 (ds.drop half).length
          + valueByHalves levels (ds.drop half)

def readDigits? : List Char → Option Nat
  | [] => none
  | cs => (cs.mapM digitValue?).map (valueByHalves 16)

/-- An unsigned numeral below `bound`, with or without a plus sign. -/
def readNumeral? (bound : Nat) (cs : List Char) : Option Nat := do
  let value ← match cs with
    | '+' :: rest => readDigits? rest
    | _ => readDigits? cs
  if value < bound then some value else none

def bound16 : Nat := 65536

def bound32 : Nat := 4294967296

def bound64 : Nat := 18446744073709551616

theorem readDigitsFrom_append (value : Nat) (first second : List Char) :
    readDigitsFrom value (first ++ second) =
      (readDigitsFrom value first).bind fun middle => readDigitsFrom middle second := by
  induction first generalizing value with
  | nil => rfl
  | cons c rest ih =>
      cases hdigit : digitValue? c with
      | none => simp [readDigitsFrom, hdigit]
      | some digit => simpa [readDigitsFrom, hdigit] using ih (value * 10 + digit)

theorem valueFrom_eq (value : Nat) (ds : List Nat) :
    valueFrom value ds = value * Nat.pow 10 ds.length + valueFrom 0 ds := by
  induction ds generalizing value with
  | nil => simp [valueFrom]
  | cons digit rest ih =>
      have hstep (v : Nat) : valueFrom v (digit :: rest) = valueFrom (v * 10 + digit) rest := rfl
      rw [hstep, hstep, ih (value * 10 + digit), ih (0 * 10 + digit)]
      simp only [Nat.pow_eq, List.length_cons, Nat.pow_succ, Nat.add_mul, Nat.zero_mul,
        Nat.zero_add, Nat.mul_assoc, Nat.add_assoc]
      rw [Nat.mul_comm 10]

theorem valueFrom_append (value : Nat) (first second : List Nat) :
    valueFrom value (first ++ second) = valueFrom (valueFrom value first) second := by
  simp [valueFrom]

theorem valueByHalves_eq (levels : Nat) (ds : List Nat) :
    valueByHalves levels ds = valueFrom 0 ds := by
  induction levels generalizing ds with
  | zero => rfl
  | succ levels ih =>
      unfold valueByHalves
      split
      · rfl
      · simp only [ih]
        rw [← valueFrom_eq, ← valueFrom_append, List.take_append_drop]

theorem readDigitsFrom_eq (value : Nat) (cs : List Char) :
    readDigitsFrom value cs = (cs.mapM digitValue?).map (valueFrom value) := by
  induction cs generalizing value with
  | nil => rfl
  | cons c rest ih =>
      cases hdigit : digitValue? c with
      | none => simp [readDigitsFrom, hdigit]
      | some digit =>
          simp only [readDigitsFrom, hdigit, List.mapM_cons, Option.bind_eq_bind, Option.bind_some,
            ih, Option.pure_def]
          cases rest.mapM digitValue? <;> rfl

theorem readDigits?_eq {cs : List Char} (h : cs ≠ []) :
    readDigits? cs = readDigitsFrom 0 cs := by
  rw [readDigitsFrom_eq]
  cases cs with
  | nil => exact absurd rfl h
  | cons c rest =>
      simp only [readDigits?]
      congr 1
      funext ds
      exact valueByHalves_eq 16 ds

theorem digitValue?_digitChar {value : Nat} (h : value < 10) :
    digitValue? (digitChar value) = some value := by
  match value, h with
  | 0, _ | 1, _ | 2, _ | 3, _ | 4, _ | 5, _ | 6, _ | 7, _ | 8, _ | 9, _ => rfl

theorem readDigitsFrom_digits (n : Nat) : readDigitsFrom 0 (digits n) = some n := by
  induction n using Nat.strongRecOn with
  | _ n ih =>
    unfold digits
    split
    · rename_i hsmall
      simp [readDigitsFrom, digitValue?_digitChar hsmall]
    · rename_i hlarge
      rw [readDigitsFrom_append, ih (n / 10) (by omega)]
      simp [readDigitsFrom, digitValue?_digitChar (Nat.mod_lt n (by omega : 0 < 10))]
      omega

theorem digits_ne_nil (n : Nat) : digits n ≠ [] := by
  unfold digits
  split <;> simp

theorem exists_of_mem_digits {n : Nat} {c : Char} (h : c ∈ digits n) :
    ∃ value < 10, c = digitChar value := by
  fun_induction digits n with
  | case1 n hsmall => exact ⟨n, hsmall, List.mem_singleton.mp h⟩
  | case2 n hlarge ih =>
      rcases List.mem_append.mp h with h | h
      · exact ih h
      · exact ⟨n % 10, Nat.mod_lt n (by decide), List.mem_singleton.mp h⟩

theorem forall_mem_digits {p : Char → Prop} (h : ∀ value < 10, p (digitChar value)) (n : Nat) :
    ∀ c ∈ digits n, p c := by
  intro c hc
  obtain ⟨value, hvalue, rfl⟩ := exists_of_mem_digits hc
  exact h value hvalue

theorem digits_injective {m n : Nat} (h : digits m = digits n) : m = n := by
  have hread := readDigitsFrom_digits m
  rw [h, readDigitsFrom_digits] at hread
  exact (Option.some.inj hread).symm

theorem readNumeral?_digits {bound n : Nat} (h : n < bound) :
    readNumeral? bound (digits n) = some n := by
  have hplus : '+' ∉ digits n := fun hmem =>
    forall_mem_digits (p := (· ≠ '+')) (by decide) n '+' hmem rfl
  have hread : readDigits? (digits n) = some n := by
    rw [readDigits?_eq (digits_ne_nil n), readDigitsFrom_digits]
  unfold readNumeral?
  split
  · rename_i rest hdigits
    rw [hdigits] at hplus
    exact absurd List.mem_cons_self hplus
  · simp [hread, h]

end ScriptDebugger.Text
