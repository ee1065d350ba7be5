import ScriptDebugger.Proofs.Property.AccessPath
import ScriptDebugger.Proofs.Session.Assignment
import ScriptDebugger.Script.Basic

namespace ScriptDebugger

namespace Script

/-- The words that stand for one value each, and for no variable. -/
def valueWords : List String :=
  ["true", "false", "null", "undefined"]

def wordNumber? (name : String) : Option Number :=
  Number.readWord? false (String.ofList (name.toList.map Char.toLower))

def isInitial (c : Char) : Bool :=
  c == '_' || Text.isLetter c

section Characters

variable {c : Char} {cs : List Char}

theorem ne_of_isInitial (h : isInitial c = true) : ∀ other ∈ ['-', '+', '.', '"'], c ≠ other := by
  have hnone : ['-', '+', '.', '"'].all (fun other => !isInitial other) = true := by
    decide +kernel
  rintro other hmem rfl
  have hother := List.all_eq_true.mp hnone c hmem
  rw [h] at hother
  cases hother

theorem isDigit_of_isInitial (h : isInitial c = true) : Text.isDigit c = false := by
  have hnone : ∀ n < 10, isInitial (Char.ofNat (48 + n)) = false := by decide +kernel
  cases hdigit : Text.isDigit c with
  | false => rfl
  | true =>
      rw [Text.isDigit, Text.digitValue?] at hdigit
      split at hdigit
      · rename_i hrange
        have hchar : c = Char.ofNat (48 + (c.toNat - 48)) := by
          rw [Nat.add_sub_of_le hrange.1, Char.ofNat_toNat]
        rw [hchar, hnone _ (by omega)] at h
        cases h
      · cases hdigit

theorem exists_initial (h : isIdentifierChars cs = true) :
    ∃ c rest, cs = c :: rest ∧ isInitial c = true ∧ ∀ other ∈ cs, Path.isNameChar other = true := by
  cases cs with
  | nil => cases h
  | cons c rest =>
      obtain ⟨hfirst, hrest⟩ := Bool.and_eq_true_iff.mp h
      refine ⟨c, rest, rfl, hfirst, List.forall_mem_cons.mpr ⟨?_, fun other hother => ?_⟩⟩
      · rcases Bool.or_eq_true_iff.mp hfirst with hunderscore | hletter
        · rw [Path.isNameChar, hunderscore, Bool.true_or, Bool.true_or]
        · rw [Path.isNameChar, Text.isLetterOrNumber_of_isLetter hletter, Bool.or_true]
      · rcases Bool.or_eq_true_iff.mp (List.all_eq_true.mp hrest other hother) with
          hunderscore | hletter
        · rw [Path.isNameChar, hunderscore, Bool.true_or, Bool.true_or]
        · rw [Path.isNameChar, hletter, Bool.or_true]

theorem trimChars_of_identifier (h : isIdentifierChars cs = true) : Text.trimChars cs = cs := by
  obtain ⟨_, _, _, _, hnames⟩ := exists_initial h
  refine Text.trimChars_of_visible fun c hc => Bool.eq_false_iff.mpr fun hblank => ?_
  cases (Path.isNameChar_of_isBlank hblank).symm.trans (hnames c hc)

theorem readLiteral?_of_identifier (h : isIdentifierChars cs = true) :
    Number.readLiteral? cs =
      Number.readWord? false (String.ofList (cs.map Char.toLower)) := by
  obtain ⟨c, rest, rfl, hfirst, _⟩ := exists_initial h
  have hne := ne_of_isInitial hfirst
  have hunsigned : Number.readLiteral? (c :: rest) = Number.readUnsigned? false (c :: rest) := by
    unfold Number.readLiteral?
    split
    · rename_i heq
      exact absurd (List.cons.inj heq).1 (hne '-' (by decide))
    · rename_i heq
      exact absurd (List.cons.inj heq).1 (hne '+' (by decide))
    · rfl
  have hmagnitude : Number.readMagnitude? false (c :: rest) = none := by
    have hspan : Number.spanDigits (c :: rest) = ([], c :: rest) := by
      rw [Number.spanDigits, List.takeWhile_cons_of_neg, List.dropWhile_cons_of_neg]
      · exact Bool.eq_false_iff.mp (isDigit_of_isInitial hfirst)
      · exact Bool.eq_false_iff.mp (isDigit_of_isInitial hfirst)
    have hfraction : Number.spanFraction (c :: rest) = ([], c :: rest) := by
      unfold Number.spanFraction
      split
      · rename_i heq
        exact absurd (List.cons.inj heq).1 (hne '.' (by decide))
      · rfl
    unfold Number.readMagnitude?
    rw [hspan]
    dsimp only
    rw [hfraction]
    rfl
  rw [hunsigned, Number.readUnsigned?, hmagnitude]
  split
  · rename_i hword
    exact hword.symm
  · rename_i hword
    exact hword.symm

end Characters

section Names

variable {name : String}

theorem literal?_of_identifier (h : isIdentifier name = true) (hname : name ∉ valueWords) :
    literal? name.toList = (wordNumber? name).map Value.number := by
  obtain ⟨c, rest, hchars, hfirst, _⟩ := exists_initial h
  have hquoted : quotedText? name.toList = none := by
    rw [hchars]
    unfold quotedText?
    split
    · rename_i heq
      exact absurd (List.cons.inj heq).1 (ne_of_isInitial hfirst '"' (by decide))
    · rfl
  simp only [valueWords, List.mem_cons, List.not_mem_nil, or_false, not_or] at hname
  rw [literal?, readLiteral?_of_identifier h, ← wordNumber?]
  cases wordNumber? name with
  | some number => rfl
  | none =>
      dsimp only
      rw [hquoted]
      simp [hname]

theorem evaluate_of_word (h : isIdentifier name = true) (hname : name ∉ valueWords)
    {number : Number} (hword : wordNumber? name = some number) (globals : ObjectId) (heap : Heap)
    (frame : Option Frame) : evaluate globals heap name frame = .ok (.number number) := by
  rw [evaluate, trimChars_of_identifier h, literal?_of_identifier h hname, hword]
  rfl

theorem evaluate_of_lookup (h : isIdentifier name = true) (hname : name ∉ valueWords)
    (hword : wordNumber? name = none) {globals : ObjectId} {heap : Heap} {frame : Option Frame}
    {value : Value}
    (hlookup : Host.lookup heap (.name name) (Host.scopes (some globals) frame) =
      .ok (some value)) : evaluate globals heap name frame = .ok value := by
  rw [evaluate, trimChars_of_identifier h, literal?_of_identifier h hname, hword, Option.map_none]
  dsimp only
  have hchars : isIdentifierChars name.toList = true := h
  rw [if_pos hchars, String.ofList_toList, hlookup]
  rfl

theorem read?_of_identifier (h : isIdentifier name = true) :
    Path.read? name = some [.name name] := by
  obtain ⟨c, rest, hchars, _, hnames⟩ := exists_initial h
  have hid : ∀ id ∈ [PropertyId.name name], id.IsIdentifier := by
    refine List.forall_mem_singleton.mpr ⟨?_, ?_⟩
    · intro heq
      rw [PropertyId.name.inj heq] at hchars
      cases hchars
    · exact List.all_eq_true.mpr hnames
  have hread := Path.read?_ofIds hid
  exact hread

end Names

theorem isFound_of_literal? {cs : List Char} {value : Value} (h : literal? cs = some value) :
    value.isFound = true := by
  unfold literal? at h
  split at h
  · cases h
    rfl
  · split at h
    · cases h
      rfl
    · split at h <;> cases h <;> rfl

theorem isFound_of_lookup {heap : Heap} {id : PropertyId} {scopes : List ObjectId} {value : Value}
    (h : Host.lookup heap id scopes = .ok (some value)) : value.isFound = true := by
  induction scopes with
  | nil => cases h
  | cons scope outer ih =>
      obtain ⟨found, hget, hrest⟩ := bind_eq_ok.mp h
      split at hrest
      · rename_i hfound
        cases hrest
        exact hfound
      · exact ih hrest

theorem isFound_of_evaluate {globals : ObjectId} {heap : Heap} {expression : String}
    {frame : Option Frame} {value : Value}
    (h : evaluate globals heap expression frame = .ok value) : value.isFound = true := by
  unfold evaluate at h
  dsimp only at h
  split at h
  · rename_i hliteral
    cases h
    exact isFound_of_literal? hliteral
  · split at h
    · obtain ⟨found, hlookup, hrest⟩ := bind_eq_ok.mp h
      split at hrest
      · cases hrest
        exact isFound_of_lookup hlookup
      · cases hrest
    · cases h

end Script

end ScriptDebugger
