import Mathlib.Data.List.TakeWhile
import ScriptDebugger.Text.Blank
import ScriptDebugger.Text.Numeral

namespace ScriptDebugger.Text

theorem trimEnd_eq_self {cs : List Char} (h : ∀ c ∈ cs.getLast?, isBlank c = false) :
    trimEnd cs = cs := by
  rcases List.eq_nil_or_concat cs with rfl | ⟨before, c, rfl⟩
  · rfl
  · rw [List.concat_eq_append] at h ⊢
    exact trimEnd_append_visible (h c (by simp)) before

theorem trimStart_eq_self {cs : List Char} (h : ∀ c ∈ cs.head?, isBlank c = false) :
    trimStart cs = cs := by
  cases cs with
  | nil => rfl
  | cons c rest => exact trimStart_cons_visible (h c rfl) rest

theorem trimChars_eq_self {cs : List Char} (hfirst : ∀ c ∈ cs.head?, isBlank c = false)
    (hlast : ∀ c ∈ cs.getLast?, isBlank c = false) : trimChars cs = cs := by
  rw [trimChars, trimStart_eq_self hfirst, trimEnd_eq_self hlast]

theorem trimChars_of_visible {cs : List Char} (h : ∀ c ∈ cs, isBlank c = false) :
    trimChars cs = cs :=
  trimChars_eq_self (fun c hc => h c (List.mem_of_mem_head? hc))
    fun c hc => h c (List.mem_of_getLast? hc)

theorem trimEnd_append {rest : List Char} (h : trimEnd rest ≠ []) (cs : List Char) :
    trimEnd (cs ++ rest) = cs ++ trimEnd rest := by
  have hdrop : (rest.reverse.dropWhile isBlank).isEmpty = false := by
    simpa [trimEnd, List.isEmpty_eq_false_iff] using h
  rw [trimEnd, List.reverse_append, List.dropWhile_append, hdrop, if_neg (by decide),
    List.reverse_append, List.reverse_reverse, trimEnd]

theorem exists_eq_trimEnd_append (cs : List Char) :
    ∃ blanks, cs = trimEnd cs ++ blanks ∧ ∀ c ∈ blanks, isBlank c = true := by
  refine ⟨(cs.reverse.takeWhile isBlank).reverse, ?_, ?_⟩
  · rw [trimEnd, ← List.reverse_append, List.takeWhile_append_dropWhile, List.reverse_reverse]
  · intro c hc
    exact List.all_eq_true.mp List.all_takeWhile c (List.mem_reverse.mp hc)

theorem trimChars_infix (cs : List Char) : trimChars cs <:+: cs := by
  obtain ⟨blanks, hblanks, _⟩ := exists_eq_trimEnd_append (trimStart cs)
  have hstart : trimChars cs <+: trimStart cs := ⟨blanks, hblanks.symm⟩
  exact hstart.isInfix.trans (List.dropWhile_suffix _).isInfix

theorem isBlank_of_getLast_trimChars (cs : List Char) :
    ∀ c ∈ (trimChars cs).getLast?, isBlank c = false := by
  intro c hc
  have hhead := List.head?_dropWhile_not isBlank (trimStart cs).reverse
  rw [trimChars, trimEnd, List.getLast?_reverse] at hc
  rw [Option.mem_def.mp hc] at hhead
  exact hhead

theorem isBlank_of_head_trimChars (cs : List Char) :
    ∀ c ∈ (trimChars cs).head?, isBlank c = false := by
  intro c hc
  have hhead := List.head?_dropWhile_not isBlank cs
  obtain ⟨blanks, hblanks, _⟩ := exists_eq_trimEnd_append (trimStart cs)
  have hstart : (trimStart cs).head? = some c := by
    rw [hblanks, List.head?_append]
    rw [trimChars, Option.mem_def] at hc
    rw [hc]
    rfl
  rw [← trimStart, hstart] at hhead
  exact hhead

theorem trimChars_trimChars (cs : List Char) : trimChars (trimChars cs) = trimChars cs :=
  trimChars_eq_self (isBlank_of_head_trimChars cs) (isBlank_of_getLast_trimChars cs)

theorem trim_trim (s : String) : trim (trim s) = trim s := by
  rw [trim, toList_trim, trimChars_trimChars, trim]

theorem trimStart_append {cs rest : List Char} (h : trimStart cs ≠ []) :
    trimStart (cs ++ rest) = trimStart cs ++ rest := by
  induction cs with
  | nil => exact absurd rfl h
  | cons c cs ih =>
      cases hblank : isBlank c with
      | true =>
          rw [trimStart_cons_blank hblank] at h ⊢
          rw [List.cons_append, trimStart_cons_blank hblank, ih h]
      | false =>
          rw [trimStart_cons_visible hblank, List.cons_append, trimStart_cons_visible hblank]

theorem exists_trimChars_append {cs : List Char} (h : trimChars cs ≠ []) :
    ∃ blanks, (∀ c ∈ blanks, isBlank c = true) ∧
      ∀ rest c, isBlank c = false →
        trimChars (cs ++ (rest ++ [c])) = trimChars cs ++ (blanks ++ (rest ++ [c])) := by
  have hstart : trimStart cs ≠ [] := fun hnil => h (by rw [trimChars, hnil]; rfl)
  obtain ⟨blanks, hblanks, hallBlank⟩ := exists_eq_trimEnd_append (trimStart cs)
  refine ⟨blanks, hallBlank, fun rest c hc => ?_⟩
  calc trimChars (cs ++ (rest ++ [c]))
      = trimEnd ((trimStart cs ++ rest) ++ [c]) := by
        rw [trimChars, trimStart_append hstart, List.append_assoc]
    _ = trimStart cs ++ (rest ++ [c]) := by
        rw [trimEnd_append_visible hc, List.append_assoc]
    _ = (trimChars cs ++ blanks) ++ (rest ++ [c]) := congrArg (· ++ (rest ++ [c])) hblanks
    _ = trimChars cs ++ (blanks ++ (rest ++ [c])) := List.append_assoc _ _ _

theorem isBlank_of_trimChars_eq_nil {cs : List Char} (h : trimChars cs = []) :
    ∀ c ∈ cs, isBlank c = true := by
  obtain ⟨blanks, hblanks, hall⟩ := exists_eq_trimEnd_append (trimStart cs)
  rw [← trimChars, h, List.nil_append] at hblanks
  have hstart : trimStart cs = [] := by
    cases hrest : trimStart cs with
    | nil => rfl
    | cons c rest =>
        have hvisible := List.head?_dropWhile_not isBlank cs
        rw [← trimStart, hrest] at hvisible
        have hblank := hall c (by rw [← hblanks, hrest]; exact List.mem_cons_self)
        simp [hblank] at hvisible
  exact List.dropWhile_eq_nil_iff.mp hstart

theorem isBlank_digits (n : Nat) : ∀ c ∈ digits n, isBlank c = false :=
  forall_mem_digits (by decide) n

theorem trim_numeral (n : Nat) : trim (numeral n) = numeral n := by
  rw [trim, numeral, String.toList_ofList, trimChars_of_visible (isBlank_digits n)]

def blankNumbers : List Nat :=
  [9, 10, 11, 12, 13, 0x20, 0x85, 0xa0, 0x1680, 0x2000, 0x2001, 0x2002, 0x2003, 0x2004, 0x2005,
    0x2006, 0x2007, 0x2008, 0x2009, 0x200a, 0x2028, 0x2029, 0x202f, 0x205f, 0x3000]

theorem exists_of_isBlank {c : Char} (h : isBlank c = true) :
    ∃ n ∈ blankNumbers, c = Char.ofNat n := by
  refine ⟨c.toNat, ?_, (Char.ofNat_toNat c).symm⟩
  simp only [isBlank, Bool.or_eq_true, Bool.and_eq_true, decide_eq_true_eq, beq_iff_eq] at h
  simp only [blankNumbers, List.mem_cons, List.not_mem_nil, or_false]
  omega

end ScriptDebugger.Text
