import Mathlib.Data.String.Basic

/-!
Offsets in bytes.  A text can be cut where a character begins and at its end, nowhere else.  The
first place of a pattern is such an offset, and so is every offset that a piece of the text, taken
from its beginning, has for its length.
-/

namespace ScriptDebugger.Text

open String (utf8Len utf8Len_cons utf8Len_append)

abbrev IsCut (s : String) (offset : Nat) : Prop :=
  String.Pos.Raw.IsValid s ⟨offset⟩

/-- The text between two offsets.  There is none when one of them lies inside a character or behind
the end, or when they stand the wrong way round. -/
def slice? (s : String) (first last : Nat) : Option String :=
  if IsCut s first ∧ IsCut s last ∧ first ≤ last then
    some (String.Pos.Raw.extract s ⟨first⟩ ⟨last⟩)
  else
    none

def findChars? (pattern : List Char) : List Char → Option Nat
  | [] => if pattern.isEmpty then some 0 else none
  | c :: rest =>
      if pattern.isPrefixOf (c :: rest) then some 0
      else (findChars? pattern rest).map (c.utf8Size + ·)

def find? (s pattern : String) : Option Nat :=
  findChars? pattern.toList s.toList

theorem find?_ofList (text : List Char) (pattern : String) :
    find? (String.ofList text) pattern = findChars? pattern.toList text := by
  rw [find?, String.toList_ofList]

theorem isCut_of_append {s : String} {before behind : List Char}
    (h : s.toList = before ++ behind) : IsCut s (utf8Len before) := by
  refine String.Pos.Raw.isValid_iff_exists_append.mpr
    ⟨String.ofList before, String.ofList behind, ?_, ?_⟩
  · rw [← String.ofList_append, ← h, String.ofList_toList]
  · rw [← String.utf8ByteSize_ofList]
    rfl

theorem slice?_of_append {s : String} {before piece behind : List Char} {first last : Nat}
    (h : s.toList = before ++ (piece ++ behind)) (hfirst : first = utf8Len before)
    (hlast : last = first + utf8Len piece) :
    slice? s first last = some (String.ofList piece) := by
  rw [← List.append_assoc] at h
  have hstart : IsCut s first := hfirst ▸ isCut_of_append (h.trans (List.append_assoc _ _ _))
  have hend : IsCut s last := by
    rw [hlast, hfirst, ← utf8Len_append]
    exact isCut_of_append h
  have hs : s = String.ofList (before ++ piece ++ behind) := by rw [← h, String.ofList_toList]
  rw [slice?, if_pos ⟨hstart, hend, hlast ▸ Nat.le_add_right _ _⟩, hlast, hfirst, hs,
    String.extract_of_valid]

theorem slice?_end {s : String} {before behind : List Char} {first : Nat}
    (h : s.toList = before ++ behind) (hfirst : first = utf8Len before) :
    slice? s first s.utf8ByteSize = some (String.ofList behind) := by
  refine slice?_of_append (h.trans (congrArg _ (List.append_nil _).symm)) hfirst ?_
  rw [← String.utf8Len_toList, h, utf8Len_append, hfirst]

theorem findChars?_eq_none {pattern text : List Char} (h : ¬ pattern <:+: text) :
    findChars? pattern text = none := by
  induction text with
  | nil =>
      cases pattern with
      | nil => exact absurd List.nil_infix h
      | cons c pattern => rfl
  | cons c rest ih =>
      have hhere : pattern.isPrefixOf (c :: rest) = false :=
        Bool.eq_false_iff.mpr fun hprefix => h (List.isPrefixOf_iff_prefix.mp hprefix).isInfix
      rw [findChars?, hhere, if_neg Bool.false_ne_true, ih fun hinside => h (List.infix_cons hinside)]
      rfl

theorem findChars?_append {pattern before : List Char}
    (h : ¬ pattern <:+: before ++ pattern.dropLast) (behind : List Char) :
    findChars? pattern (before ++ (pattern ++ behind)) = some (utf8Len before) := by
  induction before with
  | nil =>
      cases pattern with
      | nil => exact absurd List.nil_infix h
      | cons c pattern =>
          have hhere : (c :: pattern).isPrefixOf (c :: (pattern ++ behind)) = true :=
            List.isPrefixOf_iff_prefix.mpr (List.prefix_append (c :: pattern) behind)
          rw [List.nil_append, List.cons_append, findChars?, if_pos hhere]
          rfl
  | cons c before ih =>
      rw [List.cons_append] at h
      have hlong : c :: (before ++ pattern.dropLast) <+: c :: (before ++ (pattern ++ behind)) :=
        List.cons_prefix_cons.mpr ⟨rfl, (List.prefix_append_right_inj before).mpr
          ((List.dropLast_prefix pattern).trans (List.prefix_append pattern behind))⟩
      have hhere : pattern.isPrefixOf (c :: (before ++ (pattern ++ behind))) = false := by
        refine Bool.eq_false_iff.mpr fun hprefix => h (List.IsPrefix.isInfix ?_)
        refine List.prefix_of_prefix_length_le (List.isPrefixOf_iff_prefix.mp hprefix) hlong ?_
        simp only [List.length_cons, List.length_append, List.length_dropLast]
        omega
      rw [List.cons_append, findChars?, hhere, if_neg Bool.false_ne_true,
        ih fun hinside => h (List.infix_cons hinside), utf8Len_cons, Nat.add_comm]
      rfl

end ScriptDebugger.Text
