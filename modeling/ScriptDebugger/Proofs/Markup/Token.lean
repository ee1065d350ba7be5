import ScriptDebugger.Markup

namespace ScriptDebugger

namespace Markup

section Many

variable {α : Type} {item? : List Char → Option (α × List Char)} {spell : α → List Char}

def many (item? : List Char → Option (α × List Char)) (cs : List Char) : List α × List Char :=
  match item? cs with
  | none => ([], cs)
  | some (item, rest) =>
      if rest.length < cs.length then
        let (items, left) := many item? rest
        (item :: items, left)
      else ([], cs)
termination_by cs.length

theorem many_none {cs : List Char} (h : item? cs = none) : many item? cs = ([], cs) := by
  rw [many, h]

theorem many_some {item : α} {cs rest : List Char} (h : item? cs = some (item, rest))
    (hlength : rest.length < cs.length) :
    many item? cs = (item :: (many item? rest).1, (many item? rest).2) := by
  rw [many, h]
  exact if_pos hlength

theorem many_flatMap {items : List α}
    (hitem : ∀ item ∈ items, ∀ rest, item? (spell item ++ rest) = some (item, rest))
    (hspell : ∀ item, spell item ≠ []) {rest : List Char} (hrest : item? rest = none) :
    many item? (items.flatMap spell ++ rest) = (items, rest) := by
  induction items with
  | nil => exact many_none hrest
  | cons item items ih =>
      have hhead := hitem item (List.mem_cons_self ..) (items.flatMap spell ++ rest)
      have hshorter : (items.flatMap spell ++ rest).length
          < (spell item ++ (items.flatMap spell ++ rest)).length := by
        have := List.length_pos_iff.mpr (hspell item)
        simp only [List.length_append]
        omega
      rw [List.flatMap_cons, List.append_assoc, many_some hhead hshorter,
        ih fun other hother => hitem other (List.mem_cons_of_mem _ hother)]

end Many

def isReserved (c : Char) : Bool :=
  c == '&' || c == '"' || c == '<' || c == '>'

def isNameChar (c : Char) : Bool :=
  !(isReserved c || c.isWhitespace || c == '=' || c == '/')

def isName (s : String) : Bool :=
  !s.toList.isEmpty && s.toList.all isNameChar

def char? : List Char → Option (Char × List Char)
  | '&' :: 'a' :: 'm' :: 'p' :: ';' :: rest => some ('&', rest)
  | '&' :: 'q' :: 'u' :: 'o' :: 't' :: ';' :: rest => some ('"', rest)
  | '&' :: 'l' :: 't' :: ';' :: rest => some ('<', rest)
  | '&' :: 'g' :: 't' :: ';' :: rest => some ('>', rest)
  | c :: rest => if isReserved c then none else some (c, rest)
  | [] => none

def name? (cs : List Char) : Option (String × List Char) :=
  let name := String.ofList (cs.takeWhile isNameChar)
  if isName name then some (name, cs.dropWhile isNameChar) else none

def attribute? : List Char → Option (Attribute × List Char)
  | ' ' :: cs =>
      match name? cs with
      | some (name, '=' :: '"' :: quoted) =>
          match many char? quoted with
          | (value, '"' :: rest) => some ((name, String.ofList value), rest)
          | _ => none
      | _ => none
  | _ => none

inductive Token where
  | char (c : Char)
  | opening (tag : String) (attributes : List Attribute)
  | single (tag : String) (attributes : List Attribute)
  | closing (tag : String)

def tag? (cs : List Char) : Option (Token × List Char) := do
  let (tag, rest) ← name? cs
  match many attribute? rest with
  | (attributes, '>' :: left) => some (.opening tag attributes, left)
  | (attributes, '/' :: '>' :: left) => some (.single tag attributes, left)
  | _ => none

def token? : List Char → Option (Token × List Char)
  | '<' :: '/' :: cs =>
      match name? cs with
      | some (tag, '>' :: rest) => some (.closing tag, rest)
      | _ => none
  | '<' :: cs => tag? cs
  | cs => (char? cs).map fun (c, rest) => (.char c, rest)

theorem escapeChar_plain {c : Char} (h : isReserved c = false) : escapeChar c = [c] := by
  simp only [isReserved, Bool.or_eq_false_iff, beq_eq_false_iff_ne] at h
  obtain ⟨⟨⟨hamp, hquote⟩, hless⟩, hgreater⟩ := h
  rw [escapeChar, if_neg hamp, if_neg hquote, if_neg hless, if_neg hgreater]

theorem char?_plain {c : Char} (h : isReserved c = false) (rest : List Char) :
    char? (c :: rest) = some (c, rest) := by
  unfold char?
  split
  all_goals simp_all [isReserved]

theorem char?_escapeChar (c : Char) (rest : List Char) :
    char? (escapeChar c ++ rest) = some (c, rest) := by
  cases h : isReserved c with
  | false =>
      rw [escapeChar_plain h]
      exact char?_plain h rest
  | true =>
      simp only [isReserved, Bool.or_eq_true, beq_iff_eq] at h
      rcases h with ((rfl | rfl) | rfl) | rfl <;> rfl

theorem escapeChar_ne_nil (c : Char) : escapeChar c ≠ [] := by
  intro h
  have hread := char?_escapeChar c []
  rw [h] at hread
  cases hread

theorem many_char?_escape (cs rest : List Char) :
    many char? (escape cs ++ '"' :: rest) = (cs, '"' :: rest) :=
  many_flatMap (fun c _ => char?_escapeChar c) escapeChar_ne_nil rfl

theorem isName_toList {s : String} (h : isName s = true) : ∃ c cs, s.toList = c :: cs ∧
    ∀ d ∈ c :: cs, isNameChar d = true := by
  simp only [isName, Bool.and_eq_true, Bool.not_eq_true', List.isEmpty_eq_false_iff] at h
  obtain ⟨hne, hall⟩ := h
  obtain ⟨c, cs, hcs⟩ := List.exists_cons_of_ne_nil hne
  exact ⟨c, cs, hcs, fun d hd => List.all_eq_true.mp hall d (hcs ▸ hd)⟩

theorem name?_append {s : String} (hs : isName s = true) {rest : List Char}
    (hrest : ∀ c ∈ rest.head?, isNameChar c = false) :
    name? (s.toList ++ rest) = some (s, rest) := by
  obtain ⟨c, cs, hcs, hall⟩ := isName_toList hs
  have htake : (s.toList ++ rest).takeWhile isNameChar = s.toList := by
    rw [hcs, List.takeWhile_append_of_pos hall]
    cases rest with
    | nil => simp
    | cons d rest => simp [hrest d rfl]
  have hdrop : (s.toList ++ rest).dropWhile isNameChar = rest := by
    rw [hcs, List.dropWhile_append_of_pos hall]
    cases rest with
    | nil => simp
    | cons d rest => simp [hrest d rfl]
  simp [name?, htake, hdrop, hs]

theorem attribute?_renderAttribute {a : Attribute} (h : isName a.1 = true) (rest : List Char) :
    attribute? (renderAttribute a ++ rest) = some (a, rest) := by
  have hname : name? (a.1.toList ++ '=' :: '"' :: (escape a.2.toList ++ '"' :: rest)) =
      some (a.1, '=' :: '"' :: (escape a.2.toList ++ '"' :: rest)) :=
    name?_append h (by simp; decide)
  simp [renderAttribute, attribute?, hname, many_char?_escape]

theorem many_attribute?_render {attributes : List Attribute}
    (h : attributes.all (fun a => isName a.1) = true) {rest : List Char}
    (hrest : attribute? rest = none) :
    many attribute? (attributes.flatMap renderAttribute ++ rest) = (attributes, rest) := by
  apply many_flatMap _ _ hrest
  · intro a ha
    exact attribute?_renderAttribute (List.all_eq_true.mp h a ha)
  · simp [renderAttribute]

namespace Token

def spelling : Token → List Char
  | char c => escapeChar c
  | opening tag attributes => '<' :: tag.toList ++ attributes.flatMap renderAttribute ++ ['>']
  | single tag attributes =>
      '<' :: tag.toList ++ attributes.flatMap renderAttribute ++ ['/', '>']
  | closing tag => '<' :: '/' :: tag.toList ++ ['>']

def isPlain : Token → Bool
  | char _ => true
  | opening tag attributes | single tag attributes =>
      isName tag && attributes.all fun a => isName a.1
  | closing tag => isName tag

theorem spelling_ne_nil (token : Token) : token.spelling ≠ [] := by
  cases token with
  | char c => exact escapeChar_ne_nil c
  | opening tag attributes => simp [spelling]
  | single tag attributes => simp [spelling]
  | closing tag => simp [spelling]

end Token

theorem token?_of_head {cs : List Char} (h : cs.head? ≠ some '<') :
    token? cs = (char? cs).map fun (c, rest) => (.char c, rest) := by
  unfold token?
  split
  · exact absurd rfl h
  · exact absurd rfl h
  · rfl

theorem head?_escapeChar (c : Char) (rest : List Char) :
    (escapeChar c ++ rest).head? ≠ some '<' := by
  cases h : isReserved c with
  | false =>
      rw [escapeChar_plain h]
      rintro ⟨⟩
      cases h
  | true =>
      simp only [isReserved, Bool.or_eq_true, beq_iff_eq] at h
      rcases h with ((rfl | rfl) | rfl) | rfl <;> simp [escapeChar]

section Tags

variable {tag : String} {attributes : List Attribute} {rest : List Char}

theorem name?_tag (htag : isName tag = true) (hrest : ∀ c ∈ rest.head?, isNameChar c = false) :
    name? (tag.toList ++ (attributes.flatMap renderAttribute ++ rest)) =
      some (tag, attributes.flatMap renderAttribute ++ rest) := by
  apply name?_append htag
  cases attributes with
  | nil => exact hrest
  | cons a attributes => simp [renderAttribute]; decide

theorem tag?_opening (htag : isName tag = true)
    (hattributes : attributes.all (fun a => isName a.1) = true) :
    tag? (tag.toList ++ (attributes.flatMap renderAttribute ++ '>' :: rest)) =
      some (.opening tag attributes, rest) := by
  have hname : name? (tag.toList ++ (attributes.flatMap renderAttribute ++ '>' :: rest)) =
      some (tag, attributes.flatMap renderAttribute ++ '>' :: rest) :=
    name?_tag htag (by simp; decide)
  have hmany : many attribute? (attributes.flatMap renderAttribute ++ '>' :: rest) =
      (attributes, '>' :: rest) :=
    many_attribute?_render hattributes rfl
  simp [tag?, hname, hmany]

theorem tag?_single (htag : isName tag = true)
    (hattributes : attributes.all (fun a => isName a.1) = true) :
    tag? (tag.toList ++ (attributes.flatMap renderAttribute ++ '/' :: '>' :: rest)) =
      some (.single tag attributes, rest) := by
  have hname : name? (tag.toList ++ (attributes.flatMap renderAttribute ++ '/' :: '>' :: rest)) =
      some (tag, attributes.flatMap renderAttribute ++ '/' :: '>' :: rest) :=
    name?_tag htag (by simp; decide)
  have hmany : many attribute? (attributes.flatMap renderAttribute ++ '/' :: '>' :: rest) =
      (attributes, '/' :: '>' :: rest) :=
    many_attribute?_render hattributes rfl
  simp [tag?, hname, hmany]

theorem token?_less (htag : isName tag = true) :
    token? ('<' :: (tag.toList ++ rest)) = tag? (tag.toList ++ rest) := by
  obtain ⟨c, cs, hcs, hall⟩ := isName_toList htag
  have hc : c ≠ '/' := by
    rintro rfl
    exact absurd (hall '/' (List.mem_cons_self ..)) (by decide)
  rw [hcs, List.cons_append]
  unfold token?
  split
  · rename_i heq
    cases heq
    exact absurd rfl hc
  · rename_i heq
    cases heq
    rfl
  · rename_i hless
    exact absurd rfl (hless _)

end Tags

theorem token?_spelling {token : Token} (h : token.isPlain = true) (rest : List Char) :
    token? (token.spelling ++ rest) = some (token, rest) := by
  cases token with
  | char c => simp [Token.spelling, token?_of_head (head?_escapeChar c rest), char?_escapeChar]
  | opening tag attributes =>
      simp only [Token.isPlain, Bool.and_eq_true] at h
      simp only [Token.spelling, List.cons_append, List.append_assoc, List.nil_append]
      rw [token?_less h.1, tag?_opening h.1 h.2]
  | single tag attributes =>
      simp only [Token.isPlain, Bool.and_eq_true] at h
      simp only [Token.spelling, List.cons_append, List.append_assoc, List.nil_append]
      rw [token?_less h.1, tag?_single h.1 h.2]
  | closing tag =>
      have hname : name? (tag.toList ++ '>' :: rest) = some (tag, '>' :: rest) :=
        name?_append h (by simp; decide)
      simp [Token.spelling, token?, hname]

theorem many_token?_spelling {tokens : List Token} (h : tokens.all Token.isPlain = true) :
    many token? (tokens.flatMap Token.spelling) = (tokens, []) := by
  rw [← List.append_nil (tokens.flatMap Token.spelling)]
  apply many_flatMap
  · intro token htoken
    exact token?_spelling (List.all_eq_true.mp h token htoken)
  · exact Token.spelling_ne_nil
  · rfl

end Markup

end ScriptDebugger
