import ScriptDebugger.Proofs.Text.Trim
import ScriptDebugger.Property.Path

/-!
Reading the path of a property back.  A path spells its ids one after the other, and an id can be
told from what follows it if it is an index or a name without points, brackets and blanks at its
ends.  Such a path is read as the ids that it was made of, unless it holds a character that no path
has; then it is no path.  Names that look like a piece of a path are not marked in any way.
-/

namespace ScriptDebugger

namespace Path

@[simp] theorem isNameChar_point : isNameChar '.' = false := by decide +kernel

@[simp] theorem isNameChar_bracket : isNameChar '[' = false := by decide +kernel

theorem isNameChar_of_isBlank {c : Char} (h : Text.isBlank c = true) : isNameChar c = false := by
  obtain ⟨n, hn, rfl⟩ := Text.exists_of_isBlank h
  revert n
  decide +kernel

def isMark (c : Char) : Bool :=
  c == '.' || c == '['

theorem isMark_eq_false {c : Char} : isMark c = false ↔ c ≠ '.' ∧ c ≠ '[' := by
  simp [isMark]

theorem isNameChar_of_isMark {c : Char} (h : isMark c = true) : isNameChar c = false := by
  simp only [isMark, Bool.or_eq_true, beq_iff_eq] at h
  rcases h with rfl | rfl
  · exact isNameChar_point
  · exact isNameChar_bracket

theorem isMark_of_isBlank {c : Char} (h : Text.isBlank c = true) : isMark c = false := by
  obtain ⟨n, hn, rfl⟩ := Text.exists_of_isBlank h
  revert n
  decide

theorem isMark_of_isNameChar {c : Char} (h : isNameChar c = true) : isMark c = false := by
  cases hmark : isMark c with
  | false => rfl
  | true => rw [isNameChar_of_isMark hmark] at h; cases h

end Path

namespace PropertyId

/-- What an id adds to the path of its owner. -/
def spelling : PropertyId → List Char
  | name s => '.' :: s.toList
  | index i => '[' :: (Text.digits i.toNat ++ [']'])

/-- Ids that a path tells apart from what stands around them. -/
def IsPlain : PropertyId → Prop
  | name s => s ≠ "" ∧ Text.trim s = s ∧ s.toList.any Path.isMark = false
  | index _ => True

instance (id : PropertyId) : Decidable id.IsPlain :=
  match id with
  | name _ => inferInstanceAs (Decidable (_ ∧ _ ∧ _))
  | index _ => inferInstanceAs (Decidable True)

theorem IsPlain.isMark_eq_false {s : String} (h : (name s).IsPlain) :
    ∀ c ∈ s.toList, Path.isMark c = false := by
  simpa using h.2.2

def isWord : PropertyId → Bool
  | name s => s.toList.all Path.isNameChar
  | index _ => true

@[simp] theorem toList_childPath (id : PropertyId) (parent : String) :
    (id.childPath parent).toList = parent.toList ++ id.spelling := by
  cases id with
  | name s => simp [childPath, spelling]
  | index i => simp [childPath, spelling, Text.numeral]

end PropertyId

namespace Path

/-- What a list of ids adds to a path. -/
def spelling (ids : List PropertyId) : List Char :=
  ids.flatMap PropertyId.spelling

@[simp] theorem spelling_nil : spelling [] = [] := rfl

@[simp] theorem spelling_cons (id : PropertyId) (rest : List PropertyId) :
    spelling (id :: rest) = id.spelling ++ spelling rest := rfl

@[simp] theorem toList_ofIds (first : String) (ids : List PropertyId) :
    (ofIds first ids).toList = first.toList ++ spelling ids := by
  induction ids generalizing first with
  | nil => simp [ofIds]
  | cons id rest ih =>
      calc (ofIds (id.childPath first) rest).toList
          = (id.childPath first).toList ++ spelling rest := ih (id.childPath first)
        _ = first.toList ++ spelling (id :: rest) := by simp

theorem head_spelling {ids : List PropertyId} : ∀ c ∈ (spelling ids).head?, isMark c = true := by
  cases ids with
  | nil => simp
  | cons id rest => cases id <;> simp [PropertyId.spelling, isMark]

section Reading

variable {ids : List PropertyId} {current : List Char}

theorem readFrom_nil (ids : List PropertyId) (current : List Char) :
    readFrom ids current [] = some (flush current ids).reverse := by
  rw [readFrom]

theorem readFrom_point (hcurrent : current ≠ []) (rest : List Char) :
    readFrom ids current ('.' :: rest) = readFrom (flush current ids) [] rest := by
  rw [readFrom, if_pos rfl, if_neg (by simpa using hcurrent)]

theorem readFrom_nameChar {c : Char} (hc : isNameChar c = true) (rest : List Char) :
    readFrom ids current (c :: rest) = readFrom ids (c :: current) rest := by
  obtain ⟨hpoint, hbracket⟩ := isMark_eq_false.mp (isMark_of_isNameChar hc)
  rw [readFrom, if_neg hpoint, if_neg hbracket, if_pos hc]

theorem readFrom_other {c : Char} (hc : isNameChar c = false) (hmark : isMark c = false)
    (rest : List Char) : readFrom ids current (c :: rest) = none := by
  obtain ⟨hpoint, hbracket⟩ := isMark_eq_false.mp hmark
  rw [readFrom, if_neg hpoint, if_neg hbracket, if_neg (by simp [hc])]

theorem readFrom_open {rest : List Char} (hrest : rest.dropWhile (· != ']') = []) :
    readFrom ids current ('[' :: rest) = none := by
  rw [readFrom, if_neg (by decide), if_pos rfl]
  split
  · rfl
  · rename_i hsome
    rw [hrest] at hsome
    cases hsome

theorem readFrom_closed {rest after : List Char} {c : Char}
    (hrest : rest.dropWhile (· != ']') = c :: after) :
    readFrom ids current ('[' :: rest) =
      readFrom (bracketId (rest.takeWhile (· != ']')) :: flush current ids) []
        (afterBracket after) := by
  rw [readFrom, if_neg (by decide), if_pos rfl]
  split
  · rename_i hnone
    rw [hrest] at hnone
    cases hnone
  · rename_i hsome
    rw [hrest] at hsome
    cases hsome
    rfl

theorem readFrom_bracket {inner : List Char} (hinner : ∀ c ∈ inner, c ≠ ']') (after : List Char) :
    readFrom ids current ('[' :: (inner ++ ']' :: after)) =
      readFrom (bracketId inner :: flush current ids) [] (afterBracket after) := by
  have hall : ∀ c ∈ inner, (c != ']') = true := fun c hc => bne_iff_ne.mpr (hinner c hc)
  have htake : (inner ++ ']' :: after).takeWhile (· != ']') = inner := by
    rw [List.takeWhile_append_of_pos hall]
    simp
  have hdrop : (inner ++ ']' :: after).dropWhile (· != ']') = ']' :: after := by
    rw [List.dropWhile_append_of_pos hall]
    simp
  rw [readFrom_closed hdrop, htake]

theorem readFrom_bracket_flush (ids : List PropertyId) (current rest : List Char) :
    readFrom ids current ('[' :: rest) = readFrom (flush current ids) [] ('[' :: rest) := by
  cases hrest : rest.dropWhile (· != ']') with
  | nil => rw [readFrom_open hrest, readFrom_open hrest]
  | cons c after =>
      rw [readFrom_closed hrest, readFrom_closed hrest]
      rfl

theorem readFrom_name {text : List Char} (htext : ∀ c ∈ text, isMark c = false)
    (rest : List Char) :
    readFrom ids current (text ++ rest) =
      if text.all isNameChar then readFrom ids (text.reverse ++ current) rest else none := by
  induction text generalizing current with
  | nil => rfl
  | cons c text ih =>
      have hmark := htext c List.mem_cons_self
      cases hc : isNameChar c with
      | false => simpa [hc] using readFrom_other hc hmark (text ++ rest)
      | true =>
          rw [List.cons_append, readFrom_nameChar hc,
            ih fun c' hc' => htext c' (List.mem_cons_of_mem c hc')]
          simp [hc]

theorem readFrom_flush (hcurrent : current ≠ []) {rest : List Char}
    (hrest : ∀ c ∈ rest.head?, isNameChar c = false) :
    readFrom ids current rest = readFrom (flush current ids) [] (afterBracket rest) := by
  cases rest with
  | nil => simp [afterBracket, readFrom, flush]
  | cons c rest =>
      by_cases hpoint : c = '.'
      · subst hpoint
        exact readFrom_point hcurrent rest
      · have hafter : afterBracket (c :: rest) = c :: rest := by
          unfold afterBracket
          split
          · rename_i heq
            exact absurd (List.cons.inj heq).1 hpoint
          · rfl
        rw [hafter]
        by_cases hbracket : c = '['
        · subst hbracket
          exact readFrom_bracket_flush ids current rest
        · have hc := hrest c rfl
          have hmark := isMark_eq_false.mpr ⟨hpoint, hbracket⟩
          rw [readFrom_other hc hmark, readFrom_other hc hmark]

@[simp] theorem afterBracket_nil : afterBracket [] = [] := rfl

@[simp] theorem afterBracket_of_ne {c : Char} (hc : c ≠ '.') (rest : List Char) :
    afterBracket (c :: rest) = c :: rest := by
  unfold afterBracket
  split
  · rename_i heq
    exact absurd (List.cons.inj heq).1 hc
  · rfl

theorem afterBracket_append {cs : List Char} (hcs : cs ≠ []) (rest : List Char) :
    afterBracket (cs ++ rest) = afterBracket cs ++ rest := by
  cases cs with
  | nil => exact absurd rfl hcs
  | cons c cs =>
      by_cases hpoint : c = '.'
      · subst hpoint
        rfl
      · rw [List.cons_append, afterBracket_of_ne hpoint, afterBracket_of_ne hpoint, List.cons_append]

theorem afterBracket_suffix (cs : List Char) : afterBracket cs <:+ cs := by
  unfold afterBracket
  split
  · exact List.suffix_cons _ _
  · exact List.suffix_rfl

theorem eq_point_of_afterBracket {cs : List Char} (hcs : cs ≠ []) (h : afterBracket cs = []) :
    cs = ['.'] := by
  unfold afterBracket at h
  split at h
  · rw [h]
  · exact absurd h hcs

/-- A text that has been read to its end goes on like a path behind the ids read, unless the text
ends in a point. -/
theorem readFrom_append {cs : List Char} {read : List PropertyId}
    (hread : readFrom ids current cs = some read) (hbegun : cs ≠ [] ∨ current ≠ [])
    (hpoint : ¬ ['.'] <:+ cs) {rest : List Char}
    (hrest : ∀ c ∈ rest.head?, isNameChar c = false) :
    readFrom ids current (cs ++ rest) = readFrom read.reverse [] (afterBracket rest) := by
  -- What follows changes no step before the end of the text, where it closes the last name or
  -- comes right behind a bracket.
  fun_induction readFrom ids current cs with
  | case1 ids current =>
      cases hread
      rw [List.nil_append, List.reverse_reverse]
      exact readFrom_flush (hbegun.resolve_left (· rfl)) hrest
  | case2 ids current cs hcurrent => cases hread
  | case3 ids current cs hcurrent ih =>
      have hcs : cs ≠ [] := by
        rintro rfl
        exact hpoint List.suffix_rfl
      rw [List.cons_append, readFrom_point (by simpa using hcurrent)]
      exact ih hread (.inl hcs) fun h => hpoint (h.trans (List.suffix_cons _ _))
  | case4 ids current cs hopen _ => cases hread
  | case5 ids current cs c after hclosed _ ih =>
      have hdrop : (cs ++ rest).dropWhile (· != ']') = c :: (after ++ rest) := by
        rw [List.dropWhile_append, hclosed]
        rfl
      have htake : (cs ++ rest).takeWhile (· != ']') = cs.takeWhile (· != ']') := by
        have hlength := congrArg List.length
          (List.takeWhile_append_dropWhile (p := (· != ']')) (l := cs))
        rw [hclosed, List.length_append, List.length_cons] at hlength
        rw [List.takeWhile_append, if_neg (by omega)]
      have hafter : after <:+ '[' :: cs :=
        ((List.suffix_cons c after).trans (hclosed ▸ List.dropWhile_suffix _)).trans
          (List.suffix_cons _ _)
      rw [List.cons_append, readFrom_closed hdrop, htake]
      by_cases hend : after = []
      · subst hend
        have hread := (readFrom_nil _ _).symm.trans hread
        cases hread
        rw [List.nil_append, List.reverse_reverse]
        rfl
      · rw [afterBracket_append hend]
        refine ih hread (.inl fun h => ?_) fun h =>
          hpoint ((h.trans (afterBracket_suffix after)).trans hafter)
        exact hpoint ((eq_point_of_afterBracket hend h) ▸ hafter)
  | case6 ids current c cs _ _ hname ih =>
      rw [List.cons_append, readFrom_nameChar hname]
      exact ih hread (.inr (List.cons_ne_nil c current)) fun h =>
        hpoint (h.trans (List.suffix_cons _ _))
  | case7 ids current c cs _ _ _ => cases hread

theorem bracketId_digits (i : UInt32) : bracketId (Text.digits i.toNat) = .index i := by
  have htrim := Text.trimChars_of_visible (Text.isBlank_digits i.toNat)
  have hread : Text.readNumeral? Text.bound32 (Text.digits i.toNat) = some i.toNat :=
    Text.readNumeral?_digits i.toNat_lt
  simp [bracketId, htrim, hread]

theorem readFrom_spelling (read : List PropertyId) {ids : List PropertyId}
    (hplain : ∀ id ∈ ids, id.IsPlain) :
    readFrom read [] (afterBracket (spelling ids)) =
      if ids.all PropertyId.isWord then some (read.reverse ++ ids) else none := by
  induction ids generalizing read with
  | nil => simp [afterBracket, readFrom, flush]
  | cons id rest ih =>
      have hrest := fun id hid => hplain id (List.mem_cons_of_mem _ hid)
      have hid := hplain id List.mem_cons_self
      cases id with
      | name s =>
          have hempty : s ≠ "" := hid.1
          have hbegin : afterBracket (spelling (.name s :: rest)) = s.toList ++ spelling rest := rfl
          rw [hbegin, readFrom_name hid.isMark_eq_false]
          cases hword : s.toList.all isNameChar with
          | false => simp [PropertyId.isWord, hword]
          | true =>
              have hcurrent : s.toList.reverse ++ [] ≠ [] := by simpa using hempty
              rw [if_pos rfl, readFrom_flush hcurrent fun c hc =>
                isNameChar_of_isMark (head_spelling c hc), ih _ hrest]
              simp [flush, PropertyId.isWord, hword, hempty]
      | index i =>
          have hclosing := Text.forall_mem_digits (p := (· ≠ ']')) (by decide) i.toNat
          have hbegin : afterBracket (spelling (.index i :: rest)) =
              '[' :: (Text.digits i.toNat ++ ']' :: spelling rest) := by
            rw [spelling_cons, PropertyId.spelling, List.cons_append,
              afterBracket_of_ne (by decide), List.append_assoc]
            rfl
          rw [hbegin, readFrom_bracket hclosing, bracketId_digits, ih _ hrest]
          simp [flush, PropertyId.isWord]

end Reading

theorem getLast_eq_point_iff {cs : List Char} : cs.getLast? = some '.' ↔ ['.'] <:+ cs := by
  rw [List.getLast?_eq_some_iff]
  exact ⟨fun ⟨before, h⟩ => ⟨before, h.symm⟩, fun ⟨before, h⟩ => ⟨before, h.symm⟩⟩

theorem read?_eq_some {path : String} {ids : List PropertyId} :
    read? path = some ids ↔
      Text.trimChars path.toList ≠ [] ∧ ¬ ['.'] <:+ Text.trimChars path.toList ∧
        readFrom [] [] (Text.trimChars path.toList) = some ids ∧ ids ≠ [] := by
  unfold read?
  by_cases hempty : Text.trimChars path.toList = []
  · simp [hempty]
  by_cases hpoint : ['.'] <:+ Text.trimChars path.toList
  · simp [getLast_eq_point_iff.mpr hpoint, hpoint]
  have hlast : (Text.trimChars path.toList).getLast? ≠ some '.' :=
    mt getLast_eq_point_iff.mp hpoint
  have hread : ((Text.trimChars path.toList).isEmpty ||
      (Text.trimChars path.toList).getLast? == some '.') = false := by
    simp [hempty, hlast]
  simp only [hread, Bool.false_eq_true, if_false, ne_eq, hempty, hpoint, not_false_eq_true,
    true_and]
  split
  · rename_i hnone
    simp [hnone]
  · rename_i hsome
    exact ⟨fun h => ⟨h, fun hnil => hsome (h.trans (congrArg some hnil))⟩, fun h => h.1⟩

end Path

theorem PropertyId.IsPlain.exists_last {id : PropertyId} (hplain : id.IsPlain) :
    ∃ before c, id.spelling = before ++ [c] ∧ Text.isBlank c = false := by
  cases id with
  | index i => exact ⟨'[' :: Text.digits i.toNat, ']', rfl, by decide⟩
  | name s =>
      obtain ⟨hempty, htrim, _⟩ := hplain
      rcases List.eq_nil_or_concat s.toList with hnil | ⟨before, c, hs⟩
      · exact absurd (String.toList_eq_nil_iff.mp hnil) hempty
      rw [List.concat_eq_append] at hs
      have hvisible : Text.isBlank c = false := by
        refine Text.isBlank_of_getLast_trimChars s.toList c ?_
        rw [← Text.toList_trim, htrim]
        simp [hs]
      exact ⟨'.' :: before, c, congrArg ('.' :: ·) hs, hvisible⟩

namespace Path

theorem exists_last_spelling {ids : List PropertyId} (hne : ids ≠ [])
    (hplain : ∀ id ∈ ids, id.IsPlain) :
    ∃ before c, spelling ids = before ++ [c] ∧ Text.isBlank c = false := by
  rcases List.eq_nil_or_concat ids with rfl | ⟨before, id, rfl⟩
  · exact absurd rfl hne
  · obtain ⟨front, c, hid, hc⟩ := (hplain id (by simp)).exists_last
    refine ⟨spelling before ++ front, c, ?_, hc⟩
    rw [spelling, List.concat_eq_append, List.flatMap_append, List.flatMap_singleton, hid,
      ← List.append_assoc]
    rfl

theorem readFrom_of_read?_append {path whole : String} {first all : List PropertyId}
    (hpath : read? path = some first) {rest : List Char} {c : Char}
    (hmark : ∀ m ∈ (rest ++ [c]).head?, isMark m = true) (hc : Text.isBlank c = false)
    (hwhole : whole.toList = path.toList ++ (rest ++ [c])) (hread : read? whole = some all) :
    readFrom first.reverse [] (afterBracket (rest ++ [c])) = some all := by
  obtain ⟨hbegun, hpoint, hfirst, _⟩ := read?_eq_some.mp hpath
  obtain ⟨_, _, hall, _⟩ := read?_eq_some.mp hread
  obtain ⟨blanks, hblanks, htrim⟩ := Text.exists_trimChars_append hbegun
  rw [hwhole, htrim rest c hc] at hall
  cases blanks with
  | nil =>
      rwa [List.nil_append, readFrom_append hfirst (.inl hbegun) hpoint fun m hm =>
        isNameChar_of_isMark (hmark m hm)] at hall
  | cons blank blanks =>
      have hblank := hblanks blank List.mem_cons_self
      have hother := isNameChar_of_isBlank hblank
      have hplain := isMark_of_isBlank hblank
      rw [readFrom_append hfirst (.inl hbegun) hpoint (by simpa using hother), List.cons_append,
        afterBracket_of_ne (isMark_eq_false.mp hplain).1, readFrom_other hother hplain] at hall
      cases hall

theorem eq_append_of_read?_ofIds {path : String} {first ids all : List PropertyId}
    (hpath : read? path = some first) (hplain : ∀ id ∈ ids, id.IsPlain)
    (hread : read? (ofIds path ids) = some all) : all = first ++ ids := by
  by_cases hids : ids = []
  · subst hids
    rw [List.append_nil]
    exact Option.some.inj (hread.symm.trans hpath)
  obtain ⟨before, c, hspelling, hc⟩ := exists_last_spelling hids hplain
  have hrest := readFrom_of_read?_append hpath
    (fun m hm => head_spelling m (hspelling ▸ hm)) hc
    (by rw [toList_ofIds, hspelling]) hread
  rw [← hspelling, readFrom_spelling _ hplain, List.reverse_reverse] at hrest
  split at hrest
  · exact (Option.some.inj hrest).symm
  · cases hrest

theorem eq_cons_of_read?_ofIds {s : String} {ids all : List PropertyId}
    (hplain : ∀ id ∈ .name s :: ids, id.IsPlain) (hread : read? (ofIds s ids) = some all) :
    all = .name s :: ids := by
  obtain ⟨hempty, htrim, _⟩ : (PropertyId.name s).IsPlain := hplain _ List.mem_cons_self
  have hname : Text.trimChars s.toList = s.toList := by rw [← Text.toList_trim, htrim]
  obtain ⟨c, name, hs⟩ := List.exists_cons_of_ne_nil (mt String.toList_eq_nil_iff.mp hempty)
  have htext : Text.trimChars (ofIds s ids).toList = afterBracket (spelling (.name s :: ids)) := by
    rw [toList_ofIds]
    refine Text.trimChars_eq_self (fun first hfirst => ?_) fun last hlast => ?_
    · refine Text.isBlank_of_head_trimChars s.toList first ?_
      rw [hname, hs]
      rwa [hs] at hfirst
    · obtain ⟨before, c', hspelling, hc'⟩ :=
        exists_last_spelling (List.cons_ne_nil (.name s) ids) hplain
      have hwhole : ('.' :: (s.toList ++ spelling ids)).getLast? = some c' := by
        rw [← List.getLast?_concat (l := before), ← hspelling]
        rfl
      rw [hs, List.cons_append, List.getLast?_cons_cons, ← List.cons_append, ← hs] at hwhole
      rw [Option.mem_def.mp hlast] at hwhole
      exact Option.some.inj hwhole ▸ hc'
  obtain ⟨_, _, hall, _⟩ := read?_eq_some.mp hread
  rw [htext, readFrom_spelling _ hplain] at hall
  split at hall
  · exact (Option.some.inj hall).symm
  · cases hall

theorem append_inj_at {p : Char → Bool} {a b x y : List Char} (ha : ∀ c ∈ a, p c = false)
    (hb : ∀ c ∈ b, p c = false) (hx : ∀ c ∈ x.head?, p c = true) (hy : ∀ c ∈ y.head?, p c = true)
    (h : a ++ x = b ++ y) : a = b ∧ x = y := by
  induction a generalizing b with
  | nil =>
      cases b with
      | nil => exact ⟨rfl, h⟩
      | cons c b =>
          have hpc := hx c (by rw [List.nil_append] at h; rw [h]; rfl)
          rw [hb c List.mem_cons_self] at hpc
          cases hpc
  | cons c a ih =>
      cases b with
      | nil =>
          have hpc := hy c (by rw [List.nil_append] at h; rw [← h]; rfl)
          rw [ha c List.mem_cons_self] at hpc
          cases hpc
      | cons d b =>
          obtain ⟨rfl, htail⟩ := List.cons.inj h
          obtain ⟨rfl, hxy⟩ := ih (fun c hc => ha c (List.mem_cons_of_mem _ hc))
            (fun c hc => hb c (List.mem_cons_of_mem _ hc)) htail
          exact ⟨rfl, hxy⟩

theorem append_spelling_inj {a b : List Char} (ha : ∀ c ∈ a, isMark c = false)
    (hb : ∀ c ∈ b, isMark c = false) {ids ids' : List PropertyId}
    (h : a ++ spelling ids = b ++ spelling ids') : a = b ∧ spelling ids = spelling ids' :=
  append_inj_at ha hb head_spelling head_spelling h

theorem head_spelling_inj {id id' : PropertyId} (hid : id.IsPlain) (hid' : id'.IsPlain)
    {rest rest' : List PropertyId} (h : spelling (id :: rest) = spelling (id' :: rest')) :
    id = id' ∧ spelling rest = spelling rest' := by
  cases id with
  | name s =>
      cases id' with
      | name s' =>
          obtain ⟨hs, htail⟩ := append_spelling_inj hid.isMark_eq_false hid'.isMark_eq_false
            (List.cons.inj h).2
          exact ⟨congrArg _ (String.toList_inj.mp hs), htail⟩
      | index i' => cases (List.cons.inj h).1
  | index i =>
      cases id' with
      | name s' => cases (List.cons.inj h).1
      | index i' =>
          have hdigits (i : UInt32) :=
            Text.forall_mem_digits (p := fun c => (c == ']') = false) (by decide) i.toNat
          have htext : Text.digits i.toNat ++ ']' :: spelling rest =
              Text.digits i'.toNat ++ ']' :: spelling rest' := by
            simpa [PropertyId.spelling] using h
          obtain ⟨hi, htail⟩ := append_inj_at (p := (· == ']')) (hdigits i) (hdigits i')
            (by simp) (by simp) htext
          exact ⟨congrArg _ (UInt32.toNat_inj.mp (Text.digits_injective hi)), (List.cons.inj htail).2⟩

theorem spelling_injective {ids ids' : List PropertyId} (hplain : ∀ id ∈ ids, id.IsPlain)
    (hplain' : ∀ id ∈ ids', id.IsPlain) (h : spelling ids = spelling ids') : ids = ids' := by
  induction ids generalizing ids' with
  | nil =>
      cases ids' with
      | nil => rfl
      | cons id rest => cases id <;> cases h
  | cons id rest ih =>
      cases ids' with
      | nil => cases id <;> cases h
      | cons id' rest' =>
          obtain ⟨rfl, hrest⟩ := head_spelling_inj (hplain id List.mem_cons_self)
            (hplain' id' List.mem_cons_self) h
          rw [ih (fun id hid => hplain id (List.mem_cons_of_mem _ hid))
            (fun id hid => hplain' id (List.mem_cons_of_mem _ hid)) hrest]

theorem ofIds_injective {path : String} {ids ids' : List PropertyId}
    (hplain : ∀ id ∈ ids, id.IsPlain) (hplain' : ∀ id ∈ ids', id.IsPlain)
    (h : ofIds path ids = ofIds path ids') : ids = ids' := by
  have htext := congrArg String.toList h
  rw [toList_ofIds, toList_ofIds] at htext
  exact spelling_injective hplain hplain' (List.append_cancel_left htext)

theorem ofIds_injective_of_names {s s' : String} {ids ids' : List PropertyId}
    (hplain : ∀ id ∈ .name s :: ids, id.IsPlain) (hplain' : ∀ id ∈ .name s' :: ids', id.IsPlain)
    (h : ofIds s ids = ofIds s' ids') : s = s' ∧ ids = ids' := by
  have htext := congrArg String.toList h
  rw [toList_ofIds, toList_ofIds] at htext
  have hids := spelling_injective hplain hplain' (congrArg ('.' :: ·) htext)
  exact ⟨PropertyId.name.inj (List.cons.inj hids).1, (List.cons.inj hids).2⟩

end Path

end ScriptDebugger
