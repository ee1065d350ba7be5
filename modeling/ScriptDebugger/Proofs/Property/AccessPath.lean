import Mathlib.Data.List.Basic
import ScriptDebugger.Proofs.Property.PathText

namespace ScriptDebugger

namespace Path

/-- A piece of a path as it is written: a name, or what stands in a pair of brackets. -/
inductive Piece where
  | name (text : List Char)
  | bracket (inner : List Char)

namespace Piece

def text : Piece → List Char
  | name text => text
  | bracket inner => '[' :: (inner ++ [']'])

def propertyId : Piece → PropertyId
  | name text => .name (String.ofList text)
  | bracket inner => bracketId inner

/-- A name has characters of a name only, and a bracket closes where it first can. -/
def IsWhole : Piece → Prop
  | name text => text ≠ [] ∧ ∀ c ∈ text, isNameChar c = true
  | bracket inner => ']' ∉ inner

def IsBracket : Piece → Prop
  | name _ => False
  | bracket _ => True

def Begins : Piece → Char → Prop
  | name _, c => isNameChar c = true
  | bracket _, c => c = '['

variable {p : Piece} {c : Char}

theorem Begins.ne_point (h : p.Begins c) : c ≠ '.' := by
  rintro rfl
  cases p with
  | name text => exact absurd (isNameChar_point.symm.trans h) (by decide)
  | bracket inner => cases h

theorem Begins.isNameChar_eq_false (h : p.Begins c) (hp : p.IsBracket) : isNameChar c = false := by
  cases p with
  | name text => cases hp
  | bracket inner =>
      cases h
      exact isNameChar_bracket

theorem Begins.isBracket (h : p.Begins c) (hc : isNameChar c = false) : p.IsBracket := by
  cases p with
  | name text => exact absurd (hc.symm.trans h) (by decide)
  | bracket inner => trivial

theorem IsWhole.exists_first (hp : p.IsWhole) : ∃ c rest, p.text = c :: rest ∧ p.Begins c := by
  cases p with
  | name text =>
      obtain ⟨c, rest, rfl⟩ := List.exists_cons_of_ne_nil hp.1
      exact ⟨c, rest, rfl, hp.2 c List.mem_cons_self⟩
  | bracket inner => exact ⟨'[', _, rfl, rfl⟩

theorem IsWhole.exists_last (hp : p.IsWhole) :
    ∃ before c, p.text = before ++ [c] ∧ (isNameChar c = true ∨ c = ']') := by
  cases p with
  | name text =>
      obtain ⟨hne, hall⟩ := hp
      refine ⟨text.dropLast, text.getLast hne, (List.dropLast_concat_getLast hne).symm, .inl ?_⟩
      exact hall _ (List.getLast_mem hne)
  | bracket inner => exact ⟨'[' :: inner, ']', rfl, .inr rfl⟩

theorem IsWhole.readFrom_append (hp : p.IsWhole) {rest : List Char}
    (hend : p.IsBracket ∨ ∀ c ∈ rest.head?, isNameChar c = false) (ids : List PropertyId) :
    readFrom ids [] (p.text ++ rest) = readFrom (p.propertyId :: ids) [] (afterBracket rest) := by
  cases p with
  | name text =>
      obtain ⟨hne, hall⟩ := hp
      have hreverse : text.reverse ++ [] ≠ [] := by simpa using hne
      rw [Piece.text, readFrom_name fun c hc => isMark_of_isNameChar (hall c hc),
        if_pos (List.all_eq_true.mpr hall), readFrom_flush hreverse (hend.resolve_left id)]
      simp [flush, hne, propertyId]
  | bracket inner =>
      have hinner : ∀ c ∈ inner, c ≠ ']' := fun c hc h => hp (h ▸ hc)
      rw [Piece.text, List.cons_append, List.append_assoc, List.singleton_append,
        readFrom_bracket hinner]
      rfl

theorem exists_of_readFrom {text : List Char} (htext : text ≠ []) {ids read : List PropertyId}
    (hread : readFrom ids [] text = some read) :
    ∃ (p : Piece) (rest : List Char), p.IsWhole ∧ text = p.text ++ rest ∧
      (p.IsBracket ∨ ∀ c ∈ rest.head?, isNameChar c = false) := by
  obtain ⟨c, cs, rfl⟩ := List.exists_cons_of_ne_nil htext
  cases hmark : isMark c with
  | false =>
      cases hc : isNameChar c with
      | false =>
          rw [readFrom_other hc hmark] at hread
          cases hread
      | true =>
          refine ⟨.name ((c :: cs).takeWhile isNameChar), (c :: cs).dropWhile isNameChar, ⟨?_, ?_⟩,
            List.takeWhile_append_dropWhile.symm, .inr ?_⟩
          · rw [List.takeWhile_cons_of_pos hc]
            exact List.cons_ne_nil _ _
          · exact List.all_eq_true.mp List.all_takeWhile
          · intro d hd
            have hstop := List.head?_dropWhile_not isNameChar (c :: cs)
            rw [Option.mem_def.mp hd] at hstop
            exact hstop
  | true =>
      simp only [isMark, Bool.or_eq_true, beq_iff_eq] at hmark
      rcases hmark with rfl | rfl
      · rw [readFrom, if_pos rfl] at hread
        cases hread
      · cases hclosed : cs.dropWhile (· != ']') with
        | nil =>
            rw [readFrom_open hclosed] at hread
            cases hread
        | cons close after =>
            have hclose := List.head?_dropWhile_not (· != ']') cs
            rw [hclosed, List.head?_cons] at hclose
            obtain rfl : close = ']' := by simpa using hclose
            refine ⟨.bracket (cs.takeWhile (· != ']')), after, fun hmem => ?_, ?_, .inl trivial⟩
            · exact absurd (List.all_eq_true.mp List.all_takeWhile _ hmem) (by decide)
            · have hcs := List.takeWhile_append_dropWhile (p := (· != ']')) (l := cs)
              rw [hclosed] at hcs
              rw [text, List.cons_append, List.append_assoc, List.singleton_append, hcs]

end Piece

/-- The text consists of the pieces.  Between two pieces stands a point, which may be missing next
to a bracket. -/
inductive Consists : List Char → List Piece → Prop where
  | piece {p : Piece} (hp : p.IsWhole) : Consists p.text [p]
  | point {p : Piece} {rest : List Char} {pieces : List Piece} (hp : p.IsWhole)
      (hrest : Consists rest pieces) : Consists (p.text ++ '.' :: rest) (p :: pieces)
  | adjoin {p q : Piece} {rest : List Char} {pieces : List Piece} (hp : p.IsWhole)
      (hbracket : p.IsBracket ∨ q.IsBracket) (hrest : Consists rest (q :: pieces)) :
      Consists (p.text ++ rest) (p :: q :: pieces)

namespace Consists

variable {text : List Char} {pieces : List Piece}

theorem exists_first (h : Consists text pieces) :
    ∃ (p : Piece) (others : List Piece) (c : Char) (rest : List Char),
      pieces = p :: others ∧ text = c :: rest ∧ p.Begins c := by
  have hpiece {p : Piece} (hp : p.IsWhole) (rest : List Char) (others : List Piece) :
      ∃ (p' : Piece) (others' : List Piece) (c : Char) (rest' : List Char),
        p :: others = p' :: others' ∧ p.text ++ rest = c :: rest' ∧ p'.Begins c := by
    obtain ⟨c, more, htext, hc⟩ := hp.exists_first
    exact ⟨p, others, c, more ++ rest, rfl, by rw [htext]; rfl, hc⟩
  cases h with
  | piece hp => simpa using hpiece hp [] []
  | point hp _ => exact hpiece hp _ _
  | adjoin hp _ _ => exact hpiece hp _ _

theorem exists_last (h : Consists text pieces) :
    ∃ before c, text = before ++ [c] ∧ (isNameChar c = true ∨ c = ']') := by
  induction h with
  | piece hp => exact hp.exists_last
  | @point p _ _ _ _ ih =>
      obtain ⟨before, c, rfl, hc⟩ := ih
      exact ⟨p.text ++ '.' :: before, c, by simp, hc⟩
  | @adjoin p _ _ _ _ _ _ ih =>
      obtain ⟨before, c, rfl, hc⟩ := ih
      exact ⟨p.text ++ before, c, by simp, hc⟩

theorem trimChars_eq (h : Consists text pieces) : Text.trimChars text = text := by
  have hvisible {c : Char} (hc : isNameChar c = true ∨ c = '[' ∨ c = ']') :
      Text.isBlank c = false := by
    rcases hc with hname | rfl | rfl
    · cases hblank : Text.isBlank c with
      | false => rfl
      | true => rw [isNameChar_of_isBlank hblank] at hname; cases hname
    · decide
    · decide
  refine Text.trimChars_eq_self (fun c hc => ?_) fun c hc => ?_
  · obtain ⟨p, _, first, rest, _, rfl, hfirst⟩ := h.exists_first
    cases hc
    cases p with
    | name _ => exact hvisible (.inl hfirst)
    | bracket _ => exact hvisible (.inr (.inl hfirst))
  · obtain ⟨before, last, rfl, hlast⟩ := h.exists_last
    rw [List.getLast?_concat] at hc
    cases hc
    exact hvisible (hlast.imp_right .inr)

theorem not_point_suffix (h : Consists text pieces) : ¬ ['.'] <:+ text := by
  obtain ⟨before, c, rfl, hc⟩ := h.exists_last
  rintro ⟨rest, hrest⟩
  obtain ⟨_, hpoint⟩ := List.append_inj' hrest rfl
  cases hpoint
  rcases hc with hc | hc
  · rw [isNameChar_point] at hc
    cases hc
  · cases hc

theorem readFrom_eq (h : Consists text pieces) (ids : List PropertyId) :
    readFrom ids [] text = some (ids.reverse ++ pieces.map Piece.propertyId) := by
  induction h generalizing ids with
  | @piece p hp =>
      rw [← List.append_nil p.text, hp.readFrom_append (.inr (by simp)), afterBracket_nil,
        readFrom_nil]
      simp [flush]
  | @point p rest pieces hp _ ih =>
      rw [hp.readFrom_append (.inr (by simp)), afterBracket, ih]
      simp
  | @adjoin p q rest pieces hp hbracket hrest ih =>
      obtain ⟨_, _, c, more, hpieces, rfl, hc⟩ := hrest.exists_first
      cases hpieces
      have hend : p.IsBracket ∨ ∀ d ∈ (c :: more).head?, isNameChar d = false := by
        refine hbracket.imp_right fun hq d hd => ?_
        cases hd
        exact hc.isNameChar_eq_false hq
      rw [hp.readFrom_append hend, afterBracket_of_ne hc.ne_point, ih]
      simp

theorem of_readFrom {ids read : List PropertyId} (htext : text ≠ []) (hpoint : ¬ ['.'] <:+ text)
    (hread : readFrom ids [] text = some read) :
    ∃ pieces, Consists text pieces ∧ read = ids.reverse ++ pieces.map Piece.propertyId := by
  induction hlength : text.length using Nat.strongRecOn generalizing text ids with
  | ind length ih =>
      obtain ⟨p, rest, hp, rfl, hend⟩ := Piece.exists_of_readFrom htext hread
      obtain ⟨first, more, hfirst, _⟩ := hp.exists_first
      have hshorter : rest.length < length := by
        rw [← hlength, hfirst, List.cons_append, List.length_cons, List.length_append]
        omega
      rw [hp.readFrom_append hend] at hread
      cases rest with
      | nil =>
          rw [afterBracket_nil, readFrom_nil] at hread
          cases hread
          exact ⟨[p], by simpa using Consists.piece hp, by simp [flush]⟩
      | cons c rest =>
          have hsuffix : ¬ ['.'] <:+ c :: rest := fun h =>
            hpoint (h.trans (List.suffix_append _ _))
          by_cases hc : c = '.'
          · subst hc
            have hrest : rest ≠ [] := by
              rintro rfl
              exact hsuffix List.suffix_rfl
            obtain ⟨pieces, hpieces, hids⟩ := ih rest.length (by simp at hshorter; omega) hrest
              (fun h => hsuffix (h.trans (List.suffix_cons _ _))) hread rfl
            exact ⟨p :: pieces, .point hp hpieces, by simpa using hids⟩
          · rw [afterBracket_of_ne hc] at hread
            obtain ⟨pieces, hpieces, hids⟩ := ih _ hshorter (List.cons_ne_nil c rest) hsuffix
              hread rfl
            obtain ⟨q, others, d, _, rfl, hd, hbegins⟩ := hpieces.exists_first
            cases hd
            refine ⟨p :: q :: others, .adjoin hp ?_ hpieces, by simpa using hids⟩
            exact hend.imp_right fun hname => hbegins.isBracket (hname c rfl)

end Consists

/-- The texts that are read as paths are those that consist of pieces, blanks around them aside. -/
theorem read?_eq_some_iff {path : String} {ids : List PropertyId} :
    read? path = some ids ↔
      ∃ pieces, Consists (Text.trimChars path.toList) pieces ∧
        pieces.map Piece.propertyId = ids := by
  rw [read?_eq_some]
  constructor
  · rintro ⟨hne, hpoint, hread, _⟩
    obtain ⟨pieces, hpieces, hids⟩ := Consists.of_readFrom hne hpoint hread
    exact ⟨pieces, hpieces, by simpa using hids.symm⟩
  · rintro ⟨pieces, hpieces, rfl⟩
    obtain ⟨p, others, c, rest, rfl, htext, _⟩ := hpieces.exists_first
    refine ⟨by rw [htext]; exact List.cons_ne_nil _ _, hpieces.not_point_suffix, ?_, by simp⟩
    exact hpieces.readFrom_eq []

end Path

namespace PropertyId

def IsIdentifier (id : PropertyId) : Prop :=
  id ≠ name "" ∧ id.isWord = true

instance (id : PropertyId) : Decidable id.IsIdentifier :=
  inferInstanceAs (Decidable (_ ∧ _))

def piece : PropertyId → Path.Piece
  | name s => .name s.toList
  | index i => .bracket (Text.digits i.toNat)

theorem IsIdentifier.isWhole {id : PropertyId} (h : id.IsIdentifier) : id.piece.IsWhole := by
  cases id with
  | name s =>
      refine ⟨mt String.toList_eq_nil_iff.mp ?_, List.all_eq_true.mp h.2⟩
      rintro rfl
      exact h.1 rfl
  | index i => exact fun hmem => Text.forall_mem_digits (p := (· ≠ ']')) (by decide) _ _ hmem rfl

theorem propertyId_piece (id : PropertyId) : id.piece.propertyId = id := by
  cases id with
  | name s => exact congrArg name String.ofList_toList
  | index i => exact Path.bracketId_digits i

end PropertyId

namespace Path

theorem consists_spelling {id : PropertyId} {ids : List PropertyId}
    (h : ∀ other ∈ id :: ids, other.IsIdentifier) :
    Consists (id.piece.text ++ spelling ids) ((id :: ids).map PropertyId.piece) := by
  have hid := (h id List.mem_cons_self).isWhole
  induction ids generalizing id with
  | nil => simpa using Consists.piece hid
  | cons next ids ih =>
      have hrest := fun other hother => h other (List.mem_cons_of_mem _ hother)
      have hnext := ih hrest (hrest next List.mem_cons_self).isWhole
      cases next with
      | name s => exact .point hid hnext
      | index i => exact .adjoin hid (.inr trivial) hnext

/-- The path of identifiers and indexes is read as these, names and indexes apart. -/
theorem read?_ofIds {first : String} {ids : List PropertyId}
    (h : ∀ id ∈ .name first :: ids, id.IsIdentifier) :
    read? (ofIds first ids) = some (.name first :: ids) := by
  have hconsists : Consists (ofIds first ids).toList
      ((.name first :: ids).map PropertyId.piece) := by
    rw [toList_ofIds]
    exact consists_spelling h
  refine read?_eq_some_iff.mpr ⟨(.name first :: ids).map PropertyId.piece, ?_, ?_⟩
  · rwa [hconsists.trimChars_eq]
  · rw [List.map_map]
    exact List.map_id'' PropertyId.propertyId_piece _

theorem read?_ofIds_digits :
    read? "a.0[0].b" = some [.name "a", .name "0", .index 0, .name "b"] := by
  have hpath : ofIds "a" [.name "0", .index 0, .name "b"] = "a.0[0].b" := by decide +kernel
  rw [← hpath]
  exact read?_ofIds (by decide +kernel)

/-! Access paths. -/

/-- What an access by brackets holds, blanks aside: the digits of an index, or a text in quotes. -/
def IsSubscript (inner : List Char) : Prop :=
  (Text.trimChars inner ≠ [] ∧ ∀ c ∈ Text.trimChars inner, Text.isDigit c = true) ∨
    ∃ quote text, isQuote quote = true ∧ quote ∉ text ∧
      Text.trimChars inner = quote :: (text ++ [quote])

def Piece.IsAccess : Piece → Prop
  | name text => (name text).IsWhole
  | bracket inner => IsSubscript inner

inductive Accesses : List Char → Prop where
  | nil : Accesses []
  | name {text rest : List Char} (htext : (Piece.name text).IsAccess) (hrest : Accesses rest) :
      Accesses ('.' :: (text ++ rest))
  | bracket {inner rest : List Char} (hinner : (Piece.bracket inner).IsAccess)
      (hrest : Accesses rest) : Accesses ((Piece.bracket inner).text ++ rest)

/-- A name or an access by brackets, and any number of accesses behind it. -/
def IsAccessPath (text : List Char) : Prop :=
  ∃ (p : Piece) (rest : List Char), p.IsAccess ∧ Accesses rest ∧ text = p.text ++ rest

theorem not_mem_of_isNameChar {text : List Char} {c : Char}
    (htext : ∀ c ∈ text, isNameChar c = true) (hc : isNameChar c = false) : c ∉ text := by
  intro hmem
  rw [htext c hmem] at hc
  cases hc

theorem isSubscript_of_isAccessPath {text inner : List Char}
    (htext : ∀ c ∈ text, isNameChar c = true) (hinner : ∀ c ∈ inner, isNameChar c = true)
    (h : IsAccessPath (text ++ (Piece.bracket inner).text)) : IsSubscript inner := by
  have hopen : '[' ∉ inner ++ [']'] := by
    simpa using not_mem_of_isNameChar hinner isNameChar_bracket
  have hclose : ']' ∉ inner := not_mem_of_isNameChar hinner (by decide +kernel)
  have honly (before inner' rest : List Char)
      (heq : text ++ '[' :: (inner ++ [']']) = before ++ '[' :: (inner' ++ ']' :: rest)) :
      inner = inner' := by
    obtain ⟨_, _, hsame⟩ := (List.append_cons_inj_of_notMem
      (not_mem_of_isNameChar htext isNameChar_bracket) hopen).mp heq
    exact ((List.append_cons_inj_of_notMem hclose List.not_mem_nil).mp hsame).1
  obtain ⟨p, rest, hp, hrest, heq⟩ := h
  cases p with
  | bracket inner' =>
      rw [honly [] inner' rest (by simpa [Piece.text] using heq)]
      exact hp
  | name first =>
      change text ++ '[' :: (inner ++ [']']) = first ++ rest at heq
      cases hrest with
      | nil =>
          have hmem : '[' ∈ first ++ [] := heq ▸ List.mem_append_right _ List.mem_cons_self
          rw [List.append_nil] at hmem
          exact absurd hmem (not_mem_of_isNameChar hp.2 isNameChar_bracket)
      | name _ _ =>
          have hmem : '.' ∈ text ++ '[' :: (inner ++ [']']) :=
            heq ▸ List.mem_append_right _ List.mem_cons_self
          have htext := not_mem_of_isNameChar htext isNameChar_point
          have hinner := not_mem_of_isNameChar hinner isNameChar_point
          simp [htext, hinner] at hmem
      | @bracket inner' more hinner' _ =>
          rw [honly first inner' more (by simpa [Piece.text] using heq)]
          exact hinner'

/-- What lets a text pass for a path that is no access path: a bracket that holds something else, a
point before a bracket, or a name at once behind one. -/
def IsLoose (text : List Char) : Prop :=
  (∃ inner, ']' ∉ inner ∧ ¬ IsSubscript inner ∧ (Piece.bracket inner).text <:+: text) ∨
    ['.', '['] <:+: text ∨ ∃ c, isNameChar c = true ∧ [']', c] <:+: text

theorem IsLoose.append {text : List Char} (h : IsLoose text) (before : List Char) :
    IsLoose (before ++ text) := by
  rcases h with ⟨inner, hclosed, hinner, hinside⟩ | hinside | ⟨c, hc, hinside⟩
  · exact .inl ⟨inner, hclosed, hinner, List.infix_append_of_infix_right hinside⟩
  · exact .inr (.inl (List.infix_append_of_infix_right hinside))
  · exact .inr (.inr ⟨c, hc, List.infix_append_of_infix_right hinside⟩)

theorem Piece.IsWhole.isAccess_or {p : Piece} (hp : p.IsWhole) (rest : List Char) :
    p.IsAccess ∨ IsLoose (p.text ++ rest) := by
  cases p with
  | name text => exact .inl hp
  | bracket inner =>
      by_cases hinner : IsSubscript inner
      · exact .inl hinner
      · exact .inr (.inl ⟨inner, hp, hinner, (List.prefix_append _ _).isInfix⟩)

theorem Consists.isAccessPath_or {text : List Char} {pieces : List Piece}
    (h : Consists text pieces) : IsAccessPath text ∨ IsLoose text := by
  induction h with
  | @piece p hp =>
      rcases hp.isAccess_or [] with haccess | hloose
      · exact .inl ⟨p, [], haccess, .nil, (List.append_nil _).symm⟩
      · exact .inr (by simpa using hloose)
  | @point p rest _ hp _ ih =>
      rcases ih with ⟨q, more, hq, hmore, rfl⟩ | hloose
      · cases q with
        | name text =>
            refine (hp.isAccess_or _).imp_left fun haccess => ?_
            exact ⟨p, _, haccess, .name hq hmore, rfl⟩
        | bracket inner =>
            refine .inr (.inr (.inl (List.infix_append_of_infix_right ?_)))
            exact (List.prefix_append ['.', '['] _).isInfix
      · exact .inr ((hloose.append ['.']).append p.text)
  | @adjoin p q rest _ hp hbracket hrest ih =>
      obtain ⟨_, _, c, others, hpieces, htext, hc⟩ := hrest.exists_first
      cases hpieces
      rcases ih with ⟨q', more, hq', hmore, rfl⟩ | hloose
      · cases q' with
        | name text =>
            obtain ⟨d, name, rfl⟩ := List.exists_cons_of_ne_nil hq'.1
            have hd : isNameChar d = true := hq'.2 d List.mem_cons_self
            obtain ⟨rfl, _⟩ := List.cons.inj htext
            have hp : p.IsBracket := hbracket.resolve_right fun hq => by
              rw [hc.isNameChar_eq_false hq] at hd
              cases hd
            cases p with
            | name _ => cases hp
            | bracket inner =>
                refine .inr (.inr (.inr ⟨d, hd, '[' :: inner, name ++ more, ?_⟩))
                simp [Piece.text]
        | bracket inner =>
            refine (hp.isAccess_or _).imp_left fun haccess => ?_
            exact ⟨p, _, haccess, .bracket hq' hmore, rfl⟩
      · exact .inr (hloose.append p.text)

end Path

end ScriptDebugger
