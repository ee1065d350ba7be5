import ScriptDebugger.Proofs.Command.Line
import ScriptDebugger.Proofs.Text.Offset

/-!
Reading a command line by offsets.  The scanner goes round once for each argument, from the offset
of the space in front of it to that of the next one, and takes the key and the value out of the
text by their offsets in bytes.  In no line does it cut a character or leave the text, and it comes
to an end, for each round begins further on than the one before.  It reads what `Command.parse`
reads.
-/

namespace ScriptDebugger.Command

open String (utf8Len utf8Len_cons utf8Len_append)
open Argument (opening IsValue)

/-- A round of the scanner, at the argument in front of which a space stands at `start`. -/
structure Round where
  start : Nat
  space : Option Nat
  key : String
  value : String
  next : Option Nat
  deriving DecidableEq, Repr

namespace Round

/-- Where the text is cut: at the dash and behind it, at the space behind the key and behind
that, and in front of the next argument. -/
def offsets (r : Round) : List Nat :=
  [r.start + 1, r.start + 2] ++ (r.space.toList.flatMap fun space => [space, space + 1]) ++
    r.next.toList

def argument (r : Round) : Argument :=
  if r.key = "--" then .data r.value.toList
  else .option (r.key.toList.dropWhile (· == '-')) r.value.toList

end Round

def round? (rest : String) (start : Nat) : Option Round := do
  let behindDash ← Text.slice? rest (start + 2) rest.utf8ByteSize
  match Text.find? behindDash " " with
  | some offset =>
      let space := start + 2 + offset
      let behindSpace ← Text.slice? rest (space + 1) rest.utf8ByteSize
      let next := (Text.find? behindSpace " -").map (space + 1 + ·)
      let value ← Text.slice? rest (space + 1) (next.getD rest.utf8ByteSize)
      let key ← Text.slice? rest (start + 1) space
      return { start, space := some space, key, value, next }
  | none =>
      let key ← Text.slice? rest (start + 1) rest.utf8ByteSize
      return { start, space := none, key, value := "", next := none }

def rounds? (rest : String) : Nat → Option Nat → Option (List Round)
  | _, none => some []
  | 0, some _ => none
  | bound + 1, some start => do
      let r ← round? rest start
      let later ← rounds? rest bound r.next
      return r :: later

def split? (line : String) : Option (String × String) :=
  match Text.find? line " " with
  | some space => do
      let name ← Text.slice? line 0 space
      let rest ← Text.slice? line space line.utf8ByteSize
      return (name, rest)
  | none => some (line, "")

/-- Reads a command line by offsets, in at most `bound` rounds. -/
def scan? (bound : Nat) (line : String) : Option (Except Error Command) := do
  let (name, rest) ← split? (Text.trim line)
  if name.toList.isEmpty || name.toList.head? == some '-' then
    return .error (.malformedCommand (Text.trim line))
  else
    let rounds ← rounds? rest bound (Text.find? rest " -")
    return .ok (rounds.foldl (fun c r => c.take r.argument) { name })

namespace Argument

def IsPlain : Argument → Prop
  | .option key value => key.head? ≠ some '-' ∧ ' ' ∉ key ∧ IsValue value
  | .data payload => IsValue payload

theorem isPlain_ofKey {key value : List Char} (hkey : ' ' ∉ key) (hvalue : IsValue value) :
    (ofKey key value).IsPlain := by
  rw [ofKey]
  split
  · exact hvalue
  · refine ⟨fun hdash => ?_, fun hmem => hkey ((List.dropWhile_suffix _).subset hmem), hvalue⟩
    have hhead := List.head?_dropWhile_not (· == '-') key
    rw [hdash] at hhead
    exact absurd hhead (by decide)

theorem exists_value (text : List Char) :
    ∃ value next, IsValue value ∧ text = value ++ opening next := by
  induction text with
  | nil => exact ⟨[], none, isValue_nil, rfl⟩
  | cons c text ih =>
      by_cases hhere : [' ', '-'] <+: c :: text
      · obtain ⟨rest, hrest⟩ := hhere
        exact ⟨[], some rest, isValue_nil, hrest.symm⟩
      · obtain ⟨value, next, hvalue, rfl⟩ := ih
        refine ⟨c :: value, next, fun hinside => ?_, rfl⟩
        rcases List.infix_cons_iff.mp hinside with hfirst | hbehind
        · exact hhere (hfirst.trans (List.prefix_append (c :: value) (opening next)))
        · exact hvalue hbehind

theorem behindDash_cases (text : List Char) :
    ' ' ∉ text ∨ ∃ key value next,
      ' ' ∉ key ∧ IsValue value ∧ text = key ++ ' ' :: (value ++ opening next) := by
  by_cases hmem : ' ' ∈ text
  · obtain ⟨key, rest, rfl, hkey⟩ := List.eq_append_cons_of_mem hmem
    obtain ⟨value, next, hvalue, rfl⟩ := exists_value rest
    exact .inr ⟨key, value, next, hkey, hvalue, rfl⟩
  · exact .inl hmem

end Argument

open Argument

theorem utf8Len_space (before : List Char) : utf8Len (before ++ [' ']) = utf8Len before + 1 := by
  rw [utf8Len_append]
  rfl

theorem utf8Len_behindDash (before passed : List Char) :
    utf8Len (before ++ ' ' :: '-' :: passed) = utf8Len before + 2 + utf8Len passed := by
  have hspace : ' '.utf8Size = 1 := rfl
  have hdash : '-'.utf8Size = 1 := rfl
  rw [utf8Len_append, utf8Len_cons, utf8Len_cons, hspace, hdash]
  omega

theorem utf8Len_behindKey (start : Nat) (key value : List Char) :
    start + 2 + utf8Len (key ++ ' ' :: value) = start + 2 + utf8Len key + 1 + utf8Len value := by
  have hspace : ' '.utf8Size = 1 := rfl
  rw [utf8Len_append, utf8Len_cons, hspace]
  omega

theorem find?_space {key : List Char} (hkey : ' ' ∉ key) (rest : List Char) :
    Text.find? (String.ofList (key ++ ' ' :: rest)) " " = some (utf8Len key) := by
  have hfirst : ¬ [' '] <:+: key ++ [' '].dropLast := by
    intro hinside
    rw [List.dropLast_singleton, List.append_nil] at hinside
    exact hkey (hinside.subset List.mem_cons_self)
  rw [Text.find?_ofList]
  exact Text.findChars?_append hfirst rest

theorem find?_no_space {key : List Char} (hkey : ' ' ∉ key) :
    Text.find? (String.ofList key) " " = none := by
  rw [Text.find?_ofList]
  exact Text.findChars?_eq_none fun hinside => hkey (hinside.subset List.mem_cons_self)

theorem find?_opening {value : List Char} (hvalue : IsValue value) (next : Option (List Char)) :
    Text.find? (String.ofList (value ++ opening next)) " -" =
      next.map fun _ => utf8Len value := by
  rw [Text.find?_ofList]
  cases next with
  | none =>
      rw [opening, List.append_nil]
      exact Text.findChars?_eq_none hvalue
  | some rest =>
      have hfirst : ¬ [' ', '-'] <:+: value ++ [' ', '-'].dropLast := by
        intro hinside
        rcases List.infix_concat_iff.mp hinside with hend | hinside
        · obtain ⟨before, hbefore⟩ := hend
          have hlast := congrArg List.getLast? hbefore
          simp at hlast
        · exact hvalue hinside
      exact Text.findChars?_append hfirst rest

/-- An argument opens at an offset, with a text behind its dash. -/
def OpensAt (rest : String) (start : Nat) (text : List Char) : Prop :=
  ∃ before, rest.toList = before ++ ' ' :: '-' :: text ∧ start = utf8Len before

namespace OpensAt

variable {rest : String} {start offset : Nat} {text behind : List Char}

theorem lt (h : OpensAt rest start text) : start < rest.utf8ByteSize := by
  obtain ⟨before, hrest, rfl⟩ := h
  rw [← String.utf8Len_toList, hrest, utf8Len_behindDash]
  omega

theorem isCut_dash (h : OpensAt rest start text) : Text.IsCut rest (start + 1) := by
  obtain ⟨before, hrest, rfl⟩ := h
  rw [← utf8Len_space]
  exact Text.isCut_of_append (hrest.trans (List.append_cons before ' ' ('-' :: text)))

theorem isCut (passed : List Char) (h : OpensAt rest start (passed ++ behind))
    (hoffset : offset = start + 2 + utf8Len passed) : Text.IsCut rest offset := by
  obtain ⟨before, hrest, rfl⟩ := h
  rw [hoffset, ← utf8Len_behindDash]
  exact Text.isCut_of_append (by rw [hrest, List.append_assoc, List.cons_append, List.cons_append])

theorem next (passed : List Char) (h : OpensAt rest start (passed ++ opening (some behind)))
    (hoffset : offset = start + 2 + utf8Len passed) : OpensAt rest offset behind := by
  obtain ⟨before, hrest, rfl⟩ := h
  refine ⟨before ++ ' ' :: '-' :: passed, ?_, by rw [utf8Len_behindDash, hoffset]⟩
  rw [hrest, List.append_assoc, List.cons_append, List.cons_append, opening]

end OpensAt

def Round.bare (start : Nat) (key : List Char) : Round :=
  { start, space := none, key := String.ofList ('-' :: key), value := "", next := none }

def Round.valued (start : Nat) (key value : List Char) (next : Option (List Char)) : Round :=
  let space := start + 2 + utf8Len key
  { start
    space := some space
    key := String.ofList ('-' :: key)
    value := String.ofList value
    next := next.map fun _ => space + 1 + utf8Len value }

theorem round?_bare {rest : String} {start : Nat} {key : List Char} (h : OpensAt rest start key)
    (hkey : ' ' ∉ key) : round? rest start = some (Round.bare start key) := by
  obtain ⟨before, hrest, rfl⟩ := h
  have hkeyRest : rest.toList = before ++ [' ', '-'] ++ key := by
    rw [hrest, List.append_assoc]
    rfl
  have hbehind : Text.slice? rest (utf8Len before + 2) rest.utf8ByteSize =
      some (String.ofList key) :=
    Text.slice?_end hkeyRest (utf8Len_behindDash before []).symm
  have hslice : Text.slice? rest (utf8Len before + 1) rest.utf8ByteSize =
      some (String.ofList ('-' :: key)) :=
    Text.slice?_end (hrest.trans (List.append_cons ..)) (utf8Len_space before).symm
  simp only [round?, hbehind, find?_no_space hkey, hslice, Round.bare, Option.bind_eq_bind,
    Option.bind_some, Option.pure_def]

theorem round?_valued {rest : String} {start : Nat} {key value : List Char}
    {next : Option (List Char)} (h : OpensAt rest start (key ++ ' ' :: (value ++ opening next)))
    (hkey : ' ' ∉ key) (hvalue : IsValue value) :
    round? rest start = some (Round.valued start key value next) := by
  obtain ⟨before, hrest, rfl⟩ := h
  have hkeyRest : rest.toList =
      before ++ [' ', '-'] ++ (key ++ ' ' :: (value ++ opening next)) := by
    rw [hrest, List.append_assoc]
    rfl
  have hbehind : Text.slice? rest (utf8Len before + 2) rest.utf8ByteSize =
      some (String.ofList (key ++ ' ' :: (value ++ opening next))) :=
    Text.slice?_end hkeyRest (utf8Len_behindDash before []).symm
  have hdashRest : rest.toList =
      before ++ [' '] ++ ('-' :: key ++ ' ' :: (value ++ opening next)) :=
    hrest.trans (List.append_cons ..)
  have hdash : utf8Len before + 2 + utf8Len key = utf8Len before + 1 + utf8Len ('-' :: key) := by
    have hsize : '-'.utf8Size = 1 := rfl
    rw [utf8Len_cons, hsize]
    omega
  have hslice : Text.slice? rest (utf8Len before + 1) (utf8Len before + 2 + utf8Len key) =
      some (String.ofList ('-' :: key)) :=
    Text.slice?_of_append hdashRest (utf8Len_space before).symm hdash
  have htail : rest.toList = before ++ ' ' :: '-' :: (key ++ [' ']) ++ (value ++ opening next) := by
    simp only [hrest, List.append_assoc, List.cons_append, List.nil_append]
  have hpassed : utf8Len before + 2 + utf8Len key + 1 =
      utf8Len (before ++ ' ' :: '-' :: (key ++ [' '])) :=
    ((utf8Len_behindDash before (key ++ [' '])).trans (utf8Len_behindKey _ key [])).symm
  have hopening : Text.slice? rest (utf8Len before + 2 + utf8Len key + 1) rest.utf8ByteSize =
      some (String.ofList (value ++ opening next)) :=
    Text.slice?_end htail hpassed
  have hvalueSlice : Text.slice? rest (utf8Len before + 2 + utf8Len key + 1)
      ((next.map fun _ => utf8Len before + 2 + utf8Len key + 1 + utf8Len value).getD
        rest.utf8ByteSize) = some (String.ofList value) := by
    cases next with
    | none => exact Text.slice?_end (by rw [htail, opening, List.append_nil]) hpassed
    | some text => exact Text.slice?_of_append htail hpassed rfl
  simp only [round?, hbehind, find?_space hkey, hslice, hopening, find?_opening hvalue, hvalueSlice,
    Round.valued, Option.map_map, Function.comp_def, Option.bind_eq_bind, Option.bind_some,
    Option.pure_def]

theorem Round.argument_of_key {r : Round} (key : List Char)
    (h : r.key = String.ofList ('-' :: key)) : r.argument = ofKey key r.value.toList := by
  have hdata : r.key = "--" ↔ key = ['-'] := by
    rw [h, ← String.toList_inj, String.toList_ofList]
    exact ⟨fun h => (List.cons.inj h).2, fun h => h ▸ rfl⟩
  have hdashes : r.key.toList.dropWhile (· == '-') = key.dropWhile (· == '-') := by
    rw [h, String.toList_ofList, List.dropWhile_cons_of_pos rfl]
  rw [Round.argument, ofKey, hdashes]
  simp only [hdata]

theorem Round.argument_bare (start : Nat) (key : List Char) :
    (Round.bare start key).argument = ofKey key [] :=
  Round.argument_of_key key rfl

theorem Round.argument_valued (start : Nat) (key value : List Char) (next : Option (List Char)) :
    (Round.valued start key value next).argument = ofKey key value := by
  rw [Round.argument_of_key key rfl, Round.valued, String.toList_ofList]

/-- What holds of every round: it cuts the text where it can be cut, the next one begins further on,
and its argument is plain. -/
structure Round.Sound (rest : String) (r : Round) : Prop where
  isCut : ∀ offset ∈ r.offsets, Text.IsCut rest offset
  forward : ∀ next ∈ r.next, r.start < next
  isPlain : r.argument.IsPlain

theorem OpensAt.sound_bare {rest : String} {start : Nat} {key : List Char}
    (h : OpensAt rest start key) (hkey : ' ' ∉ key) : (Round.bare start key).Sound rest where
  isCut := by
    have hbehind : Text.IsCut rest (start + 2) := h.isCut [] rfl
    simpa [Round.offsets, Round.bare] using ⟨h.isCut_dash, hbehind⟩
  forward := nofun
  isPlain := by
    rw [Round.argument_bare]
    exact isPlain_ofKey hkey isValue_nil

theorem OpensAt.sound_valued {rest : String} {start : Nat} {key value : List Char}
    {next : Option (List Char)} (h : OpensAt rest start (key ++ ' ' :: (value ++ opening next)))
    (hkey : ' ' ∉ key) (hvalue : IsValue value) :
    (Round.valued start key value next).Sound rest where
  isCut := by
    have hbehind : Text.IsCut rest (start + 2) := h.isCut [] rfl
    have hspace : Text.IsCut rest (start + 2 + utf8Len key) := h.isCut key rfl
    have hstart : Text.IsCut rest (start + 2 + utf8Len key + 1) :=
      OpensAt.isCut (key ++ [' ']) (by rwa [← List.append_cons])
        (utf8Len_behindKey start key []).symm
    have hend : Text.IsCut rest (start + 2 + utf8Len key + 1 + utf8Len value) :=
      OpensAt.isCut (key ++ ' ' :: value) (by rwa [List.append_assoc])
        (utf8Len_behindKey ..).symm
    intro offset hoffset
    simp only [Round.offsets, Round.valued, Option.toList_some, List.flatMap_singleton,
      List.mem_append, List.mem_cons, List.not_mem_nil, or_false, Option.mem_toList,
      Option.map_eq_some_iff] at hoffset
    rcases hoffset with ((rfl | rfl) | rfl | rfl) | ⟨_, _, rfl⟩
    · exact h.isCut_dash
    · exact hbehind
    · exact hspace
    · exact hstart
    · exact hend
  forward := by
    intro offset hoffset
    obtain ⟨_, _, rfl⟩ := Option.map_eq_some_iff.mp hoffset
    dsimp only [Round.valued]
    omega
  isPlain := by
    rw [Round.argument_valued]
    exact isPlain_ofKey hkey hvalue

theorem OpensAt.exists_round {rest : String} {start : Nat} {text : List Char}
    (h : OpensAt rest start text) :
    ∃ r, round? rest start = some r ∧ r.Sound rest ∧
      ((r.next = none ∧ read text = (r.argument, none)) ∨
        ∃ next behind, r.next = some next ∧ start < next ∧ OpensAt rest next behind ∧
          read text = (r.argument, some behind)) := by
  rcases behindDash_cases text with hkey | ⟨key, value, next, hkey, hvalue, rfl⟩
  · refine ⟨_, round?_bare h hkey, h.sound_bare hkey, .inl ⟨rfl, ?_⟩⟩
    rw [read_bare hkey, Round.argument_bare]
  · have hsound := h.sound_valued hkey hvalue
    refine ⟨_, round?_valued h hkey hvalue, hsound, ?_⟩
    rw [read_append hkey hvalue, Round.argument_valued]
    cases next with
    | none => exact .inl ⟨rfl, rfl⟩
    | some behind =>
        have hnext : OpensAt rest (start + 2 + utf8Len key + 1 + utf8Len value) behind :=
          OpensAt.next (key ++ ' ' :: value) (by rwa [List.append_assoc])
            (utf8Len_behindKey ..).symm
        exact .inr ⟨_, behind, rfl, hsound.forward _ rfl, hnext, rfl⟩

/-- From an argument on, each round brings the end of the text nearer, so the rounds come to an end.
Together they find what `Argument.readAll` finds. -/
theorem OpensAt.exists_rounds {rest : String} {start : Nat} {text : List Char}
    (h : OpensAt rest start text) {bound : Nat} (hbound : rest.utf8ByteSize ≤ start + bound)
    (found : List Argument) :
    ∃ rounds, rounds? rest bound (some start) = some rounds ∧ (∀ r ∈ rounds, r.Sound rest) ∧
      readAll found text = found.reverse ++ rounds.map Round.argument := by
  induction bound generalizing start text found with
  | zero => exact absurd h.lt (by omega)
  | succ bound ih =>
      obtain ⟨r, hround, hsound, ⟨hlast, hread⟩ | ⟨next, behind, hnext, hlt, hopens, hread⟩⟩ :=
        h.exists_round
      · refine ⟨[r], ?_, List.forall_mem_singleton.mpr hsound, ?_⟩
        · simp only [rounds?, hround, hlast, Option.bind_eq_bind, Option.bind_some, Option.pure_def]
        · rw [readAll_of_last hread, List.reverse_cons]
          rfl
      · obtain ⟨later, hlater, hall, hreadAll⟩ := ih hopens (by omega) (r.argument :: found)
        refine ⟨r :: later, ?_, List.forall_mem_cons.mpr ⟨hsound, hall⟩, ?_⟩
        · simp only [rounds?, hround, hnext, hlater, Option.bind_eq_bind, Option.bind_some,
            Option.pure_def]
        · rw [readAll_of_next hread, hreadAll, List.reverse_cons, List.append_assoc]
          rfl

theorem length_rounds?_le {rest : String} {bound : Nat} {index : Option Nat}
    {rounds : List Round} (h : rounds? rest bound index = some rounds) : rounds.length ≤ bound := by
  fun_induction rounds? rest bound index generalizing rounds with
  | case1 => cases h; exact Nat.zero_le _
  | case2 => cases h
  | case3 bound start ih =>
      obtain ⟨r, _, h⟩ := Option.bind_eq_some_iff.mp h
      obtain ⟨later, hlater, h⟩ := Option.bind_eq_some_iff.mp h
      cases h
      exact Nat.succ_le_succ (ih r hlater)

theorem exists_rounds (rest : String) {bound : Nat} (hbound : rest.utf8ByteSize ≤ bound) :
    ∃ rounds, rounds? rest bound (Text.find? rest " -") = some rounds ∧
      (∀ r ∈ rounds, r.Sound rest) ∧ Argument.list rest.toList = rounds.map Round.argument := by
  obtain ⟨value, next, hvalue, hrest⟩ := exists_value rest.toList
  have hfound : Text.find? rest " -" = next.map fun _ => utf8Len value := by
    rw [← find?_opening hvalue, ← hrest, String.ofList_toList]
  have hcut : cut [] rest.toList = (value, next) := by
    rw [hrest, cut_append hvalue, List.reverse_nil, List.nil_append]
  rw [hfound, Argument.list, hcut]
  cases next with
  | none => exact ⟨[], by cases bound <;> rfl, List.forall_mem_nil _, rfl⟩
  | some text => exact OpensAt.exists_rounds ⟨value, hrest, rfl⟩ (by omega) []

theorem split?_eq (line : String) :
    split? line = some (String.ofList (line.toList.takeWhile (· != ' ')),
      String.ofList (line.toList.dropWhile (· != ' '))) := by
  by_cases hmem : ' ' ∈ line.toList
  · obtain ⟨name, rest, hline, hname⟩ := List.eq_append_cons_of_mem hmem
    have hspace : Text.find? line " " = some (utf8Len name) := by
      rw [← find?_space hname rest, ← hline, String.ofList_toList]
    have hwhole : line.toList = [] ++ (name ++ ' ' :: rest) := hline
    have hfirst : Text.slice? line 0 (utf8Len name) = some (String.ofList name) :=
      Text.slice?_of_append hwhole rfl (Nat.zero_add _).symm
    have hrest : Text.slice? line (utf8Len name) line.utf8ByteSize =
        some (String.ofList (' ' :: rest)) :=
      Text.slice?_end hline rfl
    rw [hline, List.takeWhile_append_of_pos (forall_bne_space hname),
      List.dropWhile_append_of_pos (forall_bne_space hname), List.takeWhile_cons_of_neg (by decide),
      List.dropWhile_cons_of_neg (by decide), List.append_nil]
    simp only [split?, hspace, hfirst, hrest, Option.bind_eq_bind, Option.bind_some,
      Option.pure_def]
  · have hspace : Text.find? line " " = none := by
      rw [← find?_no_space hmem, String.ofList_toList]
    rw [List.takeWhile_eq_self_iff.mpr (forall_bne_space hmem),
      List.dropWhile_eq_nil_iff.mpr (forall_bne_space hmem)]
    simp only [split?, hspace, String.ofList_toList, String.ofList_nil]

structure IsPlain (c : Command) : Prop where
  undashed : ∀ o ∈ c.options, o.1.toList.head? ≠ some '-'
  unspaced : ∀ o ∈ c.options, ' ' ∉ o.1.toList
  value : ∀ o ∈ c.options, IsValue o.2.toList
  data : ∀ payload ∈ c.data, IsValue payload.toList

theorem isPlain_name (name : String) : ({ name } : Command).IsPlain where
  undashed := List.forall_mem_nil _
  unspaced := List.forall_mem_nil _
  value := List.forall_mem_nil _
  data := by rintro _ ⟨⟩

theorem IsPlain.take {c : Command} (hc : c.IsPlain) {a : Argument} (ha : a.IsPlain) :
    (c.take a).IsPlain := by
  cases a with
  | option key value =>
      obtain ⟨hundashed, hunspaced, hvalue⟩ := ha
      exact ⟨List.forall_mem_cons.mpr ⟨by rwa [String.toList_ofList], hc.undashed⟩,
        List.forall_mem_cons.mpr ⟨by rwa [String.toList_ofList], hc.unspaced⟩,
        List.forall_mem_cons.mpr ⟨by rwa [String.toList_ofList], hc.value⟩, hc.data⟩
  | data payload =>
      refine ⟨hc.undashed, hc.unspaced, hc.value, fun trimmed htrimmed => ?_⟩
      cases htrimmed
      rw [String.toList_ofList]
      exact fun hinside => ha (hinside.trans (Text.trimChars_infix payload))

theorem IsPlain.foldl_take {c : Command} (hc : c.IsPlain) {found : List Argument}
    (hfound : ∀ a ∈ found, a.IsPlain) : (found.foldl Command.take c).IsPlain := by
  induction found generalizing c with
  | nil => exact hc
  | cons a found ih =>
      obtain ⟨ha, hrest⟩ := List.forall_mem_cons.mp hfound
      exact ih (hc.take ha) hrest

theorem utf8ByteSize_behindName_le (line : String) :
    (String.ofList ((Text.trimChars line.toList).dropWhile (· != ' '))).utf8ByteSize ≤
      line.utf8ByteSize := by
  rw [String.utf8ByteSize_ofList, ← String.utf8Len_toList line]
  exact String.utf8Len_le_of_infix ((List.dropWhile_suffix _).isInfix.trans (Text.trimChars_infix _))

theorem scan?_eq {line : String} {bound : Nat} (hbound : line.utf8ByteSize ≤ bound) :
    scan? bound line = some (parse line) := by
  obtain ⟨rounds, hrounds, _, hlist⟩ :=
    exists_rounds _ ((utf8ByteSize_behindName_le line).trans hbound)
  rw [String.toList_ofList] at hlist
  simp only [scan?, parse, split?_eq, Text.toList_trim, String.toList_ofList, Option.bind_eq_bind,
    Option.bind_some]
  split
  · rfl
  · rw [hrounds, hlist, List.foldl_map]
    rfl

theorem isPlain_of_mem_list {text : List Char} :
    ∀ a ∈ Argument.list text, a.IsPlain := by
  obtain ⟨rounds, _, hsound, hlist⟩ := exists_rounds (String.ofList text) (Nat.le_refl _)
  rw [String.toList_ofList] at hlist
  rw [hlist, List.forall_mem_map]
  exact fun r hr => (hsound r hr).isPlain

theorem isPlain_of_parse {line : String} {c : Command} (h : parse line = .ok c) : c.IsPlain := by
  simp only [parse] at h
  split at h
  · cases h
  · cases h
    exact (isPlain_name _).foldl_take isPlain_of_mem_list

/-- The scanner reads every line, whatever characters are in it, in no more rounds than the line has
bytes.  Each round cuts the text only where it can be cut and begins further on than the one before.
Keys are stored without dashes in front and without spaces, and no argument begins in a value. -/
theorem scan_ends_in_line (line : String) :
    ∃ name rest rounds,
      split? (Text.trim line) = some (name, rest) ∧
      rounds? rest line.utf8ByteSize (Text.find? rest " -") = some rounds ∧
      rounds.length ≤ line.utf8ByteSize ∧ (∀ r ∈ rounds, r.Sound rest) ∧
      scan? line.utf8ByteSize line = some (parse line) ∧
      ∀ c, parse line = .ok c → c.IsPlain := by
  obtain ⟨rounds, hrounds, hsound, _⟩ := exists_rounds _ (utf8ByteSize_behindName_le line)
  have hsplit := split?_eq (Text.trim line)
  rw [Text.toList_trim] at hsplit
  exact ⟨_, _, rounds, hsplit, hrounds, length_rounds?_le hrounds, hsound, scan?_eq (Nat.le_refl _),
    fun _ => isPlain_of_parse⟩

example : scan? 20 "run -é ü-x -- -k -" = some (.ok
    { name := "run", options := [("", ""), ("é", "ü-x")], data := some "-k" }) := by
  decide +kernel

end ScriptDebugger.Command
