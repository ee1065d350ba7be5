import Mathlib.Data.List.TakeWhile
import ScriptDebugger.Command.Basic
import ScriptDebugger.Proofs.Text.Payload

namespace ScriptDebugger.Command

/-- A name of a command or of an option. -/
structure IsWord (s : String) : Prop where
  ne_empty : s ≠ ""
  visible : ∀ c ∈ s.toList, Text.isBlank c = false
  undashed : s.toList.head? ≠ some '-'

instance (s : String) : Decidable (IsWord s) :=
  decidable_of_iff
    (s ≠ "" ∧ (s.toList.all fun c => !Text.isBlank c) = true ∧ s.toList.head? ≠ some '-')
    ⟨fun ⟨hne, hvisible, hundashed⟩ => ⟨hne, by simpa using hvisible, hundashed⟩,
      fun h => ⟨h.ne_empty, by simpa using h.visible, h.undashed⟩⟩

/-- An argument as it stands in a line.  Under the key `-` it holds the data. -/
def writtenArgument (a : String × String) : String :=
  " -" ++ a.1 ++ " " ++ a.2

theorem toList_writtenArgument (a : String × String) :
    (writtenArgument a).toList = ' ' :: '-' :: (a.1.toList ++ ' ' :: a.2.toList) := by
  simp [writtenArgument]

def arguments (options : List (String × String)) (text : Option String) : List (String × String) :=
  options ++ (text.map fun t => ("-", Payload.encode t)).toList

def line (name : String) (options : List (String × String)) (text : Option String) : String :=
  name ++ String.join ((arguments options text).map writtenArgument)

def lastValue? (options : List (String × String)) (key : String) : Option String :=
  (options.filter fun o => o.1 = key).getLast?.map Prod.snd

theorem forall_bne_space {text : List Char} (h : ' ' ∉ text) : ∀ c ∈ text, (c != ' ') = true :=
  fun _ hc => bne_iff_ne.mpr fun hspace => h (hspace ▸ hc)

namespace Argument

def opening : Option (List Char) → List Char
  | none => []
  | some rest => ' ' :: '-' :: rest

/-- A text inside which no argument begins. -/
def IsValue (value : List Char) : Prop :=
  ¬ [' ', '-'] <:+: value

instance (value : List Char) : Decidable (IsValue value) :=
  inferInstanceAs (Decidable (¬ _))

theorem IsValue.of_cons {c : Char} {value : List Char} (h : IsValue (c :: value)) :
    IsValue value :=
  fun hinside => h (List.infix_cons hinside)

theorem isValue_of_not_mem {value : List Char} (h : ' ' ∉ value) : IsValue value :=
  fun hinside => h (hinside.subset List.mem_cons_self)

theorem isValue_nil : IsValue [] :=
  isValue_of_not_mem List.not_mem_nil

theorem IsValue.append {first value : List Char} (hvalue : IsValue value)
    (hfirst : ' ' ∉ first) : IsValue (first ++ value) := by
  induction first with
  | nil => exact hvalue
  | cons c first ih =>
      rw [List.mem_cons, not_or] at hfirst
      intro hinside
      rcases List.infix_cons_iff.mp hinside with hhere | hbehind
      · exact hfirst.1 (List.cons_prefix_cons.mp hhere).1
      · exact ih hfirst.2 hbehind

theorem isValue_numeral (n : Nat) : IsValue (Text.numeral n).toList := by
  rw [Text.numeral, String.toList_ofList]
  exact isValue_of_not_mem fun hmem =>
    Text.forall_mem_digits (p := (· ≠ ' ')) (by decide) n ' ' hmem rfl

/-- A value ends where the next argument begins. -/
theorem cut_append {value : List Char} (hvalue : IsValue value) (before : List Char)
    (next : Option (List Char)) :
    cut before (value ++ opening next) = (before.reverse ++ value, next) := by
  induction value generalizing before with
  | nil => cases next <;> simp [opening, cut]
  | cons c value ih =>
      have hinside : ∀ rest, c = ' ' → value ++ opening next = '-' :: rest → False := by
        rintro rest rfl hdash
        cases value with
        | nil => cases next <;> cases hdash
        | cons d value =>
            obtain ⟨rfl, _⟩ := List.cons.inj hdash
            exact hvalue (List.prefix_append [' ', '-'] value).isInfix
      rw [List.cons_append, cut.eq_3 _ _ _ hinside, ih hvalue.of_cons, List.reverse_cons,
        List.append_assoc]
      rfl

theorem read_bare {key : List Char} (hkey : ' ' ∉ key) : read key = (ofKey key [], none) := by
  have hall := forall_bne_space hkey
  rw [read, List.takeWhile_eq_self_iff.mpr hall, List.dropWhile_eq_nil_iff.mpr hall]

theorem read_append {key value : List Char} (hkey : ' ' ∉ key) (hvalue : IsValue value)
    (next : Option (List Char)) :
    read (key ++ ' ' :: (value ++ opening next)) = (ofKey key value, next) := by
  have hall := forall_bne_space hkey
  have htake : (key ++ ' ' :: (value ++ opening next)).takeWhile (· != ' ') = key := by
    rw [List.takeWhile_append_of_pos hall, List.takeWhile_cons_of_neg (by decide), List.append_nil]
  have hdrop : (key ++ ' ' :: (value ++ opening next)).dropWhile (· != ' ') =
      ' ' :: (value ++ opening next) := by
    rw [List.dropWhile_append_of_pos hall, List.dropWhile_cons_of_neg (by decide)]
  rw [read, htake, hdrop]
  simp only [cut_append hvalue, List.reverse_nil, List.nil_append]

theorem readAll_of_next {found : List Argument} {text next : List Char} {argument : Argument}
    (h : read text = (argument, some next)) :
    readAll found text = readAll (argument :: found) next := by
  rw [readAll]
  split
  · rename_i hread
    cases h.symm.trans hread
    rfl
  · rename_i hread
    cases h.symm.trans hread

theorem readAll_of_last {found : List Argument} {text : List Char} {argument : Argument}
    (h : read text = (argument, none)) : readAll found text = (argument :: found).reverse := by
  rw [readAll]
  split
  · rename_i hread
    cases h.symm.trans hread
  · rename_i hread
    cases h.symm.trans hread
    rfl

structure IsWritable (a : String × String) : Prop where
  visible : ∀ c ∈ a.1.toList, Text.isBlank c = false
  value : IsValue a.2.toList

theorem IsWritable.space_not_mem {a : String × String} (h : IsWritable a) : ' ' ∉ a.1.toList :=
  fun hmem => absurd (h.visible ' ' hmem) (by decide)

def behindDash : List (String × String) → Option (List Char)
  | [] => none
  | [a] => some (if a.2 = "" then a.1.toList else a.1.toList ++ ' ' :: a.2.toList)
  | a :: b :: rest =>
      some (a.1.toList ++ ' ' :: (a.2.toList ++ opening (behindDash (b :: rest))))

theorem exists_behindDash (a : String × String) (rest : List (String × String)) :
    ∃ text, behindDash (a :: rest) = some text := by
  cases rest <;> exact ⟨_, rfl⟩

def ofPair (a : String × String) : Argument :=
  ofKey a.1.toList a.2.toList

theorem readAll_behindDash {args : List (String × String)} (hargs : ∀ a ∈ args, IsWritable a)
    {text : List Char} (htext : behindDash args = some text) (found : List Argument) :
    readAll found text = found.reverse ++ args.map ofPair := by
  fun_induction behindDash args generalizing text found with
  | case1 => cases htext
  | case2 a =>
      cases htext
      have ha := hargs a List.mem_cons_self
      have hread : read (if a.2 = "" then a.1.toList else a.1.toList ++ ' ' :: a.2.toList) =
          (ofPair a, none) := by
        split
        · rename_i hempty
          rw [read_bare ha.space_not_mem, ofPair, hempty]
          rfl
        · have happend := read_append ha.space_not_mem ha.value none
          rwa [opening, List.append_nil] at happend
      rw [readAll_of_last hread, List.reverse_cons]
      rfl
  | case3 a b rest ih =>
      cases htext
      have ha := hargs a List.mem_cons_self
      obtain ⟨next, hnext⟩ := exists_behindDash b rest
      rw [hnext, readAll_of_next (read_append ha.space_not_mem ha.value (some next)),
        ih (fun c hc => hargs c (List.mem_cons_of_mem _ hc)) hnext, List.reverse_cons,
        List.append_assoc]
      rfl

theorem list_opening {args : List (String × String)} (hargs : ∀ a ∈ args, IsWritable a) :
    list (opening (behindDash args)) = args.map ofPair := by
  have hcut := cut_append isValue_nil [] (behindDash args)
  rw [List.nil_append] at hcut
  rw [list, hcut]
  cases htext : behindDash args with
  | none =>
      cases args with
      | nil => rfl
      | cons a rest =>
          obtain ⟨text, hsome⟩ := exists_behindDash a rest
          cases htext.symm.trans hsome
  | some text => exact readAll_behindDash hargs htext []

theorem trimEnd_flatMap {args : List (String × String)} (hargs : ∀ a ∈ args, IsWritable a)
    (hend : ∀ a ∈ args.getLast?, ∀ c ∈ a.2.toList.getLast?, Text.isBlank c = false) :
    Text.trimEnd (args.flatMap fun a => (writtenArgument a).toList) =
      opening (behindDash args) := by
  fun_induction behindDash args with
  | case1 => rfl
  | case2 a =>
      have ha := hargs a List.mem_cons_self
      rw [List.flatMap_singleton, toList_writtenArgument, opening]
      split
      · rename_i hempty
        have hvisible : ∀ c ∈ (' ' :: '-' :: a.1.toList).getLast?, Text.isBlank c = false := by
          intro c hc
          rw [List.getLast?_cons_cons] at hc
          rcases List.mem_cons.mp (List.mem_of_getLast? hc) with rfl | hmem
          · decide
          · exact ha.visible c hmem
        rw [hempty, String.toList_empty, ← List.cons_append, ← List.cons_append,
          Text.trimEnd_append_blank (by decide), Text.trimEnd_eq_self hvisible]
      · rename_i hvalue
        have htrimmed : Text.trimEnd a.2.toList = a.2.toList := Text.trimEnd_eq_self (hend a rfl)
        have hne : Text.trimEnd a.2.toList ≠ [] := by
          rwa [htrimmed, ne_eq, String.toList_eq_nil_iff]
        calc Text.trimEnd (' ' :: '-' :: (a.1.toList ++ ' ' :: a.2.toList))
            = Text.trimEnd ((' ' :: '-' :: (a.1.toList ++ [' '])) ++ a.2.toList) := by simp
          _ = ' ' :: '-' :: (a.1.toList ++ ' ' :: a.2.toList) := by
            rw [Text.trimEnd_append hne, htrimmed]
            simp
  | case3 a b rest ih =>
      have hrest := ih (fun c hc => hargs c (List.mem_cons_of_mem _ hc))
        (by rwa [List.getLast?_cons_cons] at hend)
      obtain ⟨next, hnext⟩ := exists_behindDash b rest
      rw [List.flatMap_cons, Text.trimEnd_append (by rw [hrest, hnext]; exact List.cons_ne_nil _ _),
        hrest, toList_writtenArgument, opening]
      simp

end Argument

open Argument

theorem toList_line (name : String) (options : List (String × String)) (text : Option String) :
    (line name options text).toList =
      name.toList ++ (arguments options text).flatMap fun a => (writtenArgument a).toList := by
  rw [line, String.toList_append, String.toList_join, List.flatMap_map]

theorem trimChars_line {name : String} {options : List (String × String)} {text : Option String}
    (hname : IsWord name) (hargs : ∀ a ∈ arguments options text, IsWritable a)
    (hend : ∀ a ∈ (arguments options text).getLast?, ∀ c ∈ a.2.toList.getLast?,
      Text.isBlank c = false) :
    Text.trimChars (line name options text).toList =
      name.toList ++ opening (behindDash (arguments options text)) := by
  have hne := mt String.toList_eq_nil_iff.mp hname.ne_empty
  have hfirst : ∀ c ∈ (line name options text).toList.head?, Text.isBlank c = false := by
    intro c hc
    rw [toList_line, List.head?_append, Option.mem_def, Option.or_eq_some_iff] at hc
    rcases hc with hc | ⟨hnone, _⟩
    · exact hname.visible c (List.mem_of_mem_head? hc)
    · exact absurd (List.head?_eq_none_iff.mp hnone) hne
  have hspelled := trimEnd_flatMap hargs hend
  rw [Text.trimChars, Text.trimStart_eq_self hfirst, toList_line]
  cases hempty : arguments options text with
  | nil =>
      rw [List.flatMap_nil, List.append_nil]
      refine (Text.trimEnd_eq_self fun c hc => ?_).trans (List.append_nil _).symm
      exact hname.visible c (List.mem_of_getLast? hc)
  | cons a rest =>
      obtain ⟨next, hnext⟩ := exists_behindDash a rest
      rw [hempty] at hspelled
      rw [Text.trimEnd_append, hspelled]
      rw [hspelled, hnext]
      exact List.cons_ne_nil _ _

theorem parse_of_trimChars {name s : String} (hname : IsWord name) {next : Option (List Char)}
    (h : Text.trimChars s.toList = name.toList ++ opening next) :
    parse s = .ok ((Argument.list (opening next)).foldl take { name := name }) := by
  have hall : ∀ c ∈ name.toList, (c != ' ') = true :=
    forall_bne_space fun hmem => absurd (hname.visible _ hmem) (by decide)
  have htake : (name.toList ++ opening next).takeWhile (· != ' ') = name.toList := by
    rw [List.takeWhile_append_of_pos hall]
    cases next <;> simp [opening]
  have hdrop : (name.toList ++ opening next).dropWhile (· != ' ') = opening next := by
    rw [List.dropWhile_append_of_pos hall]
    cases next <;> simp [opening]
  have hfirst : (name.toList.isEmpty || name.toList.head? == some '-') = false := by
    simpa using ⟨hname.ne_empty, hname.undashed⟩
  simp only [parse, h, htake, hdrop, hfirst, Bool.false_eq_true, if_false, String.ofList_toList]

theorem IsWord.isOption {key : String} (hkey : IsWord key) (value : List Char) :
    ofKey key.toList value = .option key.toList value := by
  obtain ⟨c, rest, hcs⟩ := List.exists_cons_of_ne_nil (mt String.toList_eq_nil_iff.mp hkey.ne_empty)
  have hc : c ≠ '-' := by
    rintro rfl
    exact hkey.undashed (by rw [hcs]; rfl)
  have hdrop : (c :: rest).dropWhile (· == '-') = c :: rest :=
    List.dropWhile_cons_of_neg (by simpa using hc)
  rw [ofKey, hcs, hdrop, if_neg fun h => hc (List.cons.inj h).1]

theorem foldl_take_options (c : Command) {options : List (String × String)}
    (hkeys : ∀ o ∈ options, IsWord o.1) :
    (options.map ofPair).foldl take c = { c with options := options.reverse ++ c.options } := by
  induction options generalizing c with
  | nil => rfl
  | cons o rest ih =>
      rw [List.map_cons, List.foldl_cons, ofPair, (hkeys o List.mem_cons_self).isOption,
        ih _ fun o ho => hkeys o (List.mem_cons_of_mem _ ho)]
      simp [take]

theorem ofPair_data (payload : String) : ofPair ("-", payload) = .data payload.toList := by
  have hkey : "-".toList = ['-'] := by decide
  rw [ofPair, hkey, ofKey, if_pos rfl]

theorem foldl_take_arguments {name : String} {options : List (String × String)}
    (hkeys : ∀ o ∈ options, IsWord o.1) (text : Option String) :
    ((arguments options text).map ofPair).foldl take { name := name } =
      { name := name, options := options.reverse, data := text.map Payload.encode } := by
  rw [arguments, List.map_append, List.foldl_append, foldl_take_options _ hkeys, List.append_nil]
  cases text with
  | none => rfl
  | some t =>
      rw [Option.map_some, Option.toList_some, List.map_singleton, ofPair_data, List.foldl_cons,
        List.foldl_nil, take, Payload.encode, String.toList_ofList, Payload.trimChars_encodeChars]
      rfl

/-- A written line is read as the options, latest first, and the data. -/
theorem parse_written {name : String} {options : List (String × String)} {text : Option String}
    (hname : IsWord name) (hkeys : ∀ o ∈ options, IsWord o.1)
    (hargs : ∀ a ∈ arguments options text, IsWritable a)
    (hend : ∀ a ∈ (arguments options text).getLast?, ∀ c ∈ a.2.toList.getLast?,
      Text.isBlank c = false) :
    parse (line name options text) =
      .ok { name := name, options := options.reverse, data := text.map Payload.encode } := by
  rw [parse_of_trimChars hname (trimChars_line hname hargs hend), list_opening hargs,
    foldl_take_arguments hkeys]

theorem get?_reverse (options : List (String × String)) (key : String) :
    Table.get? options.reverse key = lastValue? options key := by
  rw [Table.get?_eq_filter, List.filter_reverse, List.head?_reverse, lastValue?]

theorem isWritable_data (text : String) : IsWritable ("-", Payload.encode text) where
  visible := by
    have hkey : "-".toList = ['-'] := by decide
    rw [hkey, List.forall_mem_singleton]
    decide
  value := by
    refine isValue_of_not_mem fun hmem => ?_
    rw [Payload.encode, String.toList_ofList] at hmem
    exact absurd (Payload.isBlank_encodeChars _ _ hmem) (by decide)

/-- A command line is read as what it was written from: the name, for each key the value that was
given last, and the data as a text.  A last value that nothing follows must not end in a blank. -/
theorem parse_line {name : String} {options : List (String × String)} {text : Option String}
    (hname : IsWord name) (hkeys : ∀ o ∈ options, IsWord o.1)
    (hvalues : ∀ o ∈ options, IsValue o.2.toList)
    (hend : text = none → ∀ o ∈ options.getLast?, ∀ c ∈ o.2.toList.getLast?,
      Text.isBlank c = false) :
    ∃ c, parse (line name options text) = .ok c ∧ c.name = name ∧
      (∀ key, c.option? key = lastValue? options key) ∧ c.decodedData? = .ok text := by
  have hoptions : ∀ o ∈ options, IsWritable o := fun o ho =>
    ⟨(hkeys o ho).visible, hvalues o ho⟩
  have hargs : ∀ a ∈ arguments options text, IsWritable a := by
    intro a ha
    rcases List.mem_append.mp ha with ha | ha
    · exact hoptions a ha
    · obtain ⟨t, _, rfl⟩ := Option.map_eq_some_iff.mp (Option.mem_toList.mp ha)
      exact isWritable_data t
  have hlast : ∀ a ∈ (arguments options text).getLast?, ∀ c ∈ a.2.toList.getLast?,
      Text.isBlank c = false := by
    cases text with
    | none =>
        rw [arguments, Option.map_none, Option.toList_none, List.append_nil]
        exact hend rfl
    | some t =>
        intro a ha c hc
        rw [arguments, Option.map_some, Option.toList_some, List.getLast?_concat] at ha
        cases ha
        rw [Payload.encode, String.toList_ofList] at hc
        exact Payload.isBlank_encodeChars _ c (List.mem_of_getLast? hc)
  refine ⟨_, parse_of_trimChars hname (trimChars_line hname hargs hlast), ?_⟩
  rw [list_opening hargs, foldl_take_arguments hkeys]
  refine ⟨rfl, get?_reverse options, ?_⟩
  cases text with
  | none => rfl
  | some t =>
      rw [decodedData?, Option.map_some]
      dsimp only
      rw [Payload.decode_encode]
      rfl

theorem parse_line_repeated_key :
    ∃ c, parse "eval -i  -i -9  -- MSArIDE=" = .ok c ∧ c.name = "eval" ∧
      c.option? "i" = some "-9 " ∧ c.decodedData? = .ok (some "1 + 1") := by
  have hline : line "eval" [("i", ""), ("i", "-9 ")] (some "1 + 1") =
      "eval -i  -i -9  -- MSArIDE=" := by
    decide +kernel
  have hkey : IsWord "i" := by decide
  have hvalues : ∀ o ∈ [("i", ""), ("i", "-9 ")], IsValue (Prod.snd o).toList := by
    decide
  obtain ⟨c, hparse, hname, hoptions, hdata⟩ :=
    @parse_line "eval" [("i", ""), ("i", "-9 ")] (some "1 + 1") (by decide)
      (by simp [hkey]) hvalues nofun
  rw [hline] at hparse
  exact ⟨c, hparse, hname, hoptions "i", hdata⟩

end ScriptDebugger.Command
