import ScriptDebugger.Proofs.Command.Line
import ScriptDebugger.Proofs.Session.Frames
import ScriptDebugger.Proofs.Session.Notices
import ScriptDebugger.Proofs.Session.ReadAnswer

namespace ScriptDebugger

namespace Text

theorem isPrefixOf?_append (first rest : List Char) :
    first.isPrefixOf? (first ++ rest) = some rest := by
  induction first with
  | nil => rfl
  | cons c first ih => simp [List.isPrefixOf?, ih]

theorem toList_toFileUri {path : String} (h : ¬fileScheme <+: path.toList) :
    (toFileUri path).toList = fileScheme ++ path.toList := by
  have hscheme : ¬fileScheme.isPrefixOf path.toList = true := mt List.isPrefixOf_iff_prefix.mp h
  rw [toFileUri, if_neg hscheme, String.toList_ofList]

theorem trimChars_toFileUri {path : String} (htrim : trim path = path)
    (hscheme : ¬fileScheme <+: path.toList) :
    trimChars (toFileUri path).toList = (toFileUri path).toList := by
  rw [toList_toFileUri hscheme]
  refine trimChars_eq_self ?_ fun c hc => ?_
  · exact fun c hc => (Option.some.inj hc) ▸ (by decide : isBlank 'f' = false)
  · rw [List.getLast?_append, Option.mem_def, Option.or_eq_some_iff] at hc
    rcases hc with hc | ⟨_, hc⟩
    · refine isBlank_of_getLast_trimChars path.toList c ?_
      rwa [← toList_trim, htrim]
    · exact (Option.some.inj hc) ▸ (by decide : isBlank '/' = false)

theorem stripFileUri_toFileUri {path : String} (htrim : trim path = path)
    (hscheme : ¬fileScheme <+: path.toList) : stripFileUri (toFileUri path) = path := by
  rw [stripFileUri, trimChars_toFileUri htrim hscheme, toList_toFileUri hscheme,
    isPrefixOf?_append, Option.getD_some, String.ofList_toList]

end Text

namespace Command

/-- The command sets a breakpoint on a line, and says nothing but where. -/
structure SetsAt (c : Command) (filename lineno : String) : Prop where
  name : c.name = "breakpoint_set"
  file : c.option? "f" = some filename
  line : c.option? "n" = some lineno
  kind : c.option? "t" = none ∨ c.option? "t" = some "line"
  others : ∀ key ∈ ["s", "h", "o", "m", "x", "r"], c.option? key = none
  data : c.data = none

end Command

namespace Session

open ScriptDebugger.Action

def IsAt (s : Session) (file : String) (line : Nat) : Prop :=
  ∃ f rest, s.frames = f :: rest ∧ f.location = ⟨file, line⟩

theorem exists_frame_moveTo (c : Context) (file : String) (line : Nat) :
    ∃ f rest, (c.moveTo file line).frames = f :: rest ∧ f.location = ⟨file, line⟩ := by
  unfold Context.moveTo
  split
  · exact ⟨_, _, rfl, rfl⟩
  · exact ⟨_, _, rfl, rfl⟩

theorem isAt_hook_line {s : Session} (h : s.Reached) (hopen : s.closed = false)
    (hcurrent : s.current?.isSome = true) (file : String) (line : Nat) :
    (s.hook (.line file line)).2.IsAt file line := by
  obtain ⟨c, hcurrent⟩ := Option.isSome_iff_exists.mp hcurrent
  have hframed := framed_hook (Grounded.of_reached h) hopen hcurrent (.line file line)
  obtain ⟨f, rest, hframes, hlocation⟩ := exists_frame_moveTo c file line
  exact ⟨f, rest, (hframed.frames_of_stays rfl).trans hframes, hlocation⟩

theorem built_frameElement (level : Nat) (f : Frame) : (frameElement level f).Built := by
  refine .ofParts (show Markup.isName "stack" = true by decide) ?_ (List.forall_mem_nil _)
  simp only [frameElement, List.forall_mem_cons]
  exact ⟨by decide, by decide, by decide, by decide, by decide, List.forall_mem_nil _⟩

theorem built_frameParts (level : Nat) (frames : List Frame) :
    ∀ part ∈ frameParts level frames, ∃ inner : Element, inner.Built ∧ part = inner.toPart := by
  induction frames generalizing level with
  | nil => exact List.forall_mem_nil _
  | cons f rest ih =>
      exact List.forall_mem_cons.mpr ⟨⟨_, built_frameElement level f, rfl⟩, ih (level + 1)⟩

/-- A client that asks for the stack, or for its executing frame, reads the place in the answer. -/
def ShowsPlace (s : Session) (filename lineno : String) : Prop :=
  ∀ {text : String} {c : Command}, Command.parse text = .ok c → c.name = "stack_get" →
    (c.number? "d" Text.bound64 = .ok none ∨ c.number? "d" Text.bound64 = .ok (some 0)) →
      ∃ e shown, s.sent (.command text) = (if s.outbox.isOpen then [.answer e] else []) ∧
        e.shown? = some shown ∧ shown.attribute? "filename" = some filename ∧
          shown.attribute? "lineno" = some lineno

theorem stackAnswer_eq_ok (s : Session) (c : Command) {level : Option Nat}
    (hlevel : level = none ∨ level = some 0) {f : Frame} {rest : List Frame}
    (hframes : s.frames = f :: rest) :
    ∃ e others, s.stackAnswer c level = .ok e ∧ e.Built ∧
      e.content = (frameElement 0 f).toPart :: others := by
  rcases hlevel with rfl | rfl
  · refine ⟨{ c.answer with content := frameParts 0 s.frames }, frameParts 1 rest, rfl, ?_, ?_⟩
    · have hbuilt := c.built_answer.addParts (built_frameParts 0 s.frames)
      rw [c.content_answer] at hbuilt
      exact hbuilt
    · rw [hframes]
      rfl
  · refine ⟨c.answer.child (frameElement 0 f), [], ?_, c.built_answer.child (built_frameElement 0 f),
      ?_⟩
    · rw [stackAnswer, hframes]
      rfl
    · rw [Element.child, Element.add, c.content_answer]
      rfl

theorem IsAt.showsPlace {s : Session} {file : String} {line : Nat} (h : s.IsAt file line) :
    s.ShowsPlace (Text.toFileUri file) (Text.numeral line) := by
  intro text c hparse hname hlevel
  obtain ⟨f, rest, hframes, hlocation⟩ := h
  cases hlocation
  obtain ⟨level, hread, hlevel⟩ : ∃ level, c.number? "d" Text.bound64 = .ok level ∧
      (level = none ∨ level = some 0) := by
    rcases hlevel with hread | hread
    · exact ⟨_, hread, .inl rfl⟩
    · exact ⟨_, hread, .inr rfl⟩
  obtain ⟨e, others, hanswer, hbuilt, hcontent⟩ := s.stackAnswer_eq_ok c hlevel hframes
  have hrun : s.execute c = .ok (s.answer e) := by
    rw [execute, obey_of_name hname rfl, stackGetCommand, hread, on_read_ok]
    change Except.ok (s.answerOutcome c (s.stackAnswer c level)) = _
    rw [hanswer]
    rfl
  exact ⟨e, _, sent_of_dispatch (dispatch_of_parse hparse hrun) rfl,
    Element.shown?_of_built hbuilt hcontent, rfl, rfl⟩

def breakpointAt (file : String) (line : Nat) : Breakpoint :=
  { kind := .line, file := file, line := line }

theorem readBreakpoint_of_setsAt {c : Command} {file filename : String} {line : Nat}
    (h : c.SetsAt filename (Text.numeral line)) (hfile : Text.stripFileUri filename = file)
    (hline : line < Text.bound32) : readBreakpoint c = .ok (breakpointAt file line) := by
  have hnone : ∀ key ∈ ["s", "h", "o", "m", "x", "r"], c.option? key = none := h.others
  simp only [List.forall_mem_cons] at hnone
  obtain ⟨hstate, hvalue, hcondition, hfunction, hexception, htemporary, _⟩ := hnone
  have hkind : ∃ kind, c.read? "t" (fun value => (Breakpoint.Kind.read value).toOption) = .ok kind ∧
      kind.getD .line = .line := by
    rcases h.kind with hkind | hkind
    · exact ⟨none, Command.read?_of_option?_eq_none hkind, rfl⟩
    · refine ⟨some .line, ?_, rfl⟩
      rw [Command.read?, hkind]
      rfl
  have hnumber : c.number? "n" Text.bound32 = .ok (some line) := by
    rw [Command.number?, Command.read?, h.line]
    dsimp only
    rw [Text.trim_numeral, Text.numeral, String.toList_ofList, Text.readNumeral?_digits hline]
  have hpolicy : ∀ b : Breakpoint,
      readHitPolicy c b = .ok { b with hitValue := 0, hitCondition := none } := by
    intro b
    rw [readHitPolicy, Command.number?, Command.read?_of_option?_eq_none hvalue,
      Command.read?_of_option?_eq_none hcondition]
    rfl
  have hexpression : ∀ b : Breakpoint, b.kind = .line → readExpression c b = .ok b := by
    intro b hb
    rw [readExpression, Command.decodedData?, h.data]
    dsimp only
    change (if b.kind = .watch then _ else _) = _
    rw [if_neg (by rw [hb]; decide)]
    rfl
  obtain ⟨kind, hread, hdefault⟩ := hkind
  rw [readBreakpoint, hread, Command.read?_of_option?_eq_none hstate, hnumber, h.file, hfunction, hexception,
    Command.isSet, htemporary]
  change (readHitPolicy c _ >>= readExpression c) = _
  rw [hpolicy]
  refine (hexpression _ ?_).trans ?_
  · exact hdefault
  · rw [← hfile, breakpointAt]
    simp [hdefault]

theorem add_breakpointAt (r : Registry) (file : String) (line : Nat) :
    ∃ b after, b = { breakpointAt file line with id := r.lastId + 1 } ∧
      r.add (breakpointAt file line) = .ok (r.lastId + 1, after) ∧
      after.get? (r.lastId + 1) = some b ∧ (after.hitLine file line).1 = some b.counted := by
  obtain ⟨after, hadd⟩ : ∃ after, r.add (breakpointAt file line) = .ok (r.lastId + 1, after) :=
    ⟨_, rfl⟩
  obtain ⟨_, _, hafter⟩ := Registry.add_eq_ok hadd
  generalize hb : { breakpointAt file line with id := r.lastId + 1, hitCount := 0 } = b at hafter
  have hget : after.get? (r.lastId + 1) = some b := by
    rw [hafter, ← hb]
    exact Registry.get?_put_self _ _
  have hlookup : after.lookup (.line ⟨file, line⟩) = some (r.lastId + 1) := by
    rw [hafter, Registry.lookup_put, Registry.lookup_index, ← hb]
    exact if_pos rfl
  refine ⟨b, after, hb.symm, hadd, hget, ?_⟩
  change (after.hit (after.lookup (.line ⟨file, line⟩))).1 = _
  rw [hlookup, Registry.fst_hit, Option.bind_some, hget, ← hb]
  rfl

theorem execute_of_readBreakpoint {s : Session} {c : Command} {b : Breakpoint}
    {id : Breakpoint.Id} {registry : Registry} (hname : c.name = "breakpoint_set")
    (hread : readBreakpoint c = .ok b) (hadd : s.registry.add b = .ok (id, registry)) :
    s.execute c = .ok ({ s with registry := registry }.answer
      ((c.answer.attr "id" (Breakpoint.Id.text id)).attr "state" b.state.text)) := by
  rw [execute, obey_of_name hname rfl, breakpointSetCommand, hread, on_read_ok, replyResult,
    on_bind, on_tryCatch, on_bind, changeBreakpoints, on_get, hadd]
  rfl

theorem attribute?_no_place {b : Breakpoint} (h : b.file = "") {name : String}
    (hname : name ∈ ["filename", "lineno"]) (hfunction : b.function = none)
    (hexception : b.exception = none) : (breakpointElement b).attribute? name = none := by
  rw [Element.attribute?, breakpointElement, h, hfunction, hexception]
  simp only [List.mem_cons, List.not_mem_nil, or_false] at hname
  rcases hname with rfl | rfl <;> rfl

theorem exists_setsAt {filename : String} {line : Nat}
    (hvalue : Command.Argument.IsValue filename.toList) :
    ∃ c, Command.parse (Command.line "breakpoint_set"
      [("f", filename), ("n", Text.numeral line)] none) = .ok c ∧
        c.SetsAt filename (Text.numeral line) := by
  have hfile : Command.IsWord "f" := by decide
  have hline : Command.IsWord "n" := by decide
  refine ⟨_, Command.parse_written (by decide) ?_ ?_ ?_, rfl, rfl, rfl, .inl rfl, ?_, rfl⟩
  · simp only [List.forall_mem_cons]
    exact ⟨hfile, hline, List.forall_mem_nil _⟩
  · simp only [Command.arguments, Option.map_none, Option.toList_none, List.append_nil,
      List.forall_mem_cons]
    exact ⟨⟨hfile.visible, hvalue⟩, ⟨hline.visible, Command.Argument.isValue_numeral line⟩,
      List.forall_mem_nil _⟩
  · intro a ha c hc
    obtain rfl : ("n", Text.numeral line) = a := Option.some.inj ha
    rw [Text.numeral, String.toList_ofList] at hc
    exact Text.isBlank_digits line c (List.mem_of_getLast? hc)
  · simp only [List.forall_mem_cons]
    exact ⟨rfl, rfl, rfl, rfl, rfl, rfl, List.forall_mem_nil _⟩

/-- Where the executing frame is shown to be, a client can set a breakpoint.  The frame is where the
last report of a line has moved it.  The breakpoint stops the debuggee when it comes to the line
again, and shows the same place, unless the file has no name. -/
theorem shown_location_sets_breakpoint {file : String} {line : Nat}
    (htrim : Text.trim file = file) (hvalue : Command.Argument.IsValue file.toList)
    (hscheme : ¬Text.fileScheme <+: file.toList) (hline : line < Text.bound32) :
    (∀ s : Session, s.Reached → s.closed = false → s.current?.isSome = true →
      (s.hook (.line file line)).2.IsAt file line) ∧
    ∀ s : Session, s.IsAt file line →
      s.ShowsPlace (Text.toFileUri file) (Text.numeral line) ∧
      (∃ c, Command.parse (Command.line "breakpoint_set"
        [("f", Text.toFileUri file), ("n", Text.numeral line)] none) = .ok c ∧
          c.SetsAt (Text.toFileUri file) (Text.numeral line)) ∧
      ∀ {text : String} {c : Command}, Command.parse text = .ok c →
        c.SetsAt (Text.toFileUri file) (Text.numeral line) →
          ∃ id b, id = s.registry.lastId + 1 ∧
            s.sent (.command text) = (if s.outbox.isOpen then
              [.answer ((c.answer.attr "id" (Breakpoint.Id.text id)).attr "state" "enabled")]
              else []) ∧
            (s.dispatch text).registry.get? id = some b ∧
            ((s.dispatch text).registry.hitLine file line).1 = some b.counted ∧
            ∃ shown, (s.dispatch text).ReadsBreakpoint id shown ∧
              if file = "" then
                shown.attribute? "filename" = none ∧ shown.attribute? "lineno" = none
              else shown.attribute? "filename" = some (Text.toFileUri file) ∧
                shown.attribute? "lineno" = some (Text.numeral line) := by
  refine ⟨fun s h hopen hcurrent => isAt_hook_line h hopen hcurrent file line, fun s hat => ?_⟩
  refine ⟨hat.showsPlace, exists_setsAt ?_, fun {text c} hparse hsets => ?_⟩
  · rw [Text.toList_toFileUri hscheme]
    exact hvalue.append (by decide)
  have hread := readBreakpoint_of_setsAt hsets (Text.stripFileUri_toFileUri htrim hscheme) hline
  obtain ⟨b, after, hb, hadd, hget, hhit⟩ := add_breakpointAt s.registry file line
  have hdispatch := dispatch_of_parse hparse (execute_of_readBreakpoint hsets.name hread hadd)
  refine ⟨_, b, rfl, sent_of_dispatch hdispatch rfl, ?_, ?_, (breakpointElement b).reading, ?_, ?_⟩
  · rw [hdispatch]
    exact hget
  · rw [hdispatch]
    exact hhit
  · rw [hdispatch]
    exact readsBreakpoint_of_get? hget
  · subst hb
    split
    · rename_i hempty
      exact ⟨attribute?_no_place hempty (by decide) rfl rfl,
        attribute?_no_place hempty (by decide) rfl rfl⟩
    · rename_i hnamed
      exact attribute?_place hnamed

def executing (file : String) (line : Nat) : Session :=
  (opened {} (Host.ofTable none []) {}).run [.enterContext, .hook (.line file line)]

theorem isAt_executing (file : String) (line : Nat) : (executing file line).IsAt file line :=
  isAt_hook_line (s := (opened {} (Host.ofTable none []) {}).run [.enterContext])
    ⟨_, _, _, _, rfl⟩ rfl rfl file line

theorem shown_location_sets_breakpoint_script :
    let s := executing "/a b.js" 7
    s.IsAt "/a b.js" 7 ∧ s.ShowsPlace "file:///a b.js" "7" ∧
      ∃ b shown, let t := s.dispatch "breakpoint_set -i 1 -t line -f file:///a b.js -n 7"
        (t.registry.hitLine "/a b.js" 7).1 = some b ∧ t.ReadsBreakpoint 1 shown ∧
          shown.attribute? "filename" = some "file:///a b.js" := by
  intro s
  have huri : Text.toFileUri "/a b.js" = "file:///a b.js" := by decide +kernel
  have hnumeral : Text.numeral 7 = "7" := by decide +kernel
  have hparse : Command.parse "breakpoint_set -i 1 -t line -f file:///a b.js -n 7" =
      .ok ⟨"breakpoint_set", [("n", "7"), ("f", "file:///a b.js"), ("t", "line"), ("i", "1")],
        none⟩ :=
    Command.parse_eq_ok (by decide +kernel)
  obtain ⟨hline, hplace⟩ := @shown_location_sets_breakpoint "/a b.js" 7 (by decide +kernel)
    (by decide +kernel) (by decide +kernel) (by decide)
  have hat : s.IsAt "/a b.js" 7 :=
    hline ((opened {} (Host.ofTable none []) {}).run [.enterContext]) ⟨_, _, _, _, rfl⟩ rfl rfl
  rw [huri, hnumeral] at hplace
  obtain ⟨hshows, _, hset⟩ := hplace s hat
  obtain ⟨id, b, rfl, _, _, hhit, shown, hreads, hshown⟩ :=
    hset hparse ⟨rfl, by decide, by decide, .inr (by decide), by decide, rfl⟩
  exact ⟨hat, hshows, b.counted, shown, hhit, hreads, hshown.1⟩

/-- A file without a name is shown by no breakpoint, and one whose name is a URI is not found again:
the breakpoint stands at the path of the URI. -/
theorem shown_location_lost :
    (∃ c shown, (executing "" 1).IsAt "" 1 ∧ (executing "" 1).ShowsPlace "file://" "1" ∧
      Command.parse "breakpoint_set -f file:// -n 1" = .ok c ∧ c.SetsAt "file://" "1" ∧
      ((executing "" 1).dispatch "breakpoint_set -f file:// -n 1").ReadsBreakpoint 1 shown ∧
      shown.attribute? "filename" ≠ some "file://") ∧
    ∃ c, (executing "file:///a.js" 1).IsAt "file:///a.js" 1 ∧
      (executing "file:///a.js" 1).ShowsPlace "file:///a.js" "1" ∧
      Command.parse "breakpoint_set -f file:///a.js -n 1" = .ok c ∧ c.SetsAt "file:///a.js" "1" ∧
      (((executing "file:///a.js" 1).dispatch
        "breakpoint_set -f file:///a.js -n 1").registry.hitLine "file:///a.js" 1).1 = none := by
  have hnumeral : Text.numeral 1 = "1" := by decide +kernel
  have hempty : Text.toFileUri "" = "file://" := by decide +kernel
  have huri : Text.toFileUri "file:///a.js" = "file:///a.js" := by decide +kernel
  have hunnamed : (executing "" 1).ShowsPlace (Text.toFileUri "") (Text.numeral 1) :=
    (isAt_executing "" 1).showsPlace
  rw [hempty, hnumeral] at hunnamed
  have hnamed : (executing "file:///a.js" 1).ShowsPlace (Text.toFileUri "file:///a.js")
      (Text.numeral 1) :=
    (isAt_executing "file:///a.js" 1).showsPlace
  rw [huri, hnumeral] at hnamed
  refine ⟨⟨⟨"breakpoint_set", [("n", "1"), ("f", "file://")], none⟩, _, isAt_executing "" 1,
    hunnamed, Command.parse_eq_ok (by decide +kernel),
    ⟨rfl, by decide, by decide, .inl (by decide), by decide, rfl⟩,
    readsBreakpoint_of_get? (b := { breakpointAt "" 1 with id := 1 }) (by decide +kernel),
    by decide +kernel⟩, ⟨⟨"breakpoint_set", [("n", "1"), ("f", "file:///a.js")], none⟩,
    isAt_executing "file:///a.js" 1, hnamed, Command.parse_eq_ok (by decide +kernel),
    ⟨rfl, by decide, by decide, .inl (by decide), by decide, rfl⟩, by decide +kernel⟩⟩

end Session

end ScriptDebugger
