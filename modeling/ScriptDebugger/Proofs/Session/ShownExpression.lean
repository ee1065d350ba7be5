import ScriptDebugger.Proofs.Command.Line
import ScriptDebugger.Proofs.Registry.Update
import ScriptDebugger.Proofs.Session.ReadAnswer
import ScriptDebugger.Proofs.Text.Trim

namespace ScriptDebugger

open Breakpoint

namespace Table

variable {κ ν : Type} [DecidableEq κ]

theorem set_get? {t : Table κ ν} {k : κ} {v : ν} (h : get? t k = some v) : set t k v = t := by
  obtain ⟨before, behind, ht, hset⟩ := set_of_get? h v
  rw [hset, ← ht]

end Table

namespace Session

namespace WatchTarget

theorem trim_property {text : String} {target : WatchTarget} (h : read text = .ok target) :
    Text.trim target.property = target.property := by
  obtain ⟨property, _, _, _, _, rfl⟩ := read_eq_ok_iff.mp h
  rw [Text.trim, String.toList_ofList, Text.trimChars_trimChars]

theorem read_text {w : WatchTarget} (htrim : Text.trim w.property = w.property)
    (hne : w.property ≠ "") : read w.text = .ok w := by
  obtain ⟨property, access, modification⟩ := w
  refine read_eq_ok_iff.mpr ⟨property.toList, if access then '1' else '0',
    if modification then '1' else '0', mt String.toList_eq_nil_iff.mp hne, ?_, ?_⟩
  · cases access <;> cases modification <;> simp [text]
  · have hproperty : String.ofList (Text.trimChars property.toList) = property := htrim
    rw [hproperty]
    cases access <;> cases modification <;> rfl

end WatchTarget

def expressionData? (shown : Element) : Option String :=
  shown.content.findSome? fun
    | .element "expression" _ [] => some ""
    | .element "expression" _ [.text data] => some data
    | _ => none

theorem expressionData?_reading {b : Breakpoint} {expression : String}
    (h : b.expression = some expression) :
    expressionData? (breakpointElement b).reading =
      some (Payload.encode (expressionText b expression)) := by
  generalize hdata : Payload.encode (expressionText b expression) = data
  have hcontent : (breakpointElement b).reading.content =
      [.element "expression" [] (Markup.addText data [])] := by
    rw [Element.reading, breakpointElement, h, ← hdata]
    rfl
  rw [expressionData?, hcontent]
  by_cases hempty : data = ""
  · rw [hempty]
    rfl
  · have hadded : Markup.addText data [] = [.text data] := by simp [Markup.addText, hempty]
    rw [hadded]
    rfl

end Session

structure Command.SendsBack (c : Command) (id : Breakpoint.Id) (data : String) : Prop where
  name : c.name = "breakpoint_update"
  target : Session.targetId c = .ok id
  others : ∀ key ∈ ["s", "n", "h", "o"], c.option? key = none
  data : c.data = some data

namespace Breakpoint

def restated (b : Breakpoint) (expression : String) : BreakpointUpdate where
  expression := some expression
  watchFlags := if b.kind = .watch then some (b.onAccess, b.onModification) else none

end Breakpoint

theorem Registry.Consistent.update_restated {r : Registry} (h : r.Consistent)
    {id : Breakpoint.Id} {b : Breakpoint} (hget : r.get? id = some b) {expression : String}
    (hexpression : b.expression = some expression) :
    r.update id (b.restated expression) = .ok (b, r) := by
  have hpolicy : Registry.withPolicy b (b.restated expression) = .ok b := by
    change (b.validate >>= fun _ => Except.ok b) = _
    rw [h.valid hget]
    rfl
  have hkept : r.updateExpression b (b.restated expression) = (b, r) := by
    rw [Registry.updateExpression]
    split
    · rename_i hwatch
      rw [Breakpoint.restated, if_pos hwatch]
      exact if_pos hexpression
    · rw [Breakpoint.restated, Option.some_or, ← hexpression]
  have hunmoved : r.updateLine b (b.restated expression) = (b, r) := rfl
  have hentries : r.entries.set id b = r.entries := Table.set_get? hget
  simp only [Registry.update, hget, hpolicy, hunmoved, hkept, hentries, bind, Except.bind, pure,
    Except.pure]

namespace Session

open ScriptDebugger.Action

theorem readUpdate_of_sendsBack {c : Command} {id : Breakpoint.Id} {text : String}
    (h : c.SendsBack id (Payload.encode text)) (kind : Kind) :
    readUpdate c kind =
      if kind = .watch then
        (WatchTarget.read text).map fun target =>
          { expression := some target.property
            watchFlags := some (target.onAccess, target.onModification) }
      else .ok { expression := some text } := by
  have hothers := h.others
  simp only [List.forall_mem_cons] at hothers
  obtain ⟨hstate, hline, hvalue, hcondition, _⟩ := hothers
  have hdata : c.decodedData? = .ok (some text) := by
    rw [Command.decodedData?, h.data]
    dsimp only
    rw [Payload.decode_encode]
    rfl
  rw [readUpdate, Command.number?, Command.number?, Command.read?_of_option?_eq_none hstate,
    Command.read?_of_option?_eq_none hline, Command.read?_of_option?_eq_none hvalue,
    Command.read?_of_option?_eq_none hcondition, hdata]
  change (if kind = .watch then _ else _) = _
  split
  · cases WatchTarget.read text <;> rfl
  · rfl

/-- What is shown of an expression can be read as it, unless it is the property of a watchpoint and
there is none. -/
def Readable (b : Breakpoint) (expression : String) : Prop :=
  b.kind = .watch → expression ≠ ""

instance (b : Breakpoint) (expression : String) : Decidable (Readable b expression) :=
  inferInstanceAs (Decidable (_ → _))

theorem WatchTarget.read_unreadable (onAccess onModification : Bool) :
    read (text ⟨"", onAccess, onModification⟩) =
      .error (.invalidOption "-" (text ⟨"", onAccess, onModification⟩)) := by
  cases onAccess <;> cases onModification <;> rfl

theorem readUpdate_restated {c : Command} {id : Breakpoint.Id} {b : Breakpoint}
    {expression : String} (h : c.SendsBack id (Payload.encode (expressionText b expression)))
    (htrim : b.kind = .watch → Text.trim expression = expression) :
    readUpdate c b.kind =
      if Readable b expression then .ok (b.restated expression)
      else .error (.invalidOption "-" (expressionText b expression)) := by
  rw [readUpdate_of_sendsBack h, expressionText, Breakpoint.restated]
  by_cases hwatch : b.kind = .watch
  · simp only [if_pos hwatch]
    by_cases hempty : expression = ""
    · rw [if_neg fun h : Readable b expression => h hwatch hempty, hempty,
        WatchTarget.read_unreadable]
      rfl
    · rw [if_pos (show Readable b expression from fun _ => hempty),
        WatchTarget.read_text (w := ⟨expression, _, _⟩) (htrim hwatch) hempty]
      rfl
  · simp only [if_neg hwatch]
    rw [if_pos (show Readable b expression from fun h => absurd h hwatch)]

theorem execute_of_readUpdate {s : Session} {c : Command} {id : Breakpoint.Id} {b : Breakpoint}
    (hname : c.name = "breakpoint_update") (hid : targetId c = .ok id)
    (hget : s.registry.get? id = some b) {u : BreakpointUpdate} {changed : Breakpoint}
    {registry : Registry} (hread : readUpdate c b.kind = .ok u)
    (hupdate : s.registry.update id u = .ok (changed, registry)) :
    s.execute c =
      .ok ({ s with registry := registry }.answer (c.answer.attr "success" "1")) := by
  rw [execute, obey_of_name hname rfl, breakpointUpdateCommand, replyResult, on_bind, on_tryCatch,
    hid, on_read_ok, on_get, hget]
  dsimp only
  rw [hread, on_read_ok, on_bind, changeBreakpoints, on_get, hupdate]
  rfl

theorem execute_of_unread {s : Session} {c : Command} {id : Breakpoint.Id} {b : Breakpoint}
    (hname : c.name = "breakpoint_update") (hid : targetId c = .ok id)
    (hget : s.registry.get? id = some b) {key value : String}
    (hread : readUpdate c b.kind = .error (.invalidOption key value)) :
    s.execute c = .error (.invalidOption key value) := by
  rw [execute, obey_of_name hname rfl, breakpointUpdateCommand, replyResult, on_bind, on_tryCatch,
    hid, on_read_ok, on_get, hget]
  dsimp only
  rw [hread]
  rfl

/-! Where watchpoints without a property come from. -/

def NamesNothing (text : String) : Prop :=
  ∃ blanks access modification, blanks ≠ [] ∧ (∀ c ∈ blanks, Text.isBlank c = true) ∧
    text.toList = blanks ++ [access, modification]

/-- An operation sets a watchpoint, or gives one another expression, and names no property. -/
def GivesNoProperty (id : Breakpoint.Id) (operation : Operation) : Prop :=
  ∃ line c text, operation = .command line ∧ Command.parse line = .ok c ∧
    (c.name = "breakpoint_set" ∨ c.name = "breakpoint_update" ∧ targetId c = .ok id) ∧
      c.decodedData? = .ok (some text) ∧ NamesNothing text

theorem WatchTarget.namesNothing {text : String} {target : WatchTarget}
    (h : read text = .ok target) (hproperty : target.property = "") : NamesNothing text := by
  obtain ⟨property, access, modification, hne, htext, rfl⟩ := read_eq_ok_iff.mp h
  have htrim : Text.trimChars property = [] :=
    String.ofList_eq_empty_iff.mp hproperty
  exact ⟨property, access, modification, hne, Text.isBlank_of_trimChars_eq_nil htrim, htext⟩

theorem readBreakpoint_of_watch {c : Command} {b : Breakpoint} (h : readBreakpoint c = .ok b)
    (hwatch : b.kind = .watch) :
    ∃ text target, c.decodedData? = .ok (some text) ∧ WatchTarget.read text = .ok target ∧
      b.expression = some target.property := by
  obtain ⟨kind, _, h⟩ := bind_eq_ok.mp h
  obtain ⟨state, _, h⟩ := bind_eq_ok.mp h
  obtain ⟨line, _, h⟩ := bind_eq_ok.mp h
  obtain ⟨middle, _, h⟩ := bind_eq_ok.mp h
  rw [(readExpression_eq_ok h).1] at hwatch
  obtain ⟨data, hdata, h⟩ := bind_eq_ok.mp h
  cases data with
  | none =>
      dsimp only at h
      rw [if_pos hwatch] at h
      cases h
  | some text =>
      dsimp only at h
      rw [if_pos hwatch] at h
      obtain ⟨target, htarget, h⟩ := bind_eq_ok.mp h
      cases h
      exact ⟨text, target, hdata, htarget, rfl⟩

theorem property_of_watchpoint {settings : Settings} {host : Host} {heap : Heap}
    {operations : List Operation} (hspares : ∀ operation ∈ operations, operation.SparesBreakpoints)
    {id : Breakpoint.Id} {b : Breakpoint}
    (hget : ((opened settings host heap).run operations).registry.get? id = some b)
    (hwatch : b.kind = .watch) {property : String} (hproperty : b.expression = some property) :
    Text.trim property = property ∧
      (property = "" → ∃ operation ∈ operations, GivesNoProperty id operation) := by
  refine source_induction (motive := fun operations id b => b.kind = .watch →
    ∀ property, b.expression = some property → Text.trim property = property ∧
      (property = "" → ∃ operation ∈ operations, GivesNoProperty id operation))
    ?_ hspares hget hwatch property hproperty
  intro before operation id b hsource hbefore hwatch property hproperty
  have hold : ∀ old, ((opened settings host heap).run before).registry.get? id = some old →
      old.kind = .watch → old.expression = some property →
        Text.trim property = property ∧
          (property = "" → ∃ other ∈ before ++ [operation], GivesNoProperty id other) := by
    intro old hget hwatch hproperty
    refine (hbefore old hget hwatch property hproperty).imp_right fun hgiven hempty => ?_
    obtain ⟨other, hother, hgives⟩ := hgiven hempty
    exact ⟨other, List.mem_append_left _ hother, hgives⟩
  have hnew : ∀ line c text target, operation = .command line → Command.parse line = .ok c →
      (c.name = "breakpoint_set" ∨ c.name = "breakpoint_update" ∧ targetId c = .ok id) →
        c.decodedData? = .ok (some text) → WatchTarget.read text = .ok target →
          target.property = property → Text.trim property = property ∧
            (property = "" → ∃ other ∈ before ++ [operation], GivesNoProperty id other) := by
    intro line c text target hoperation hparse hname hdata htarget hgiven
    refine ⟨hgiven ▸ WatchTarget.trim_property htarget, fun hempty => ?_⟩
    exact ⟨operation, List.mem_concat_self, line, c, text, hoperation, hparse, hname, hdata,
      WatchTarget.namesNothing htarget (hgiven.trans hempty)⟩
  cases hsource with
  | @set c a hread hb line hoperation hparse hname =>
      subst hb
      obtain ⟨text, target, hdata, htarget, hgiven⟩ := readBreakpoint_of_watch hread hwatch
      exact hnew line c text target hoperation hparse (.inl hname) hdata htarget
        (Option.some.inj (hgiven.symm.trans hproperty))
  | @updated line c old u hoperation hparse hname hid hget hread hb =>
      subst hb
      rw [revised] at hproperty
      cases hread.expression with
      | absent _ hexpression _ =>
          rw [hexpression, Option.none_or] at hproperty
          exact hold old hget hwatch hproperty
      | @watch text target hdata _ htarget hexpression _ =>
          rw [hexpression, Option.some_or] at hproperty
          exact hnew line c text target hoperation hparse (.inr ⟨hname, hid⟩) hdata htarget
            (Option.some.inj hproperty)
      | other _ hother => exact absurd hwatch hother
  | @kept old hget hb =>
      rcases hb with rfl | rfl
      · exact hold _ hget hwatch hproperty
      · exact hold old hget hwatch hproperty

theorem read_idText {id : Breakpoint.Id} (hid : id < Text.bound64) :
    Id.read (Id.text id) = .ok id := by
  have htext : (Id.text id).toList = 'p' :: Text.digits id := by
    have hfirst : "p".toList = ['p'] := by decide
    rw [Id.text, String.toList_append, hfirst, Text.numeral, String.toList_ofList]
    rfl
  have hvisible : ∀ c ∈ 'p' :: Text.digits id, Text.isBlank c = false :=
    List.forall_mem_cons.mpr ⟨by decide, Text.isBlank_digits id⟩
  have hdrop : ('p' :: Text.digits id).dropWhile (· == 'p') = Text.digits id := by
    rw [List.dropWhile_cons_of_pos rfl]
    refine List.dropWhile_eq_self_iff.mpr fun hlength hfirst => ?_
    have hdigit := Text.forall_mem_digits (p := (· ≠ 'p')) (by decide) id
    exact hdigit _ (List.getElem_mem hlength) (beq_iff_eq.mp hfirst)
  rw [Id.read, htext, Text.trimChars_of_visible hvisible, hdrop, Text.readNumeral?_digits hid]

theorem targetId_of_written {c : Command} {id : Breakpoint.Id} (hid : id < Text.bound64)
    (h : c.option? "d" = some (Id.text id)) : targetId c = .ok id := by
  rw [targetId, Command.required, h]
  exact read_idText hid

theorem exists_sendsBack {id : Breakpoint.Id} (hid : id < Text.bound64) (text : String) :
    ∃ c, Command.parse ("breakpoint_update -d " ++ Id.text id ++ " -- " ++ Payload.encode text) =
      .ok c ∧ c.SendsBack id (Payload.encode text) := by
  have hline : "breakpoint_update -d " ++ Id.text id ++ " -- " ++ Payload.encode text =
      Command.line "breakpoint_update" [("d", Id.text id)] (some text) := by
    have hopening : "breakpoint_update -d " = "breakpoint_update" ++ (" -" ++ "d" ++ " ") := rfl
    have hdash : " -- " = " -" ++ "-" ++ " " := rfl
    rw [hopening, hdash]
    simp only [Command.line, Command.arguments, Option.map_some, Option.toList_some,
      List.singleton_append, List.map_cons, List.map_nil, Command.writtenArgument, String.join,
      List.foldl_cons, List.foldl_nil, String.empty_append, String.append_assoc]
  have hkey : Command.IsWord "d" := by decide
  have hvalue : Command.Argument.IsValue (Id.text id).toList := by
    rw [Id.text, String.toList_append]
    exact (Command.Argument.isValue_numeral id).append (by decide)
  rw [hline]
  refine ⟨_, Command.parse_written (by decide) (List.forall_mem_singleton.mpr hkey) ?_ ?_, rfl,
    targetId_of_written hid rfl, ?_, rfl⟩
  · simp only [Command.arguments, Option.map_some, Option.toList_some, List.singleton_append,
      List.forall_mem_cons]
    exact ⟨⟨hkey.visible, hvalue⟩, Command.isWritable_data text, List.forall_mem_nil _⟩
  · intro a ha c hc
    rw [Command.arguments, Option.map_some, Option.toList_some, List.getLast?_concat] at ha
    cases ha
    rw [Payload.encode, String.toList_ofList] at hc
    exact Payload.isBlank_encodeChars _ c (List.mem_of_getLast? hc)
  · simp only [List.forall_mem_cons]
    exact ⟨rfl, rfl, rfl, rfl, List.forall_mem_nil _⟩

/-- The expression that a client reads of a breakpoint can be sent back, and the breakpoints stay
what they are.  The update is a success, unless it is for a watchpoint without a property: what is
shown of one is not read as an expression, and the client hears nothing.  Such a watchpoint is made
by a command that names no property. -/
theorem shown_expression_sent_back {settings : Settings} {host : Host} {heap : Heap}
    {operations : List Operation} (s : Session)
    (hs : s = (opened settings host heap).run operations)
    (hspares : ∀ operation ∈ operations, operation.SparesBreakpoints) {id : Breakpoint.Id}
    {b : Breakpoint} (hget : s.registry.get? id = some b) {expression : String}
    (hexpression : b.expression = some expression) :
    let data := Payload.encode (expressionText b expression)
    (∃ shown, s.ReadsBreakpoint id shown ∧ expressionData? shown = some data) ∧
      (id < Text.bound64 → ∃ c,
        Command.parse ("breakpoint_update -d " ++ Id.text id ++ " -- " ++ data) = .ok c ∧
          c.SendsBack id data) ∧
      (∀ {line : String} {c : Command}, Command.parse line = .ok c → c.SendsBack id data →
        (s.dispatch line).registry = s.registry ∧
          s.sent (.command line) =
            if s.outbox.isOpen ∧ Readable b expression then [.answer (c.answer.attr "success" "1")]
            else []) ∧
      (Readable b expression ∨ ∃ operation ∈ operations, GivesNoProperty id operation) := by
  have hreached : s.Reached := ⟨settings, host, heap, operations, hs⟩
  have hproperty : b.kind = .watch → Text.trim expression = expression ∧
      (expression = "" → ∃ operation ∈ operations, GivesNoProperty id operation) :=
    fun hwatch => property_of_watchpoint hspares (hs ▸ hget) hwatch hexpression
  refine ⟨⟨_, readsBreakpoint_of_get? hget, expressionData?_reading hexpression⟩,
    fun hid => exists_sendsBack hid _, fun {line c} hparse hsends => ?_, ?_⟩
  · have hread := readUpdate_restated hsends fun hwatch => (hproperty hwatch).1
    by_cases hreadable : Readable b expression
    · rw [if_pos hreadable] at hread
      have hrun := execute_of_readUpdate hsends.name hsends.target hget hread
        (hreached.consistent.1.update_restated hget hexpression)
      have hdispatch := dispatch_of_parse hparse hrun
      refine ⟨by rw [hdispatch]; rfl, ?_⟩
      rw [sent_of_dispatch hdispatch rfl]
      simp [hreadable]
    · rw [if_neg hreadable] at hread
      have hfails := execute_of_unread hsends.name hsends.target hget hread
      obtain ⟨hsame, hsent⟩ := silent_of_error ((executeLine_of_parse s hparse).trans hfails)
      refine ⟨by rw [hsame], ?_⟩
      rw [hsent, if_neg fun h => hreadable h.2]
  · by_cases hreadable : Readable b expression
    · exact .inl hreadable
    · obtain ⟨hwatch, hempty⟩ := Classical.not_imp.mp hreadable
      exact .inr ((hproperty hwatch).2 (not_not.mp hempty))

theorem shown_expression_sent_back_watchpoint :
    let s := (opened {} (Host.ofTable none []) {}).run
      [.command "breakpoint_set -i 1 -t watch -f /a.js -n 1 -- IHggMDE=",
        .command "breakpoint_set -i 2 -t watch -f /a.js -n 2 -- eDEw"]
    let line := "breakpoint_update -i 3 -d p1 -- eDAx"
    (∃ shown, s.ReadsBreakpoint 1 shown ∧ expressionData? shown = some "eDAx") ∧
      (s.dispatch line).registry = s.registry ∧
        ∃ e, s.sent (.command line) = [.answer e] ∧ e.attribute? "success" = some "1" := by
  intro s line
  have hget : s.registry.get? 1 =
      some { id := 1, kind := .watch, file := "/a.js", line := 1, expression := some "x",
             onModification := true } := by
    decide +kernel
  have hparse : Command.parse line =
      .ok ⟨"breakpoint_update", [("d", "p1"), ("i", "3")], some "eDAx"⟩ :=
    Command.parse_eq_ok (by decide +kernel)
  have hdata : Payload.encode "x01" = "eDAx" := by decide +kernel
  obtain ⟨hshown, _, hsent, _⟩ :=
    shown_expression_sent_back s rfl (by simp [Operation.SparesBreakpoints]) hget rfl
  change ∃ shown, s.ReadsBreakpoint 1 shown ∧ expressionData? shown = some (Payload.encode "x01")
    at hshown
  rw [hdata] at hshown
  obtain ⟨hsame, hsent⟩ := hsent hparse ⟨rfl, by decide +kernel, by decide, congrArg some hdata.symm⟩
  rw [if_pos ⟨by decide +kernel, by decide⟩] at hsent
  exact ⟨hshown, hsame, _, hsent, by decide⟩

/-- A watchpoint that is given two blanks for its property has none.  It shows its flags alone, and
they are not read as an expression. -/
theorem shown_expression_refused :
    let s := (opened {} (Host.ofTable none []) {}).run
      [.command "breakpoint_set -i 1 -t watch -f /a.js -n 1 -- ICAxMQ=="]
    let line := "breakpoint_update -i 2 -d 1 -- MTE="
    (∃ b, s.registry.get? 1 = some b ∧ b.kind = .watch ∧ b.expression = some "") ∧
      (∃ shown, s.ReadsBreakpoint 1 shown ∧ expressionData? shown = some "MTE=") ∧
      (∃ c, Command.parse line = .ok c ∧ c.SendsBack 1 "MTE=") ∧ s.sent (.command line) = [] := by
  intro s line
  have hget : s.registry.get? 1 =
      some { id := 1, kind := .watch, file := "/a.js", line := 1, expression := some "",
             onAccess := true, onModification := true } := by
    decide +kernel
  have hdata : Payload.encode "11" = "MTE=" := by decide +kernel
  refine ⟨⟨_, hget, rfl, rfl⟩, ⟨_, readsBreakpoint_of_get? hget, ?_⟩,
    ⟨⟨"breakpoint_update", [("d", "1"), ("i", "2")], some "MTE="⟩,
      Command.parse_eq_ok (by decide +kernel), rfl, by decide +kernel, by decide, rfl⟩,
    List.eq_nil_of_length_eq_zero (by decide +kernel)⟩
  rw [expressionData?_reading rfl, ← hdata]
  rfl

end Session

end ScriptDebugger
