import ScriptDebugger.Proofs.Session.Answer
import ScriptDebugger.Proofs.Session.Operation

/-!
What a command can do.  It lets the debuggee run, asks it to stop, ends the session, or sends one
answer; a command of this last kind may change breakpoints, features and objects, but neither
contexts nor the pending transaction.  A command that fails does nothing.
-/

namespace ScriptDebugger

/-- The changes of breakpoints that a command of a name makes. -/
def Command.Makes (c : Command) : Registry.Operation → Prop
  | .add _ => c.name = "breakpoint_set"
  | .update _ _ => c.name = "breakpoint_update"
  | .remove _ => c.name = "breakpoint_remove"
  | .switch _ => c.name = "feature_set"
  | _ => False

theorem Command.mode?_of_name {c : Command} {name : String} (h : c.name = name) :
    c.mode? = modes.get? name := by
  rw [mode?, h]

namespace Session

inductive CommandEffect (s : Session) (c : Command) : Session → Prop where
  | resumed {mode : StepMode} (hmode : c.mode? = some mode) :
      CommandEffect s c ((s.adopt c.transaction?).resume mode)
  | interrupted {e : Element} (hmode : c.mode? = none) (hname : c.name = "break")
      (hanswer : c.IsAnswer e) :
      CommandEffect s c (s.requestBreak.2.answer e)
  | stopped {e : Element} (hmode : c.mode? = none) (hname : c.name = "stop")
      (hanswer : c.IsAnswer e) :
      CommandEffect s c (s.reportEnd.answer e).close
  | answered {settings : Settings} {heap : Heap} {streams : StreamModes}
      {changes : List Registry.Operation} {e : Element} (hmode : c.mode? = none)
      (hchanges : ∀ operation ∈ changes, c.Makes operation)
      (hheap : c.name ≠ "property_set" → heap = s.heap) (hanswer : c.IsAnswer e) :
      CommandEffect s c
        ({ s with
          settings := settings
          heap := heap
          streams := streams
          registry := s.registry.run changes }.answer e)

namespace CommandEffect

variable {s : Session} {c : Command}

theorem ofFields {settings : Settings} {heap : Heap} {streams : StreamModes} {e : Element}
    (hmode : c.mode? = none) (hheap : c.name ≠ "property_set" → heap = s.heap)
    (hanswer : c.IsAnswer e) :
    CommandEffect s c
      ({ s with settings := settings, heap := heap, streams := streams }.answer e) := by
  have h : ∀ operation ∈ ([] : List Registry.Operation), c.Makes operation := by simp
  exact answered hmode h hheap hanswer

theorem ofAnswer {e : Element} (hmode : c.mode? = none) (hanswer : c.IsAnswer e) :
    CommandEffect s c (s.answer e) :=
  ofFields hmode (fun _ => rfl) hanswer

theorem ofError (hmode : c.mode? = none) (e : Error) :
    CommandEffect s c (s.answer (c.errorAnswer e)) :=
  ofAnswer hmode (.errorAnswer c e)

theorem ofAnswerOutcome {outcome : Except Error Element} (hmode : c.mode? = none)
    (hanswer : ∀ e, outcome = .ok e → c.IsAnswer e) :
    CommandEffect s c (s.answerOutcome c outcome) := by
  cases outcome with
  | ok e => exact ofAnswer hmode (hanswer e rfl)
  | error e => exact ofError hmode e

theorem ofChange {registry : Registry} {e : Element} (operation : Registry.Operation)
    (hmode : c.mode? = none) (hmakes : c.Makes operation)
    (hregistry : registry = s.registry.after operation) (hanswer : c.IsAnswer e) :
    CommandEffect s c ({ s with registry := registry }.answer e) := by
  subst hregistry
  have h : ∀ other ∈ [operation], c.Makes other := by simpa using hmakes
  exact answered hmode h (fun _ => rfl) hanswer

end CommandEffect

/-- What a handler does when it carries out a command of its name. -/
def Handler.Lawful (name : String) (handler : Handler) : Prop :=
  ∀ {c : Command}, c.name = name → ∀ s : Session,
    (handler c).Ends s fun _ after => CommandEffect s c after

open ScriptDebugger.Action Command

theorem featureGetCommand_lawful : Handler.Lawful "feature_get" featureGetCommand := by
  intro c hname s
  refine .read fun name _ => .ofAnswer (c.mode?_of_name hname) ?_
  have hanswer : c.IsAnswer (c.answer.attr "feature_name" name) :=
    (IsAnswer.answer c).attr (by decide) _
  split
  · exact (hanswer.attr (by decide) _).text _
  · exact hanswer.attr (by decide) _

theorem setFeature?_eq_some {s changed : Session} {name value : String}
    (h : s.setFeature? name value = some changed) :
    (∃ settings, changed = { s with settings := settings }) ∨
      ∃ change, changed = { s with registry := s.registry.withFlags change } := by
  rcases Option.or_eq_some_iff.mp h with hlimit | ⟨_, hswitch⟩
  · obtain ⟨number, _, hlimit⟩ := Option.bind_eq_some_iff.mp hlimit
    obtain ⟨settings, _, hlimit⟩ := Option.bind_eq_some_iff.mp hlimit
    exact .inl ⟨settings, (Option.some.inj hlimit).symm⟩
  · obtain ⟨on, _, hswitch⟩ := Option.bind_eq_some_iff.mp hswitch
    obtain ⟨flags, _, hswitch⟩ := Option.bind_eq_some_iff.mp hswitch
    exact .inr ⟨_, (Option.some.inj hswitch).symm⟩

theorem featureSetCommand_lawful : Handler.Lawful "feature_set" featureSetCommand := by
  intro c hname s
  refine .read fun name _ => .read fun value _ => ?_
  have hanswer : ∀ success,
      c.IsAnswer ((c.answer.attr "feature" name).attr "success" success) := fun _ =>
    ((IsAnswer.answer c).attr (by decide) _).attr (by decide) _
  change CommandEffect s c (Session.answer ((s.setFeature? name (Text.trim value)).getD s) _)
  cases hset : s.setFeature? name (Text.trim value) with
  | none => exact .ofAnswer (c.mode?_of_name hname) (hanswer _)
  | some changed =>
      rcases setFeature?_eq_some hset with ⟨settings, rfl⟩ | ⟨change, rfl⟩
      · exact .ofFields (c.mode?_of_name hname) (fun _ => rfl) (hanswer _)
      · exact .ofChange (.switch change) (c.mode?_of_name hname) hname rfl (hanswer _)

theorem stdinCommand_lawful : Handler.Lawful "stdin" stdinCommand := by
  intro c hname s
  exact .ofFields (c.mode?_of_name hname) (fun _ => rfl) ((IsAnswer.answer c).attr (by decide) _)

theorem streamCommand_effect {s : Session} {c : Command} {stream : Stream}
    (hmode : c.mode? = none) :
    (streamCommand stream c).Ends s fun _ after => CommandEffect s c after := by
  refine .read fun mode _ => ?_
  exact .ofFields hmode (fun _ => rfl) ((IsAnswer.answer c).attr (by decide) _)

theorem breakCommand_lawful : Handler.Lawful "break" breakCommand := by
  intro c hname s
  exact .interrupted (c.mode?_of_name hname) hname ((IsAnswer.answer c).attr (by decide) _)

theorem stopCommand_lawful : Handler.Lawful "stop" stopCommand := by
  intro c hname s
  exact .stopped (c.mode?_of_name hname) hname
    (((IsAnswer.answer c).attr (by decide) _).attr (by decide) _)

theorem runCommand_effect {s : Session} {c : Command} {mode : StepMode}
    (hmode : c.mode? = some mode) :
    (runCommand mode c).Ends s fun _ after => CommandEffect s c after :=
  .resumed hmode

theorem breakpointGetCommand_lawful : Handler.Lawful "breakpoint_get" breakpointGetCommand := by
  intro c hname s
  refine .replyResult (.read fun id _ => .get ?_) (CommandEffect.ofError (c.mode?_of_name hname))
  cases s.registry.get? id with
  | none => exact .throw _
  | some b => exact .ofAnswer (c.mode?_of_name hname) ((IsAnswer.answer c).child _)

inductive SetEffect (s : Session) (c : Command) : Session → Prop where
  | refused (e : Error) : SetEffect s c (s.answer (c.errorAnswer e))
  | added {b : Breakpoint} {id : Breakpoint.Id} {registry : Registry}
      (hread : readBreakpoint c = .ok b) (hadd : s.registry.add b = .ok (id, registry)) :
      SetEffect s c
        ({ s with registry := registry }.answer
          ((c.answer.attr "id" (Breakpoint.Id.text id)).attr "state" b.state.text))

theorem breakpointSetCommand_effect (s : Session) (c : Command) :
    (breakpointSetCommand c).Ends s fun _ after => SetEffect s c after := by
  refine .read fun b hread => .replyResult (.bind_pure (.changeBreakpoints ?_)) .refused
  intro id registry hadd
  exact .added hread hadd

theorem breakpointSetCommand_lawful : Handler.Lawful "breakpoint_set" breakpointSetCommand := by
  intro c hname s
  refine (breakpointSetCommand_effect s c).mono fun _ after heffect => ?_
  cases heffect with
  | refused e => exact .ofError (c.mode?_of_name hname) e
  | @added b id registry _ hadd =>
      exact .ofChange (.add b) (c.mode?_of_name hname) hname
        (by simp [Registry.after, hadd, Registry.orElse])
        (((IsAnswer.answer c).attr (by decide) _).attr (by decide) _)

theorem breakpointRemoveCommand_lawful :
    Handler.Lawful "breakpoint_remove" breakpointRemoveCommand := by
  intro c hname s
  refine .replyResult (.read fun id _ => .bind_pure (.changeBreakpoints ?_))
    (CommandEffect.ofError (c.mode?_of_name hname))
  intro b registry hremove
  exact .ofChange (.remove id) (c.mode?_of_name hname) hname
    (by simp [Registry.after, hremove, Registry.orElse]) ((IsAnswer.answer c).attr (by decide) _)

inductive UpdateEffect (s : Session) (c : Command) : Session → Prop where
  | refused (e : Error) : UpdateEffect s c (s.answer (c.errorAnswer e))
  | updated {id : Breakpoint.Id} {old b : Breakpoint} {u : BreakpointUpdate} {registry : Registry}
      (hid : targetId c = .ok id) (hget : s.registry.get? id = some old)
      (hread : readUpdate c old.kind = .ok u) (hupdate : s.registry.update id u = .ok (b, registry)) :
      UpdateEffect s c ({ s with registry := registry }.answer (c.answer.attr "success" "1"))

theorem breakpointUpdateCommand_effect (s : Session) (c : Command) :
    (breakpointUpdateCommand c).Ends s fun _ after => UpdateEffect s c after := by
  refine .replyResult (.read fun id hid => .get ?_) .refused
  cases hget : s.registry.get? id with
  | none => exact .throw _
  | some old =>
      refine .read fun u hread => .bind_pure (.changeBreakpoints ?_)
      intro b registry hupdate
      exact .updated hid hget hread hupdate

theorem breakpointUpdateCommand_lawful :
    Handler.Lawful "breakpoint_update" breakpointUpdateCommand := by
  intro c hname s
  refine (breakpointUpdateCommand_effect s c).mono fun _ after heffect => ?_
  cases heffect with
  | refused e => exact .ofError (c.mode?_of_name hname) e
  | @updated id _ _ u _ _ _ _ hupdate =>
      exact .ofChange (.update id u) (c.mode?_of_name hname) hname
        (by simp [Registry.after, hupdate, Registry.orElse])
        ((IsAnswer.answer c).attr (by decide) _)

theorem stackDepthCommand_lawful : Handler.Lawful "stack_depth" stackDepthCommand := by
  intro c hname s
  exact .ofAnswer (c.mode?_of_name hname) ((IsAnswer.answer c).attr (by decide) _)

theorem stackGetCommand_lawful : Handler.Lawful "stack_get" stackGetCommand := by
  intro c hname s
  refine .read fun level _ => .ofAnswerOutcome (c.mode?_of_name hname) fun e he => ?_
  cases level with
  | none =>
      cases he
      exact (IsAnswer.answer c).of_attributes rfl rfl
  | some level =>
      simp only [stackAnswer] at he
      split at he
      · cases he
        exact (IsAnswer.answer c).child _
      · cases he

theorem contextNamesCommand_lawful : Handler.Lawful "context_names" contextNamesCommand := by
  intro c hname s
  exact .ofAnswer (c.mode?_of_name hname) (((IsAnswer.answer c).child _).child _)

theorem contextGetCommand_lawful : Handler.Lawful "context_get" contextGetCommand := by
  intro c hname s
  refine .read fun depth _ => .read fun scope _ =>
    .ofAnswerOutcome (c.mode?_of_name hname) fun e he => ?_
  obtain ⟨nodes, _, he⟩ := bind_eq_ok.mp he
  cases he
  exact ((IsAnswer.answer c).attr (by decide) _).of_attributes rfl rfl

theorem propertyGetCommand_lawful : Handler.Lawful "property_get" propertyGetCommand := by
  intro c hname s
  refine .read fun path _ => .read fun depth _ => .read fun scope _ =>
    .ofAnswerOutcome (c.mode?_of_name hname) fun e he => ?_
  obtain ⟨frame, _, he⟩ := bind_eq_ok.mp he
  obtain ⟨value, _, he⟩ := bind_eq_ok.mp he
  cases he
  exact (IsAnswer.answer c).child _

theorem propertySetCommand_lawful : Handler.Lawful "property_set" propertySetCommand := by
  intro c hname s
  refine .read fun path _ => .read fun depth _ => .read fun scope _ => .read fun expression _ => ?_
  exact .ofFields (c.mode?_of_name hname) (fun hother => absurd hname hother)
    ((IsAnswer.answer c).attr (by decide) _)

theorem evalCommand_lawful : Handler.Lawful "eval" evalCommand := by
  intro c hname s
  refine .read fun depth _ => .read fun expression _ =>
    .ofAnswerOutcome (c.mode?_of_name hname) fun e he => ?_
  obtain ⟨frame, _, he⟩ := bind_eq_ok.mp he
  obtain ⟨value, _, he⟩ := bind_eq_ok.mp he
  cases he
  exact (IsAnswer.answer c).child _

theorem handlers_lawful : ∀ entry ∈ handlers, Handler.Lawful entry.1 entry.2 := by
  simp only [handlers, List.forall_mem_cons]
  exact ⟨featureGetCommand_lawful, featureSetCommand_lawful, stdinCommand_lawful,
    fun hname _ => streamCommand_effect (Command.mode?_of_name hname),
    fun hname _ => streamCommand_effect (Command.mode?_of_name hname),
    fun hname _ => runCommand_effect (Command.mode?_of_name hname),
    stopCommand_lawful, breakCommand_lawful,
    fun hname _ => runCommand_effect (Command.mode?_of_name hname),
    fun hname _ => runCommand_effect (Command.mode?_of_name hname),
    fun hname _ => runCommand_effect (Command.mode?_of_name hname),
    breakpointGetCommand_lawful, breakpointSetCommand_lawful, breakpointRemoveCommand_lawful,
    breakpointUpdateCommand_lawful, stackDepthCommand_lawful, stackGetCommand_lawful,
    contextNamesCommand_lawful, contextGetCommand_lawful, propertyGetCommand_lawful,
    propertySetCommand_lawful, evalCommand_lawful, List.forall_mem_nil _⟩

/-- Whatever a command is, it fails without a trace or has one of the effects. -/
theorem obey_ends (c : Command) (s : Session) :
    (obey c).Ends s fun _ after => CommandEffect s c after := by
  unfold obey
  split
  · rename_i handler hget
    exact handlers_lawful _ (Table.mem_of_get? hget) rfl s
  · exact .throw _

theorem obey_of_name {c : Command} {name : String} {handler : Handler} (hname : c.name = name)
    (hhandler : handlers.get? name = some handler) : obey c = handler c := by
  rw [obey, hname, hhandler]

theorem obey_of_mode? {c : Command} {mode : StepMode} (h : c.mode? = some mode) :
    obey c = runCommand mode c := by
  have hmem : (c.name, mode) ∈ Command.modes := Table.mem_of_get? h
  simp only [Command.modes, List.mem_cons, List.not_mem_nil, or_false, Prod.mk.injEq] at hmem
  unfold obey
  rcases hmem with ⟨hname, rfl⟩ | ⟨hname, rfl⟩ | ⟨hname, rfl⟩ | ⟨hname, rfl⟩
  · rw [hname]
    rfl
  · rw [hname]
    rfl
  · rw [hname]
    rfl
  · rw [hname]
    rfl

theorem execute_of_mode? {s : Session} {c : Command} {mode : StepMode} (h : c.mode? = some mode) :
    s.execute c = .ok ((s.adopt c.transaction?).resume mode) := by
  rw [execute, obey_of_mode? h]
  rfl

theorem execute_of_ends {s after : Session} {c : Command} {post : Session → Prop}
    (hends : (obey c).Ends s fun _ after => post after) (h : s.execute c = .ok after) :
    post after := by
  unfold Ends at hends
  unfold execute at h
  cases hrun : (obey c).on s with
  | mk result reached =>
      rw [hrun] at h hends
      cases result with
      | ok _ =>
          obtain rfl := Except.ok.inj h
          exact hends
      | error e => cases h

theorem execute_effect {s after : Session} {c : Command} (h : s.execute c = .ok after) :
    CommandEffect s c after :=
  execute_of_ends (obey_ends c s) h

theorem dispatch_eq (s : Session) (line : String) :
    s.dispatch line = (s.executeLine line).toOption.getD s := by
  unfold dispatch obeyLine executeLine
  rw [on_bind]
  cases Command.parse line with
  | error e => rfl
  | ok c =>
      have hends := obey_ends c s
      unfold Ends at hends
      change ((obey c).on s).2 = (s.execute c).toOption.getD s
      unfold execute
      cases hrun : (obey c).on s with
      | mk result after =>
          rw [hrun] at hends
          cases result with
          | ok _ => rfl
          | error e => exact hends

theorem dispatch_of_error {s : Session} {line : String} {e : Error}
    (h : s.executeLine line = .error e) : s.dispatch line = s := by
  rw [dispatch_eq, h]
  rfl

theorem executeLine_of_parse (s : Session) {line : String} {c : Command}
    (h : Command.parse line = .ok c) : s.executeLine line = s.execute c := by
  rw [executeLine, h]
  rfl

theorem dispatch_of_parse {s : Session} {line : String} {c : Command}
    (hparse : Command.parse line = .ok c) {after : Session} (h : s.execute c = .ok after) :
    s.dispatch line = after := by
  rw [dispatch_eq, executeLine_of_parse s hparse, h]
  rfl

theorem dispatch_of_ends {s : Session} {line : String} {c : Command} {post : Session → Prop}
    (hparse : Command.parse line = .ok c) (hends : (obey c).Ends s fun _ after => post after) :
    s.dispatch line = s ∨ post (s.dispatch line) := by
  cases hexecute : s.execute c with
  | ok after =>
      rw [dispatch_of_parse hparse hexecute]
      exact .inr (execute_of_ends hends hexecute)
  | error e => exact .inl (dispatch_of_error ((executeLine_of_parse s hparse).trans hexecute))

theorem dispatch_effect (s : Session) (line : String) :
    (s.dispatch line = s ∧ ∀ c, Command.parse line = .ok c → c.mode? = none) ∨
      ∃ c, Command.parse line = .ok c ∧ CommandEffect s c (s.dispatch line) := by
  cases hparse : Command.parse line with
  | error e =>
      refine .inl ⟨dispatch_of_error (e := e) ?_, by simp⟩
      rw [executeLine, hparse]
      rfl
  | ok c =>
      cases hexecute : s.execute c with
      | ok after =>
          refine .inr ⟨c, rfl, ?_⟩
          rw [dispatch_of_parse hparse hexecute]
          exact execute_effect hexecute
      | error e =>
          refine .inl ⟨dispatch_of_error ((executeLine_of_parse s hparse).trans hexecute), ?_⟩
          intro other hother
          cases hother
          cases hmode : c.mode? with
          | none => rfl
          | some mode =>
              rw [execute_of_mode? hmode] at hexecute
              cases hexecute

end Session

end ScriptDebugger
