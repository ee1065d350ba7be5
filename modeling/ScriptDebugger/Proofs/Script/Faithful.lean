import ScriptDebugger.Proofs.Script.Running

/-!
The debugger does not change the script.  Whatever the client does between the steps of a script,
the actions that are left lead through memories of the plain evaluation only, and to its end.  So a
script whose session stays open ends as it does by itself, with every line reported in order; one
whose session is closed fails, somewhere on the way.
-/

namespace ScriptDebugger.Script

/-- What the end of an execution says: the outcome, whether the session was closed before, the
lines reported, and the memory. -/
structure Faithful (script : Script) (h : Heap) (x : Play) (outcome : Except Error Unit)
    (closed : Bool) : Prop where
  open_eq : closed = false → outcome = .ok () ∧ x.lines = script.lineNumbers ∧
    x.memory = (script.installed h).plain (script.start h) script.lines
  closed_eq : closed = true → outcome = .error .terminated ∧
    ∃ count, x.memory = (script.installed h).plain (script.start h) (script.lines.take count)

/-- What is left to do leads on from a memory as the script does by itself. -/
structure Follows (script : Script) (h : Heap) (x : Play) (rest : List Action) : Prop where
  trail : ∀ m ∈ (script.installed h).trail x.memory rest,
    ∃ count, m = (script.installed h).plain (script.start h) (script.lines.take count)
  finish : (script.installed h).finish x.memory rest =
    (script.installed h).plain (script.start h) script.lines
  lines : x.lines ++ rest.filterMap Action.line? = script.lineNumbers

/-- What holds of an execution in each phase. -/
inductive Standing (script : Script) (h : Heap) (x : Play) : Phase → Prop where
  | called (hmemory : x.memory = script.start h) (hlines : x.lines = []) :
      Standing script h x .called
  | acting {rest : List Action} (hfollows : Follows script h x rest)
      (hexit : rest.getLast? = some (.report .exit)) : Standing script h x (.acting rest)
  | waiting {wait : Wait} {rest : List Action} (hfollows : Follows script h x rest)
      (hexit : rest.getLast? = some (.report .exit) ∨ rest = []) :
      Standing script h x (.waiting wait rest)
  | ended {outcome : Except Error Unit} {closed : Bool}
      (hfaithful : Faithful script h x outcome closed) : Standing script h x (.ended outcome closed)
  | returned {outcome : Except Error Unit} {closed : Bool}
      (hfaithful : Faithful script h x outcome closed) :
      Standing script h x (.returned outcome closed)

theorem Faithful.congr {script : Script} {h : Heap} {x y : Play} {outcome : Except Error Unit}
    {closed : Bool} (hx : Faithful script h x outcome closed) (hmemory : y.memory = x.memory)
    (hlines : y.lines = x.lines) : Faithful script h y outcome closed where
  open_eq := by
    rw [hmemory, hlines]
    exact hx.open_eq
  closed_eq := by
    rw [hmemory]
    exact hx.closed_eq

namespace Follows

variable {script : Script} {h : Heap} {x y : Play} {rest : List Action}

theorem congr (hx : Follows script h x rest) (hmemory : y.memory = x.memory)
    (hlines : y.lines = x.lines) : Follows script h y rest where
  trail := hmemory ▸ hx.trail
  finish := hmemory ▸ hx.finish
  lines := hlines ▸ hx.lines

theorem now (hx : Follows script h x rest) :
    ∃ count, x.memory =
      (script.installed h).plain (script.start h) (script.lines.take count) :=
  hx.trail _ ((script.installed h).mem_trail_self _ _)

theorem next {action : Action} {more : List Action} (hx : Follows script h x (action :: rest))
    (hmemory : y.memory = x.memory ∨
      y.memory = (script.installed h).effect x.memory action)
    (hmore : (script.installed h).Carries y.memory
      ((script.installed h).effect x.memory action) more)
    (hlines : y.lines = x.lines ++ action.line?.toList) : Follows script h y (more ++ rest) where
  trail := by
    have hafter : ∀ m ∈ (script.installed h).trail
        ((script.installed h).effect x.memory action) rest,
        ∃ count, m =
          (script.installed h).plain (script.start h) (script.lines.take count) :=
      fun m hmem => hx.trail m (List.mem_cons_of_mem _ hmem)
    have hdone := hafter _ ((script.installed h).mem_trail_self _ rest)
    intro m hmem
    rcases Program.mem_trail_append.mp hmem with hmem | hmem
    · rcases hmore.trail_eq m hmem with rfl | rfl
      · rcases hmemory with hsame | hsame
        · rw [hsame]
          exact hx.now
        · rw [hsame]
          exact hdone
      · exact hdone
    · rw [hmore.finish_eq] at hmem
      exact hafter m hmem
  finish := by
    rw [Program.finish_append, hmore.finish_eq]
    exact hx.finish
  lines := by
    have hcons : (action :: rest).filterMap Action.line? =
        action.line?.toList ++ rest.filterMap Action.line? := by
      cases hline : action.line? with
      | none => simp [hline]
      | some line => simp [hline]
    rw [List.filterMap_append, hmore.line?_eq, List.nil_append, hlines, ← hx.lines, hcons,
      List.append_assoc]

theorem tail {action : Action} (hx : Follows script h x (action :: rest))
    (hmemory : y.memory = (script.installed h).effect x.memory action)
    (hlines : y.lines = x.lines ++ action.line?.toList) : Follows script h y rest := by
  have hmore : (script.installed h).Carries y.memory
      ((script.installed h).effect x.memory action) [] :=
    ⟨hmemory, fun other hmem => .inl (List.mem_singleton.mp hmem), rfl⟩
  have hnext : Follows script h y ([] ++ rest) := hx.next (.inr hmemory) hmore hlines
  exact hnext

theorem all (hmemory : x.memory = script.start h) (hlines : x.lines = []) :
    Follows script h x (script.installed h).actions where
  trail := by
    rw [hmemory]
    exact fun m hmem => Program.trail_actions hmem
  finish := by
    rw [hmemory]
    exact (script.installed h).finish_actions _
  lines := by
    rw [hlines]
    exact (script.installed h).filterMap_line?_actions

end Follows

namespace Play

variable {p : Program} {x : Play}

section Asked

variable {operations : List Session.Operation} (hasked : x.asked p = operations)
include hasked

theorem lines_of_asked :
    (x.advance p).lines = x.lines ++ (operations.map .own).filterMap Event.line? := by
  rw [lines, x.events_advance, hasked, List.filterMap_append]
  rfl

theorem texts_of_asked :
    (x.advance p).texts = x.texts ++ (operations.map .own).filterMap Event.text? := by
  rw [texts, x.events_advance, hasked, List.filterMap_append]
  rfl

theorem memory_of_asked (hassigns : ∀ operation ∈ operations, operation.assigns = false) :
    (x.advance p).memory =
      { heap := x.session.heap
        texts := x.texts ++ (operations.map .own).filterMap Event.text? } := by
  have hheap : (x.advance p).session.heap = x.session.heap := by
    rw [x.session_advance p, hasked]
    exact Session.heap_run hassigns
  rw [memory, hheap, texts_of_asked hasked]

theorem memory_of_quiet (hassigns : ∀ operation ∈ operations, operation.assigns = false)
    (htexts : (operations.map .own).filterMap Event.text? = []) :
    (x.advance p).memory = x.memory := by
  rw [memory_of_asked hasked hassigns, htexts, List.append_nil]
  rfl

end Asked

theorem memory_beside {operation : Session.Operation} (h : operation.assigns = false) :
    (x.beside operation).memory = x.memory := by
  have hheap : (x.beside operation).session.heap = x.session.heap :=
    (x.session.objects_after operation).2.1 h
  rw [memory, memory, hheap]
  exact congrArg (Memory.mk x.session.heap) (List.filterMap_append.trans (List.append_nil _))

theorem lines_beside (x : Play) (operation : Session.Operation) :
    (x.beside operation).lines = x.lines :=
  List.filterMap_append.trans (List.append_nil _)

end Play

namespace Standing

variable {script : Script} {h : Heap} {x y : Play} {rest : List Action}

theorem congr {phase : Phase} (hx : Standing script h x phase) (hmemory : y.memory = x.memory)
    (hlines : y.lines = x.lines) : Standing script h y phase := by
  cases hx with
  | called hstart hnone => exact .called (hmemory.trans hstart) (hlines.trans hnone)
  | acting hfollows hexit => exact .acting (hfollows.congr hmemory hlines) hexit
  | waiting hfollows hexit => exact .waiting (hfollows.congr hmemory hlines) hexit
  | ended hfaithful => exact .ended (hfaithful.congr hmemory hlines)
  | returned hfaithful => exact .returned (hfaithful.congr hmemory hlines)

theorem next {more : List Action} (hfollows : Follows script h x (more ++ rest))
    (hexit : (more ++ rest).getLast? = some (.report .exit) ∨
      more ++ rest = [] ∧ x.session.closed = false) :
    Standing script h x (.next x.session rest (.next more)) := by
  rw [Phase.next]
  split
  · rename_i hnil
    rw [hnil] at hfollows hexit
    have hopen : x.session.closed = false := (hexit.resolve_left (Option.some_ne_none _).symm).2
    have hlines : x.lines = script.lineNumbers := by
      rw [← hfollows.lines]
      exact (List.append_nil _).symm
    refine .ended ⟨fun _ => ⟨rfl, hlines, hfollows.finish⟩, ?_⟩
    intro hclosed
    rw [hopen] at hclosed
    cases hclosed
  · rename_i hsome
    exact .acting hfollows (hexit.resolve_right fun hnil => hsome hnil.1)

theorem goOn (more : List Action) (hfollows : Follows script h x (more ++ rest))
    (hexit : rest.getLast? = some (.report .exit)) :
    Standing script h x (.next x.session rest (.next more)) := by
  refine .next hfollows (.inl ?_)
  rw [List.getLast?_append, hexit]
  rfl

theorem call {context : ContextId} {progress : Progress}
    (heffect : Session.CallEffect x.session context progress) (hfollows : Follows script h x rest)
    (hexit : rest.getLast? = some (.report .exit) ∨ rest = []) :
    Standing script h x (.next x.session rest (.ofProgress progress)) := by
  cases heffect with
  | refused hclosed =>
      refine .ended ⟨?_, fun _ => ⟨rfl, hfollows.now⟩⟩
      intro hopen
      rw [hclosed] at hopen
      cases hopen
  | passed hopen =>
      refine .next hfollows ?_
      rcases hexit with hlast | hnil
      · exact .inl hlast
      · exact .inr ⟨hnil, hopen⟩
  | waits _ _ => exact .waiting hfollows hexit

theorem getLast?_tail {action : Action} {rest : List Action} {last : Action}
    (h : (action :: rest).getLast? = some last) :
    rest.getLast? = some last ∨ rest = [] ∧ action = last := by
  cases rest with
  | nil => exact .inr ⟨rfl, Option.some.inj h⟩
  | cons next others =>
      rw [List.getLast?_cons_cons] at h
      exact .inl h

end Standing

namespace Running

variable {script : Script} {h : Heap} {x : Play} {rest : List Action}

theorem standing_called (hphase : x.phase = .called) (hmemory : x.memory = script.start h)
    (hlines : x.lines = []) :
    Standing script h (x.advance (script.installed h))
      (x.advance (script.installed h)).phase := by
  have hasked : x.asked (script.installed h) = [.enterContext] := by rw [Play.asked, hphase]
  have hsame := (Play.memory_of_quiet hasked (List.forall_mem_singleton.mpr rfl) rfl).trans hmemory
  have hnone := ((Play.lines_of_asked hasked).trans (List.append_nil _)).trans hlines
  cases henter : x.session.enterContext with
  | ok entered =>
      have hnext : (x.advance (script.installed h)).phase =
          .acting (script.installed h).actions := by
        rw [Play.advance_entered hphase henter]
      rw [hnext]
      exact .acting (.all hsame hnone) (script.installed h).getLast?_actions
  | error e =>
      have hnext : (x.advance (script.installed h)).phase = .returned (.error e) x.session.closed := by
        rw [Play.advance_refused hphase henter]
      rw [hnext]
      unfold Session.enterContext at henter
      split at henter
      · rename_i hclosed
        cases henter
        refine .returned ⟨?_, fun _ => ⟨rfl, 0, hsame⟩⟩
        intro hopen
        rw [hclosed] at hopen
        cases hopen
      · cases henter

section Acting

variable {action : Action} (hphase : x.phase = .acting (action :: rest))
  (hfollows : Follows script h x (action :: rest))
  (hexit : (action :: rest).getLast? = some (.report .exit))
include hphase hfollows hexit

theorem standing_call {operation : Session.Operation} {progress : Progress}
    (hasked : x.stage.asked (script.installed h) action = [operation])
    (hassigns : operation.assigns = false) (htext : (Event.own operation).text? = none)
    (heffect : (script.installed h).effect x.memory action = x.memory)
    (hturn : (x.stage.act (script.installed h) action).1 = .ofProgress progress)
    (hcall : Session.CallEffect x.session x.context progress)
    (hclosed : (x.session.after operation).closed = x.session.closed) :
    Standing script h (x.advance (script.installed h))
      (x.advance (script.installed h)).phase := by
  have hstep : x.asked (script.installed h) = [operation] :=
    (Play.asked_acting hphase).trans hasked
  have hafter : (x.advance (script.installed h)).session = x.session.after operation := by
    rw [x.session_advance, hstep]
    rfl
  have hmemory : (x.advance (script.installed h)).memory =
      (script.installed h).effect x.memory action := by
    rw [heffect]
    refine Play.memory_of_quiet hstep (List.forall_mem_singleton.mpr hassigns) ?_
    exact List.filterMap_cons_none htext
  rw [Play.phase_advance hphase, hturn]
  refine .call (hcall.congr ?_) (hfollows.tail hmemory (Play.lines_advance hphase))
    ((Standing.getLast?_tail hexit).imp_right And.left)
  rw [hafter, hclosed]

theorem standing_perform (hhost : x.session.host = Script.host (script.installed h).scopes)
    {statement : Statement} (haction : action = .perform statement) :
    Standing script h (x.advance (script.installed h))
      (x.advance (script.installed h)).phase := by
  subst haction
  have hsame : (x.advance (script.installed h)).memory = x.memory :=
    Play.memory_of_quiet (Play.asked_acting hphase) (List.forall_mem_nil _) rfl
  have hturn : (x.stage.act (script.installed h) (.perform statement)).1 =
      .next ((script.installed h).expand x.memory.heap (Script.host (script.installed h).scopes)
        statement) := by
    rw [← hhost]
    rfl
  rw [Play.phase_advance hphase, hturn]
  refine .goOn _ (hfollows.next (.inl hsame) ?_ (Play.lines_advance hphase))
    ((Standing.getLast?_tail hexit).resolve_right nofun)
  rw [hsame]
  exact (script.installed h).carries_expand x.memory statement

theorem standing_store (hlocals : x.session.heap.IsPlain (script.installed h).scopes.locals)
    {name : String} {value : Value} (haction : action = .store name value) :
    Standing script h (x.advance (script.installed h))
      (x.advance (script.installed h)).phase := by
  subst haction
  obtain ⟨heap, hset⟩ := hlocals.exists_set (.name name) value
  have hasked : x.asked (script.installed h) = [.mutate heap] :=
    (Play.asked_acting hphase).trans (Stage.asked_store hset)
  have hmemory : (x.advance (script.installed h)).memory =
      (script.installed h).effect x.memory (.store name value) := by
    have heffect : (script.installed h).effect x.memory (.store name value) =
        { heap := heap, texts := x.texts } :=
      Program.assign_eq hset
    have hheap : (x.advance (script.installed h)).session.heap = heap := by
      rw [x.session_advance, hasked]
      rfl
    rw [heffect, Play.memory, hheap, Play.texts_of_asked hasked]
    exact congrArg (Memory.mk heap) (List.append_nil _)
  have hact : x.stage.act (script.installed h) (.store name value) = _ := Stage.act_store hset
  rw [Play.phase_advance hphase, hact]
  refine .goOn _ (hfollows.next (.inr hmemory) ?_ (Play.lines_advance hphase))
    ((Standing.getLast?_tail hexit).resolve_right nofun)
  have hline : (Action.report (.write (script.installed h).scopes.locals name)).line? = none := rfl
  rw [hmemory]
  exact .single hline

theorem standing_print {value : Value} (haction : action = .print value) :
    Standing script h (x.advance (script.installed h))
      (x.advance (script.installed h)).phase := by
  subst haction
  have hmemory : (x.advance (script.installed h)).memory =
      (script.installed h).effect x.memory (.print value) :=
    Play.memory_of_asked (Play.asked_acting hphase) (List.forall_mem_singleton.mpr rfl)
  rw [Play.phase_advance hphase]
  exact .goOn [] (hfollows.tail hmemory (Play.lines_advance hphase))
    ((Standing.getLast?_tail hexit).resolve_right nofun)

end Acting

theorem standing_acting (hx : Running script h x) {action : Action}
    (hphase : x.phase = .acting (action :: rest)) (hfollows : Follows script h x (action :: rest))
    (hexit : (action :: rest).getLast? = some (.report .exit)) :
    Standing script h (x.advance (script.installed h))
      (x.advance (script.installed h)).phase := by
  have hattached : x.session.Attached x.context := by
    have hposition := hx.position
    rw [hphase] at hposition
    cases hposition with
    | acting hattached _ => exact hattached
  cases action with
  | start =>
      have hcall : Session.CallEffect x.session x.context (x.session.settle .start).1 :=
        hattached.settle hx.grounded trivial
      exact standing_call hphase hfollows hexit rfl rfl rfl rfl rfl hcall
        (Session.closed_aside.contexts.settle x.session .start)
  | report event =>
      exact standing_call hphase hfollows hexit rfl rfl rfl rfl rfl
        (hattached.hook hx.grounded event) (x.session.closed_hook event)
  | perform statement => exact standing_perform hphase hfollows hexit hx.host rfl
  | store name value => exact standing_store hphase hfollows hexit hx.locals rfl
  | print value => exact standing_print hphase hfollows hexit rfl

theorem standing_waiting (hx : Running script h x) {wait : Wait}
    (hphase : x.phase = .waiting wait rest) (hfollows : Follows script h x rest)
    (hexit : rest.getLast? = some (.report .exit) ∨ rest = []) :
    Standing script h (x.advance (script.installed h))
      (x.advance (script.installed h)).phase := by
  have hcall : Session.CallEffect x.session x.context (x.session.settle wait).1 := by
    have hposition := hx.position
    rw [hphase] at hposition
    cases hposition with
    | waiting hattached hwait _ => exact hattached.settle hx.grounded hwait
  have hasked : x.asked (script.installed h) = [.proceed wait] := by rw [Play.asked, hphase]
  have hmemory := Play.memory_of_quiet hasked (List.forall_mem_singleton.mpr rfl) rfl
  have hlines := (Play.lines_of_asked hasked).trans (List.append_nil _)
  have hclosed := Session.closed_aside.contexts.settle x.session wait
  rw [Play.advance_waiting hphase] at hmemory hlines ⊢
  exact .call (hcall.congr hclosed) (hfollows.congr hmemory hlines) hexit

theorem standing_ended {outcome : Except Error Unit} {closed : Bool}
    (hphase : x.phase = .ended outcome closed) (hfaithful : Faithful script h x outcome closed) :
    Standing script h (x.advance (script.installed h))
      (x.advance (script.installed h)).phase := by
  have hasked : x.asked (script.installed h) = Stage.askedAtEnd x.context outcome := by
    rw [Play.asked, hphase]
  have hsame : (x.advance (script.installed h)).memory = x.memory ∧
      (x.advance (script.installed h)).lines = x.lines := by
    have hassigns := Stage.assigns_askedAtEnd x.context outcome
    have hlines := Play.lines_of_asked hasked
    rcases Stage.askedAtEnd_eq x.context outcome with heq | heq
    · rw [heq] at hasked hassigns hlines
      exact ⟨Play.memory_of_quiet hasked hassigns rfl, hlines.trans (List.append_nil _)⟩
    · rw [heq] at hasked hassigns hlines
      exact ⟨Play.memory_of_quiet hasked hassigns rfl, hlines.trans (List.append_nil _)⟩
  rw [Play.advance_ended hphase] at hsame ⊢
  exact .returned (hfaithful.congr hsame.1 hsame.2)

theorem standing_advance (hx : Running script h x) (hstanding : Standing script h x x.phase) :
    Standing script h (x.advance (script.installed h))
      (x.advance (script.installed h)).phase := by
  generalize hphase : x.phase = phase at hstanding
  cases hstanding with
  | called hmemory hlines => exact standing_called hphase hmemory hlines
  | @acting rest hfollows hexit =>
      cases rest with
      | nil => cases hexit
      | cons action rest => exact hx.standing_acting hphase hfollows hexit
  | waiting hfollows hexit => exact hx.standing_waiting hphase hfollows hexit
  | ended hfaithful => exact standing_ended hphase hfaithful
  | returned hfaithful =>
      rw [Play.advance_returned hphase, hphase]
      exact .returned hfaithful

end Running

theorem Reachable.running_of_isAside {script : Script} {h : Heap} {x : Play}
    (hx : Reachable Session.Operation.isAside script h x) : Running script h x :=
  (hx.mono fun _ haside => (Bool.and_eq_true_iff.mp haside).1).running

theorem Reachable.standing {script : Script} {h : Heap} {x : Play}
    (hx : Reachable Session.Operation.isAside script h x) : Standing script h x x.phase := by
  induction hx with
  | called hs hheap _ => exact .called (congrArg (fun heap => { heap := heap : Memory }) hheap) rfl
  | advance hx ih => exact hx.running_of_isAside.standing_advance ih
  | @beside x operation _ haside ih =>
      have hassigns : operation.assigns = false := by
        simpa using (Bool.and_eq_true_iff.mp haside).2
      exact ih.congr (Play.memory_beside hassigns) (x.lines_beside operation)

/-- The session is what the operations of a script and those beside it have made of it, and the
debuggee executes the script by these steps.  A script whose session is open until its end returns
well, after every line with a statement was reported once and in order, with the objects and the
texts of the script by itself.  Otherwise it is terminated, after the first lines of the script by
itself. -/
theorem Reachable.returned_as_plain {script : Script} {h : Heap} {x : Play}
    (hx : Reachable Session.Operation.isAside script h x) :
    x.stage = x.opening.replayAll x.events ∧
    (∀ d : Debuggee, d.stage = x.stage →
      (x.phase = .called →
        x.Executes (script.installed h) (d.perform (.script (script.installed h)))) ∧
      ∀ wait rest, x.phase = .waiting wait rest →
        x.Executes (script.installed h)
          (d.proceed (.script (script.installed h) x.context wait rest))) ∧
    ∀ outcome closed, x.phase = .returned outcome closed →
      (closed = false → outcome = .ok () ∧
        x.lines = script.lineNumbers ∧ x.lines.Pairwise (· < ·) ∧
        x.memory = (script.installed h).plain (script.start h) script.lines) ∧
      (closed = true → outcome = .error .terminated ∧
        ∃ count, x.memory =
          (script.installed h).plain (script.start h) (script.lines.take count)) := by
  refine ⟨hx.stage_eq, fun d hstage => ⟨fun hphase => ?_, fun wait rest hphase => ?_⟩, ?_⟩
  · exact Play.executes_call hphase hstage
  · exact Play.executes_proceed hphase hstage
  · intro outcome closed hreturned
    have hstanding := hx.standing
    rw [hreturned] at hstanding
    cases hstanding with
    | returned hfaithful =>
        refine ⟨fun hopen => ?_, hfaithful.closed_eq⟩
        obtain ⟨houtcome, hlines, hmemory⟩ := hfaithful.open_eq hopen
        exact ⟨houtcome, hlines, hlines ▸ script.lineNumbers_increasing, hmemory⟩

theorem returned_as_plain_printing :
    let script : Script := { path := "/a", lines := ["x = true", "# x", "print x"] }
    let s := Session.opened {} (host (script.install {}).1) (script.install {}).2
    let x := ((Play.opened { session := s }).beside (.command "run -i 1")).steps
      (script.installed {}) 15
    Reachable Session.Operation.isAside script {} x ∧ x.phase = .returned (.ok ()) false ∧
      x.stage = x.opening.replayAll x.events ∧ x.lines = [1, 3] ∧ x.texts = ["true\n"] := by
  intro script s x
  have haside : (Session.Operation.command "run -i 1").isAside = true := by decide +kernel
  have hcalled : Reachable Session.Operation.isAside script {} (.opened { session := s }) :=
    .called ⟨{}, _, _, [], rfl⟩ rfl rfl
  have hreachable : Reachable Session.Operation.isAside script {} x :=
    (hcalled.beside haside).steps 15
  have hreturned : x.phase = .returned (.ok ()) false := by decide +kernel
  obtain ⟨hstage, _, hends⟩ := hreachable.returned_as_plain
  obtain ⟨_, hlines, _, hmemory⟩ := (hends _ _ hreturned).1 rfl
  have htexts : ((script.installed {}).plain (script.start {}) script.lines).texts = ["true\n"] := by
    decide +kernel
  exact ⟨hreachable, hreturned, hstage, hlines, (congrArg Memory.texts hmemory).trans htexts⟩

end ScriptDebugger.Script
