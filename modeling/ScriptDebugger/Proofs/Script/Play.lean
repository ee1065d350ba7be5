import ScriptDebugger.Debuggee
import ScriptDebugger.Proofs.Script.Plain
import ScriptDebugger.Proofs.Session.Frames
import ScriptDebugger.Proofs.Session.Objects

/-!
Scripts step by step.  Between any two steps of a script others may do with its session what they
are admitted to.  All that is done to the session is written down.
-/

namespace ScriptDebugger

namespace Session

/-- Whether an operation is none of the debuggee's own and assigns to no object. -/
def Operation.isAside (operation : Operation) : Bool :=
  operation.isOutside && !operation.assigns

theorem after_enterContext_eq (s : Session) :
    s.after .enterContext =
      match s.enterContext with
      | .ok (_, entered) => entered
      | .error _ => s := by
  rw [after, perform]
  cases s.enterContext with
  | ok entered => rfl
  | error e => rfl

end Session

namespace Script

/-- An operation of the session, of the script itself or of somebody beside it. -/
inductive Event where
  | own (operation : Session.Operation)
  | beside (operation : Session.Operation)

namespace Event

def operation : Event → Session.Operation
  | own operation | beside operation => operation

def line? : Event → Option Nat
  | own (.hook (.line _ line)) => some line
  | _ => none

def text? : Event → Option String
  | own (.write .stdout text) => some text
  | _ => none

end Event

namespace Stage

/-- What an event leaves.  A text of the script is printed locally if the session says so. -/
def replay (stage : Stage) (event : Event) : Stage where
  session := stage.session.after event.operation
  printed :=
    match event.text? with
    | some text =>
        if (stage.session.write .stdout text).1 then text :: stage.printed else stage.printed
    | none => stage.printed

def replayAll (stage : Stage) (events : List Event) : Stage :=
  events.foldl replay stage

theorem replayAll_append (stage : Stage) (first second : List Event) :
    stage.replayAll (first ++ second) = (stage.replayAll first).replayAll second :=
  List.foldl_append

theorem session_replayAll (stage : Stage) (events : List Event) :
    (stage.replayAll events).session = stage.session.run (events.map Event.operation) := by
  induction events generalizing stage with
  | nil => rfl
  | cons event rest ih => exact ih (stage.replay event)

/-- The operations of the session that an action comes to. -/
def asked (stage : Stage) (p : Program) : Action → List Session.Operation
  | .start => [.awaitStart]
  | .report hook => [.hook hook]
  | .perform _ => []
  | .store name value =>
      match stage.session.heap.set p.scopes.locals (.name name) value with
      | .ok heap => [.mutate heap]
      | .error _ => []
  | .print value => [.write .stdout (lineText stage.session.heap value)]

theorem asked_store {stage : Stage} {p : Program} {name : String} {value : Value} {heap : Heap}
    (h : stage.session.heap.set p.scopes.locals (.name name) value = .ok heap) :
    stage.asked p (.store name value) = [.mutate heap] := by
  rw [asked, h]

theorem act_store {stage : Stage} {p : Program} {name : String} {value : Value} {heap : Heap}
    (h : stage.session.heap.set p.scopes.locals (.name name) value = .ok heap) :
    stage.act p (.store name value) =
      (.next [.report (.write p.scopes.locals name)],
        { stage with session := { stage.session with heap := heap } }) := by
  rw [act, store, h]
  rfl

theorem act_eq_replayAll (stage : Stage) (p : Program) (action : Action) :
    (stage.act p action).2 = stage.replayAll ((stage.asked p action).map .own) := by
  cases action with
  | start | report _ | perform _ | print _ => rfl
  | store name value =>
      cases hset : stage.session.heap.set p.scopes.locals (.name name) value with
      | ok heap =>
          rw [act_store hset, asked_store hset]
          rfl
      | error e =>
          rw [act, store, asked, hset]
          rfl

theorem session_act (stage : Stage) (p : Program) (action : Action) :
    (stage.act p action).2.session = stage.session.run (stage.asked p action) := by
  rw [act_eq_replayAll, session_replayAll, List.map_map]
  exact congrArg stage.session.run (List.map_id _)

theorem line?_asked (stage : Stage) (p : Program) (action : Action) :
    ((stage.asked p action).map .own).filterMap Event.line? = action.line?.toList := by
  cases action with
  | start | perform _ | print _ => rfl
  | report event => cases event with
    | _ => rfl
  | store name value =>
      rw [asked]
      split
      · rfl
      · rfl

def askedAtEnd (context : ContextId) : Except Error Unit → List Session.Operation
  | .error .terminated => [.exitContext context]
  | _ => [.exitContext context, .finish]

theorem askedAtEnd_eq (context : ContextId) (outcome : Except Error Unit) :
    askedAtEnd context outcome = [.exitContext context] ∨
      askedAtEnd context outcome = [.exitContext context, .finish] := by
  unfold askedAtEnd
  split
  · exact .inl rfl
  · exact .inr rfl

theorem assigns_askedAtEnd (context : ContextId) (outcome : Except Error Unit) :
    ∀ operation ∈ askedAtEnd context outcome, operation.assigns = false := by
  rcases askedAtEnd_eq context outcome with heq | heq
  · rw [heq]
    exact List.forall_mem_singleton.mpr rfl
  · rw [heq]
    exact List.forall_mem_cons.mpr ⟨rfl, List.forall_mem_singleton.mpr rfl⟩

theorem conclude_eq_replayAll (stage : Stage) (context : ContextId)
    (outcome : Except Error Unit) :
    stage.conclude context outcome =
      stage.replayAll ((askedAtEnd context outcome).map .own) := by
  cases outcome with
  | ok value => rfl
  | error e => cases e with
    | _ => rfl

end Stage

/-- How far the execution of a script has come. -/
inductive Phase where
  | called
  | acting (rest : List Action)
  | waiting (wait : Wait) (rest : List Action)
  | ended (outcome : Except Error Unit) (closed : Bool)
  | returned (outcome : Except Error Unit) (closed : Bool)
  deriving DecidableEq

def Phase.next (s : Session) (rest : List Action) : Turn → Phase
  | .next more =>
      match more ++ rest with
      | [] => .ended (.ok ()) s.closed
      | actions => .acting actions
  | .wait wait => .waiting wait rest
  | .fail e => .ended (.error e) s.closed

/-- A script in a session, with all that was done to the session since it was called. -/
structure Play where
  opening : Stage
  events : List Event := []
  stage : Stage
  context : ContextId := 0
  phase : Phase := .called

namespace Play

def opened (stage : Stage) : Play where
  opening := stage
  stage := stage

def session (x : Play) : Session :=
  x.stage.session

def lines (x : Play) : List Nat :=
  x.events.filterMap Event.line?

def texts (x : Play) : List String :=
  x.events.filterMap Event.text?

def memory (x : Play) : Memory where
  heap := x.session.heap
  texts := x.texts

def asked (p : Program) (x : Play) : List Session.Operation :=
  match x.phase with
  | .called => [.enterContext]
  | .acting [] => []
  | .acting (action :: _) => x.stage.asked p action
  | .waiting wait _ => [.proceed wait]
  | .ended outcome _ => Stage.askedAtEnd x.context outcome
  | .returned _ _ => []

def record (x : Play) (operations : List Session.Operation) : Play :=
  { x with events := x.events ++ operations.map .own }

def advance (p : Program) (x : Play) : Play :=
  let y := x.record (x.asked p)
  match x.phase with
  | .called =>
      match x.session.enterContext with
      | .error e => { y with phase := .returned (.error e) x.session.closed }
      | .ok (context, session) =>
          { y with
            stage := { x.stage with session := session }
            context := context
            phase := .acting p.actions }
  | .acting [] => { y with phase := .ended (.ok ()) x.session.closed }
  | .acting (action :: rest) =>
      let (turn, stage) := x.stage.act p action
      { y with stage := stage, phase := .next stage.session rest turn }
  | .waiting wait rest =>
      let (turn, stage) := x.stage.turn (x.session.settle wait)
      { y with stage := stage, phase := .next stage.session rest turn }
  | .ended outcome closed =>
      { y with stage := x.stage.conclude x.context outcome, phase := .returned outcome closed }
  | .returned _ _ => y

def steps (p : Program) (count : Nat) (x : Play) : Play :=
  Nat.repeat (advance p) count x

def beside (x : Play) (operation : Session.Operation) : Play :=
  { x with
    events := x.events ++ [.beside operation]
    stage := x.stage.replay (.beside operation) }

section Advance

variable {p : Program} {x : Play}

theorem record_nil (x : Play) : x.record [] = x := by
  rw [record, List.map_nil, List.append_nil]

theorem advance_acting_nil (h : x.phase = .acting []) :
    x.advance p = { x with phase := .ended (.ok ()) x.session.closed } := by
  simp only [advance, asked, h, record_nil]

theorem advance_acting {action : Action} {rest : List Action}
    (h : x.phase = .acting (action :: rest)) :
    x.advance p =
      { x.record (x.stage.asked p action) with
        stage := (x.stage.act p action).2
        phase := .next (x.stage.act p action).2.session rest (x.stage.act p action).1 } := by
  simp only [advance, asked, h]

theorem asked_acting {action : Action} {rest : List Action}
    (h : x.phase = .acting (action :: rest)) : x.asked p = x.stage.asked p action := by
  rw [asked, h]

theorem phase_advance {action : Action} {rest : List Action}
    (h : x.phase = .acting (action :: rest)) :
    (x.advance p).phase = .next (x.advance p).session rest (x.stage.act p action).1 := by
  rw [advance_acting h]
  rfl

theorem advance_of_act {action : Action} {rest : List Action}
    (h : x.phase = .acting (action :: rest)) {turn : Turn} {stage : Stage}
    (hact : x.stage.act p action = (turn, stage)) :
    x.advance p =
      { x.record (x.stage.asked p action) with
        stage := stage
        phase := .next stage.session rest turn } := by
  rw [advance_acting h, hact]

theorem advance_waiting {wait : Wait} {rest : List Action} (h : x.phase = .waiting wait rest) :
    x.advance p =
      { x.record [.proceed wait] with
        stage := { x.stage with session := (x.session.settle wait).2 }
        phase := .next (x.session.settle wait).2 rest (.ofProgress (x.session.settle wait).1) } := by
  simp only [advance, asked, h]
  rfl

theorem advance_ended {outcome : Except Error Unit} {closed : Bool}
    (h : x.phase = .ended outcome closed) :
    x.advance p =
      { x.record (Stage.askedAtEnd x.context outcome) with
        stage := x.stage.conclude x.context outcome
        phase := .returned outcome closed } := by
  simp only [advance, asked, h]

theorem advance_returned {outcome : Except Error Unit} {closed : Bool}
    (h : x.phase = .returned outcome closed) : x.advance p = x := by
  simp only [advance, asked, h, record_nil]

theorem advance_refused {e : Error} (h : x.phase = .called)
    (henter : x.session.enterContext = .error e) :
    x.advance p =
      { x.record [.enterContext] with phase := .returned (.error e) x.session.closed } := by
  simp only [advance, asked, h, henter]

theorem advance_entered {context : ContextId} {entered : Session} (h : x.phase = .called)
    (henter : x.session.enterContext = .ok (context, entered)) :
    x.advance p =
      { x.record [.enterContext] with
        stage := { x.stage with session := entered }
        context := context
        phase := .acting p.actions } := by
  simp only [advance, asked, h, henter]

theorem steps_succ (p : Program) (count : Nat) (x : Play) :
    x.steps p (count + 1) = (x.advance p).steps p count := by
  induction count with
  | zero => rfl
  | succ count ih => exact congrArg (advance p) ih

theorem opening_advance (p : Program) (x : Play) : (x.advance p).opening = x.opening := by
  unfold advance
  split
  · split
    · rfl
    · rfl
  · rfl
  · rfl
  · rfl
  · rfl
  · rfl

theorem events_advance (p : Program) (x : Play) :
    (x.advance p).events = x.events ++ (x.asked p).map .own := by
  unfold advance
  split
  · split
    · rfl
    · rfl
  · rfl
  · rfl
  · rfl
  · rfl
  · rfl

/-- A step does to the session what it asks of it, and nothing else. -/
theorem stage_advance (p : Program) (x : Play) :
    (x.advance p).stage = x.stage.replayAll ((x.asked p).map .own) := by
  cases hphase : x.phase with
  | called =>
      have hafter := x.session.after_enterContext_eq
      rw [asked, hphase]
      cases henter : x.session.enterContext with
      | error e =>
          rw [henter] at hafter
          rw [advance_refused hphase henter]
          exact congrArg (fun s => { x.stage with session := s : Stage }) hafter.symm
      | ok entered =>
          rw [henter] at hafter
          rw [advance_entered hphase henter]
          exact congrArg (fun s => { x.stage with session := s : Stage }) hafter.symm
  | acting rest =>
      cases rest with
      | nil =>
          rw [asked, hphase, advance_acting_nil hphase]
          rfl
      | cons action rest =>
          rw [asked, hphase, advance_acting hphase]
          exact x.stage.act_eq_replayAll p action
  | waiting wait rest =>
      rw [asked, hphase, advance_waiting hphase]
      rfl
  | ended outcome closed =>
      rw [asked, hphase, advance_ended hphase]
      exact x.stage.conclude_eq_replayAll x.context outcome
  | returned outcome closed =>
      rw [asked, hphase, advance_returned hphase]
      rfl

theorem session_advance (p : Program) (x : Play) :
    (x.advance p).session = x.session.run (x.asked p) := by
  rw [session, stage_advance, Stage.session_replayAll, List.map_map]
  exact congrArg x.session.run (List.map_id _)

theorem lines_advance {action : Action} {rest : List Action}
    (h : x.phase = .acting (action :: rest)) :
    (x.advance p).lines = x.lines ++ action.line?.toList := by
  rw [advance_acting h, ← x.stage.line?_asked p action]
  exact List.filterMap_append

end Advance

end Play

def installed (script : Script) (h : Heap) : Program where
  script := script
  scopes := (script.install h).1

def start (script : Script) (h : Heap) : Memory where
  heap := (script.install h).2

/-- The ways in which the execution of a script can go, in any session that is set up for it, if
others do beside it what they are admitted to. -/
inductive Reachable (admits : Session.Operation → Bool) (script : Script) (h : Heap) :
    Play → Prop where
  | called {stage : Stage} (hs : stage.session.Reached)
      (hheap : stage.session.heap = (script.install h).2)
      (hhost : stage.session.host = host (script.install h).1) :
      Reachable admits script h (.opened stage)
  | advance {x : Play} (hx : Reachable admits script h x) :
      Reachable admits script h (x.advance (script.installed h))
  | beside {x : Play} {operation : Session.Operation} (hx : Reachable admits script h x)
      (hadmits : admits operation = true) : Reachable admits script h (x.beside operation)

namespace Reachable

variable {admits wider : Session.Operation → Bool} {script : Script} {h : Heap} {x : Play}

theorem mono (hwider : ∀ operation, admits operation = true → wider operation = true)
    (hx : Reachable admits script h x) : Reachable wider script h x := by
  induction hx with
  | called hs hheap hhost => exact .called hs hheap hhost
  | advance _ ih => exact ih.advance
  | beside _ hadmits ih => exact ih.beside (hwider _ hadmits)

theorem steps (hx : Reachable admits script h x) (count : Nat) :
    Reachable admits script h (x.steps (script.installed h) count) := by
  induction count with
  | zero => exact hx
  | succ count ih => exact ih.advance

/-- The session has become what the events have made of it. -/
theorem stage_eq (hx : Reachable admits script h x) :
    x.stage = x.opening.replayAll x.events := by
  induction hx with
  | called _ _ _ => rfl
  | @advance x _ ih =>
      rw [x.stage_advance, x.opening_advance, x.events_advance, Stage.replayAll_append, ← ih]
  | @beside x operation _ _ ih =>
      change x.stage.replay _ = x.opening.replayAll (x.events ++ [.beside operation])
      rw [Stage.replayAll_append, ← ih]
      rfl

end Reachable

/-! The calls of the debuggee take these steps. -/

namespace Stage

def follow (stage : Stage) (p : Program) (rest : List Action) : Turn → Run × Stage
  | .next more => stage.run p (more ++ rest)
  | .wait wait => (.paused wait rest, stage)
  | .fail e => (.ended (.error e), stage)

theorem run_cons (stage : Stage) (p : Program) (action : Action) (rest : List Action) :
    stage.run p (action :: rest) =
      (stage.act p action).2.follow p rest (stage.act p action).1 := by
  rw [run]
  rcases stage.act p action with ⟨turn, after⟩
  cases turn with
  | next more => rfl
  | wait wait => rfl
  | fail e => rfl

theorem goOn_eq (stage : Stage) (p : Program) (wait : Wait) (rest : List Action) :
    stage.goOn p wait rest =
      { stage with session := (stage.session.settle wait).2 }.follow p rest
        (.ofProgress (stage.session.settle wait).1) := by
  unfold goOn turn
  cases Turn.ofProgress (stage.session.settle wait).1 with
  | next more => rfl
  | wait wait => rfl
  | fail e => rfl

end Stage

namespace Play

def ofRun (s : Session) : Run → Phase
  | .ended outcome => .ended outcome s.closed
  | .paused wait rest => .waiting wait rest

/-- Some steps come where a run has come. -/
def Comes (p : Program) (x : Play) (result : Run × Stage) : Prop :=
  ∃ count, let y := x.steps p count
    y.stage = result.2 ∧ y.context = x.context ∧ y.phase = ofRun y.session result.1

/-- Some steps come where a call of the debuggee has come. -/
def Executes (p : Program) (x : Play) (result : Debuggee.Standing × Debuggee) : Prop :=
  ∃ count, let y := x.steps p count
    y.stage = result.2.stage ∧
      match result.1 with
      | .inl outcome => ∃ closed, y.phase = .returned outcome closed
      | .inr pending =>
          ∃ wait rest, y.phase = .waiting wait rest ∧ pending = .script p y.context wait rest

variable {p : Program} {x : Play}

theorem Comes.step {result : Run × Stage} (hcontext : (x.advance p).context = x.context)
    (h : (x.advance p).Comes p result) : x.Comes p result := by
  obtain ⟨count, hstage, hsame, hphase⟩ := h
  refine ⟨count + 1, ?_⟩
  rw [steps_succ]
  exact ⟨hstage, hsame.trans hcontext, hphase⟩

theorem comes_follow {rest : List Action} (turn : Turn)
    (hphase : x.phase = .next x.session rest turn)
    (hrun : ∀ {more}, turn = .next more → x.phase = .acting (more ++ rest) →
      x.Comes p (x.stage.run p (more ++ rest))) :
    x.Comes p (x.stage.follow p rest turn) := by
  cases turn with
  | wait wait => exact ⟨0, rfl, rfl, hphase⟩
  | fail e => exact ⟨0, rfl, rfl, hphase⟩
  | next more =>
      have hnext := hphase
      rw [Phase.next] at hnext
      rw [Stage.follow]
      split at hnext
      · rename_i hnil
        rw [hnil, Stage.run]
        exact ⟨0, rfl, rfl, hnext⟩
      · exact hrun rfl hnext

theorem comes_run {actions : List Action} (hphase : x.phase = .acting actions) :
    x.Comes p (x.stage.run p actions) := by
  -- An action leads to others that weigh less than it, before the rest.
  induction hweight : Action.totalWeight actions using Nat.strongRecOn generalizing x actions with
  | ind weight ih =>
      subst hweight
      cases actions with
      | nil =>
          refine .step ?_ ⟨0, ?_⟩
          · rw [advance_acting_nil hphase]
          · rw [advance_acting_nil hphase, Stage.run]
            exact ⟨rfl, rfl, rfl⟩
      | cons action rest =>
          refine .step ?_ ?_
          · rw [advance_acting hphase]
            rfl
          rw [advance_acting hphase, Stage.run_cons]
          refine comes_follow _ rfl fun {more} hturn hmore => ?_
          have hless : Action.totalWeight more < action.weight :=
            Stage.totalWeight_act_lt (Prod.ext hturn rfl)
          refine ih _ ?_ hmore rfl
          simp only [Action.totalWeight_append, Action.totalWeight_cons]
          omega

theorem comes_goOn {wait : Wait} {rest : List Action} (hphase : x.phase = .waiting wait rest) :
    x.Comes p (x.stage.goOn p wait rest) := by
  refine .step ?_ ?_
  · rw [advance_waiting hphase]
    rfl
  rw [advance_waiting hphase, Stage.goOn_eq]
  exact comes_follow _ rfl fun _ hmore => comes_run hmore

theorem Comes.executes {context : ContextId} {result : Run × Stage} (h : x.Comes p result)
    (hcontext : x.context = context) (d : Debuggee) :
    x.Executes p ((Debuggee.ofRun p context result).1,
      d.withStage (Debuggee.ofRun p context result).2) := by
  subst hcontext
  obtain ⟨count, hstage, hsame, hphase⟩ := h
  obtain ⟨outcome, stage⟩ := result
  cases outcome with
  | paused wait rest => exact ⟨count, hstage, wait, rest, hphase, by rw [hsame]⟩
  | ended outcome =>
      have hended : (x.steps p count).advance p = _ := advance_ended hphase
      refine ⟨count + 1, ?_⟩
      change ((x.steps p count).advance p).stage = _ ∧
        ∃ closed, ((x.steps p count).advance p).phase = .returned outcome closed
      rw [hended, hsame, hstage]
      exact ⟨rfl, _, rfl⟩

theorem Executes.step {result : Debuggee.Standing × Debuggee}
    (h : (x.advance p).Executes p result) : x.Executes p result := by
  obtain ⟨count, hcount⟩ := h
  refine ⟨count + 1, ?_⟩
  rw [steps_succ]
  exact hcount

/-- The call of a script takes the steps of the script, to a wait or to its return. -/
theorem executes_call {d : Debuggee} (hphase : x.phase = .called) (hstage : d.stage = x.stage) :
    x.Executes p (d.perform (.script p)) := by
  have hsession : x.stage.session.enterContext = x.session.enterContext := rfl
  refine .step ?_
  simp only [Debuggee.perform, Debuggee.runScript]
  rw [hstage, hsession]
  cases henter : x.session.enterContext with
  | error e =>
      rw [advance_refused hphase henter]
      exact ⟨0, rfl, _, rfl⟩
  | ok entered =>
      rw [advance_entered hphase henter]
      exact (comes_run rfl).executes rfl d

theorem executes_proceed {d : Debuggee} {wait : Wait} {rest : List Action}
    (hphase : x.phase = .waiting wait rest) (hstage : d.stage = x.stage) :
    x.Executes p (d.proceed (.script p x.context wait rest)) := by
  simp only [Debuggee.proceed]
  rw [hstage]
  exact (comes_goOn hphase).executes rfl d

end Play

end Script

end ScriptDebugger
