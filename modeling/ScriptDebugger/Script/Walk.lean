import ScriptDebugger.Script.Basic
import ScriptDebugger.Session.Hook

/-!
Running a script under a session.  What is left to do is a list of actions; reports to the
session stand among them, and at each the run may have to wait.  An expression that cannot be
evaluated raises an exception, and its statement has no effect.
-/

namespace ScriptDebugger.Script

structure Program where
  script : Script
  scopes : Scopes
  deriving DecidableEq, Repr

inductive Action where
  | start
  | report (hook : Hook)
  | perform (statement : Statement)
  | store (name : String) (value : Value)
  | print (value : Value)
  deriving DecidableEq, Repr

namespace Action

/-- A bound on the actions that an action leads to. -/
def weight : Action → Nat
  | start => 1
  | report _ => 1
  | perform _ => 4
  | store _ _ => 2
  | print _ => 1

def totalWeight : List Action → Nat
  | [] => 0
  | action :: rest => action.weight + totalWeight rest

@[simp] theorem totalWeight_nil : totalWeight [] = 0 := rfl

@[simp] theorem totalWeight_cons (action : Action) (rest : List Action) :
    totalWeight (action :: rest) = action.weight + totalWeight rest := rfl

@[simp] theorem totalWeight_append (first second : List Action) :
    totalWeight (first ++ second) = totalWeight first + totalWeight second := by
  induction first with
  | nil => simp
  | cons action rest ih => simp [ih, Nat.add_assoc]

@[simp] theorem weight_start : start.weight = 1 := rfl

@[simp] theorem weight_report (hook : Hook) : (report hook).weight = 1 := rfl

@[simp] theorem weight_perform (statement : Statement) : (perform statement).weight = 4 := rfl

@[simp] theorem weight_store (name : String) (value : Value) : (store name value).weight = 2 :=
  rfl

@[simp] theorem weight_print (value : Value) : (print value).weight = 1 := rfl

end Action

namespace Program

def frame (p : Program) : Frame :=
  { file := p.script.path, line := 1, scope := some p.scopes.locals }

def actions (p : Program) : List Action :=
  [.report (.compile p.script.path), .start, .report (.enter p.frame)]
    ++ p.script.statements.flatMap (fun entry =>
      [.report (.line p.script.path entry.1), .perform entry.2])
    ++ [.report .exit]

/-- What there is to do with an expression: `use` its value, if it has one.  A variable is
reported as read before. -/
def reading (p : Program) (h : Heap) (host : Host) (expression : String)
    (use : Value → Action) : List Action :=
  match host.evaluate h expression (some p.frame) with
  | .error e => [.report (.exception e.className e.message)]
  | .ok value =>
      if isIdentifier expression then [.report (.read p.scopes.locals expression), use value]
      else [use value]

def expand (p : Program) (h : Heap) (host : Host) : Statement → List Action
  | .assign name expression => p.reading h host expression (.store name)
  | .print expression => p.reading h host expression .print
  | .throw className message => [.report (.exception className message)]
  | .nop => []

theorem totalWeight_reading_le (p : Program) (h : Heap) (host : Host) (expression : String)
    {use : Value → Action} {bound : Nat} (huse : ∀ value, (use value).weight ≤ bound) :
    Action.totalWeight (p.reading h host expression use) ≤ bound + 1 := by
  unfold reading
  split
  · simp
  · rename_i value _
    have hvalue := huse value
    split
    · simp only [Action.totalWeight_cons, Action.totalWeight_nil, Action.weight_report]
      omega
    · simp only [Action.totalWeight_cons, Action.totalWeight_nil]
      omega

theorem totalWeight_expand_lt (p : Program) (h : Heap) (host : Host) (statement : Statement) :
    Action.totalWeight (p.expand h host statement) < 4 := by
  cases statement with
  | assign name expression =>
      have hbound : ∀ value, (Action.store name value).weight ≤ 2 := fun _ => Nat.le_refl _
      have := p.totalWeight_reading_le h host expression hbound
      simp only [expand]
      omega
  | print expression =>
      have hbound : ∀ value, (Action.print value).weight ≤ 1 := fun _ => Nat.le_refl _
      have := p.totalWeight_reading_le h host expression hbound
      simp only [expand]
      omega
  | throw className message => simp [expand]
  | nop => simp [expand]

end Program

/-- A session and what its script has printed locally, latest text first. -/
structure Stage where
  session : Session
  printed : List String := []

inductive Run where
  | ended (outcome : Except Error Unit)
  | paused (wait : Wait) (rest : List Action)
  deriving Repr

inductive Turn where
  | next (more : List Action)
  | wait (wait : Wait)
  | fail (error : Error)
  deriving Repr

def Turn.ofProgress : Progress → Turn
  | .waiting w => .wait w
  | .returned (.error e) => .fail e
  | .returned (.ok ()) => .next []

namespace Stage

def lineText (h : Heap) (value : Value) : String :=
  h.displayText value ++ "\n"

/-- Prints a value, to the client and locally as the session wants it. -/
def print (stage : Stage) (value : Value) : Stage :=
  let text := lineText stage.session.heap value
  let (shown, session) := stage.session.write .stdout text
  { session := session, printed := if shown then text :: stage.printed else stage.printed }

def store (stage : Stage) (p : Program) (name : String) (value : Value) : Except Error Stage := do
  let heap ← (stage.session.heap.set p.scopes.locals (.name name) value).mapError Error.host
  return { stage with session := { stage.session with heap := heap } }

def turn (stage : Stage) (result : Progress × Session) : Turn × Stage :=
  (.ofProgress result.1, { stage with session := result.2 })

def act (stage : Stage) (p : Program) : Action → Turn × Stage
  | .start => stage.turn stage.session.awaitStart
  | .report hook => stage.turn (stage.session.hook hook)
  | .perform statement => (.next (p.expand stage.session.heap stage.session.host statement), stage)
  | .store name value =>
      match stage.store p name value with
      | .error e => (.fail e, stage)
      | .ok stage => (.next [.report (.write p.scopes.locals name)], stage)
  | .print value => (.next [], stage.print value)

theorem totalWeight_act_lt {stage after : Stage} {p : Program} {action : Action}
    {more : List Action} (h : stage.act p action = (.next more, after)) :
    Action.totalWeight more < action.weight := by
  have hreport : ∀ {result : Progress × Session}, stage.turn result = (.next more, after) →
      Action.totalWeight more < 1 := by
    intro result hturn
    obtain ⟨progress, session⟩ := result
    cases progress with
    | waiting wait => cases hturn
    | returned outcome =>
        cases outcome with
        | error e => cases hturn
        | ok value =>
            cases hturn
            exact Nat.one_pos
  cases action with
  | start => exact hreport h
  | report hook => exact hreport h
  | perform statement =>
      cases h
      exact p.totalWeight_expand_lt _ _ statement
  | store name value =>
      simp only [act] at h
      split at h
      · cases h
      · cases h
        simp
  | print value =>
      cases h
      exact Nat.one_pos

/-- Carries out actions until one has to wait or fails. -/
def run (stage : Stage) (p : Program) : List Action → Run × Stage
  | [] => (.ended (.ok ()), stage)
  | action :: rest =>
      match _hact : stage.act p action with
      | (.next more, stage) => run stage p (more ++ rest)
      | (.wait wait, stage) => (.paused wait rest, stage)
      | (.fail e, stage) => (.ended (.error e), stage)
termination_by actions => Action.totalWeight actions
decreasing_by
  have := totalWeight_act_lt _hact
  simp only [Action.totalWeight_append, Action.totalWeight_cons]
  omega

def goOn (stage : Stage) (p : Program) (wait : Wait) (rest : List Action) : Run × Stage :=
  match stage.turn (stage.session.settle wait) with
  | (.next more, stage) => run stage p (more ++ rest)
  | (.wait wait, stage) => (.paused wait rest, stage)
  | (.fail e, stage) => (.ended (.error e), stage)

/-- Clears up after a run: its context is left, and unless the client has ended the session, it
hears of the end. -/
def conclude (stage : Stage) (context : ContextId) (outcome : Except Error Unit) : Stage :=
  let session := stage.session.exitContext context
  match outcome with
  | .error .terminated => { stage with session := session }
  | _ => { stage with session := session.finish }

end Stage

end ScriptDebugger.Script
