import ScriptDebugger.Script.Walk
import ScriptDebugger.Wire.Connection

/-!
The debuggee at the other end of a session.  Its calls may wait; a call that waits keeps its
number until what it waits for has come.  Nothing but a wait for the start can be called while
the current context is suspended, and a script runs alone.
-/

namespace ScriptDebugger

inductive Call where
  | hook (h : Hook)
  | awaitStart
  | script (p : Script.Program)
  deriving Repr

inductive Pending where
  | wait (w : Wait)
  | script (p : Script.Program) (context : ContextId) (w : Wait) (rest : List Script.Action)
  deriving Repr

def Pending.isScript : Pending → Bool
  | wait _ => false
  | script .. => true

abbrev CallNumber := Nat

inductive Reply where
  | refused
  | returned (outcome : Except Error Unit)
  | waiting (number : CallNumber)
  deriving Repr

structure Debuggee where
  connection : Wire.Connection
  lastCall : CallNumber := 0
  /-- The calls that wait, by ascending number. -/
  pending : List (CallNumber × Pending) := []
  /-- Texts that a script has printed locally and that were not collected, latest first. -/
  printed : List String := []

namespace Debuggee

def session (d : Debuggee) : Session :=
  d.connection.session

def withSession (d : Debuggee) (s : Session) : Debuggee :=
  { d with connection := { d.connection with session := s } }

def stage (d : Debuggee) : Script.Stage :=
  { session := d.session, printed := d.printed }

def withStage (d : Debuggee) (stage : Script.Stage) : Debuggee :=
  { d.withSession stage.session with printed := stage.printed }

def isSuspended (d : Debuggee) : Bool :=
  match d.session.current? with
  | some c => c.isSuspended
  | none => false

def accepts (d : Debuggee) : Call → Bool
  | .awaitStart => !d.pending.any fun entry => entry.2.isScript
  | .hook _ => !(d.pending.any fun entry => entry.2.isScript) && !d.isSuspended
  | .script _ => d.pending.isEmpty && !d.isSuspended

abbrev Standing := Except Error Unit ⊕ Pending

def ofProgress : Progress → Standing
  | .returned outcome => .inl outcome
  | .waiting wait => .inr (.wait wait)

/-- Clears up after the run of a script, if it has ended. -/
def ofRun (p : Script.Program) (context : ContextId) :
    Script.Run × Script.Stage → Standing × Script.Stage
  | (.ended outcome, stage) => (.inl outcome, stage.conclude context outcome)
  | (.paused wait rest, stage) => (.inr (.script p context wait rest), stage)

def runScript (stage : Script.Stage) (p : Script.Program) : Standing × Script.Stage :=
  match stage.session.enterContext with
  | .error e => (.inl (.error e), stage)
  | .ok (context, session) =>
      ofRun p context (Script.Stage.run { stage with session := session } p p.actions)

def perform (d : Debuggee) : Call → Standing × Debuggee
  | .hook h =>
      let (progress, s) := d.session.hook h
      (ofProgress progress, d.withSession s)
  | .awaitStart =>
      let (progress, s) := d.session.awaitStart
      (ofProgress progress, d.withSession s)
  | .script p =>
      let (standing, stage) := runScript d.stage p
      (standing, d.withStage stage)

def proceed (d : Debuggee) : Pending → Standing × Debuggee
  | .wait w =>
      let (progress, s) := d.session.settle w
      (ofProgress progress, d.withSession s)
  | .script p context w rest =>
      let (standing, stage) := ofRun p context (d.stage.goOn p w rest)
      (standing, d.withStage stage)

/-- Makes a call, unless it is refused.  A call that is made takes the next number. -/
def call (d : Debuggee) (c : Call) : Reply × Debuggee :=
  if d.accepts c then
    let number := d.lastCall + 1
    match { d with lastCall := number }.perform c with
    | (.inl outcome, d) => (.returned outcome, d)
    | (.inr pending, d) => (.waiting number, { d with pending := d.pending ++ [(number, pending)] })
  else (.refused, d)

/-- Goes on with the calls given; `released` are those that have come to an end before, latest
first, and those that wait are gathered in the debuggee. -/
def settleCalls (d : Debuggee) (released : List (CallNumber × Except Error Unit)) :
    List (CallNumber × Pending) → List (CallNumber × Except Error Unit) × Debuggee
  | [] => (released.reverse, d)
  | (number, pending) :: rest =>
      match d.proceed pending with
      | (.inl outcome, d) => d.settleCalls ((number, outcome) :: released) rest
      | (.inr pending, d) =>
          { d with pending := d.pending ++ [(number, pending)] }.settleCalls released rest

/-- Goes on with every call whose wait has ended, and gives the outcomes of those that come to
an end. -/
def settle (d : Debuggee) : List (CallNumber × Except Error Unit) × Debuggee :=
  { d with pending := [] }.settleCalls [] d.pending

def serve (d : Debuggee) (bytes : List UInt8) : Debuggee :=
  bytes.foldl (fun d byte => { d with connection := d.connection.receive [byte] }.settle.2) d

def hangUp (d : Debuggee) : Debuggee :=
  { d with connection := d.connection.hangUp }.settle.2

/-- A script in a session of its own, which waits for the client to start it. -/
def launch (settings : Settings) (script : Script) : Debuggee :=
  let (scopes, heap) := script.install {}
  let session : Session := { settings := settings, host := Script.host scopes, heap := heap }
  let connection := Wire.Connection.attach session (Text.toFileUri script.path)
  ({ connection := connection : Debuggee }.call (.script ⟨script, scopes⟩)).2

def collectFrames (d : Debuggee) : List (List UInt8) × Debuggee :=
  let (frames, connection) := d.connection.collect
  (frames, { d with connection := connection })

def collectPrinted (d : Debuggee) : List String × Debuggee :=
  (d.printed.reverse, { d with printed := [] })

end Debuggee

end ScriptDebugger
