import ScriptDebugger.Session.Basic

/-!
What the debuggee reports while it runs.  Each report may stop it: a report then waits until the
client resumes the context or the session closes.  When nobody can be told about a stop, the
debuggee goes on.
-/

namespace ScriptDebugger

inductive Hook where
  | compile (file : String)
  | enter (frame : Frame)
  | line (file : String) (line : Nat)
  | exit
  | exception (className message : String)
  | read (owner : ObjectId) (property : String)
  | write (owner : ObjectId) (property : String)
  deriving DecidableEq, Repr

inductive Wait where
  | start
  /-- A context runs again.  After the report of an exit its frame is dropped. -/
  | resumption (context : ContextId) (leaving : Bool)
  deriving DecidableEq, Repr

inductive Progress where
  | returned (outcome : Except Error Unit)
  | waiting (wait : Wait)
  deriving Repr

namespace Session

def returned (s : Session) (outcome : Except Error Unit) : Progress × Session :=
  (.returned outcome, s)

def pass (s : Session) : Progress × Session :=
  s.returned (.ok ())

/-- Ends a wait if what it waits for has come, or cannot come any more. -/
def settle (s : Session) : Wait → Progress × Session
  | .start =>
      if s.closed then s.returned (.error .terminated)
      else if s.initialized then s.pass
      else (.waiting .start, s)
  | .resumption id leaving =>
      match s.context? id with
      | none => s.returned (.error .terminated)
      | some c =>
          match c.outcome? with
          | none => (.waiting (.resumption id leaving), s)
          | some outcome => (if leaving then s.setContext c.pop else s).returned outcome

def awaitStart (s : Session) : Progress × Session :=
  s.settle .start

def suspend (s : Session) (c : Context) (leaving : Bool) (reason : String) :
    Progress × Session :=
  let ((_, c), s) := c.suspend (fun s : Session => s.reportBreak reason) s
  (s.setContext c).settle (.resumption c.id leaving)

/-- Whether the guard of a breakpoint holds in a frame.  One that cannot be evaluated does
not. -/
def guardHolds (s : Session) (b : Breakpoint) (frame : Option Frame) : Bool :=
  match b.guard? with
  | none => true
  | some expression =>
      match s.host.evaluate s.heap expression frame with
      | .ok value => value.isTruthy
      | .error _ => false

def guarded (s : Session) (c : Context) (hit : Option Breakpoint) : Option Breakpoint :=
  hit.filter fun b => s.guardHolds b c.frames.head?

def onEnter (s : Session) (c : Context) (f : Frame) : Progress × Session :=
  let c := c.push f
  let (hit, registry) := s.registry.hitCall f.function
  let s := { s.setContext c with registry := registry }
  if (s.guarded c hit).isSome then s.suspend c false ("Break on call: " ++ f.function)
  else if s.registry.flags.onEntry then s.suspend c false ("Suspend on entry: " ++ f.function)
  else s.pass

def onLine (s : Session) (c : Context) (location : Location) : Progress × Session :=
  let c := c.moveTo location.file location.line
  let (hit, registry) := s.registry.hitLine location.file location.line
  let entryStep := s.entryStep
  let s := { s.setContext c with registry := registry, entryStep := false }
  match s.guarded c hit with
  | some b =>
      s.suspend c false ("Breakpoint " ++ Breakpoint.Id.text b.id ++ " at " ++ location.text)
  | none =>
      let (stops, c) := if entryStep then (true, c) else c.takePendingStop
      if stops then s.suspend c false ("Step to " ++ location.text) else s.pass

/-- The frame is dropped once the debuggee goes on, however that comes about. -/
def onExit (s : Session) (c : Context) : Progress × Session :=
  let function := match c.frames with
    | f :: _ => f.function
    | [] => ""
  let (hit, registry) := s.registry.hitLeave function
  let s := { s with registry := registry }
  if (s.guarded c hit).isSome then s.suspend c true ("Break on return: " ++ function)
  else if s.registry.flags.onExit then s.suspend c true ("Suspend on exit: " ++ function)
  else (s.setContext c.pop).pass

/-- The general switch counts only while there are no exception breakpoints. -/
def onException (s : Session) (c : Context) (className message : String) :
    Progress × Session :=
  let (hit, registry) := s.registry.hitException className
  let s := { s with registry := registry }
  if hit.isSome || (s.registry.flags.onException && !s.registry.hasExceptions) then
    s.suspend c false ("Exception " ++ className ++ ": " ++ message)
  else s.pass

/-- Reading stops at an access watchpoint that stands where the object was last written. -/
def onRead (s : Session) (c : Context) (owner : ObjectId) (property : String) :
    Progress × Session :=
  match s.lastWrites.get? owner with
  | none => s.pass
  | some location =>
      let watchers := s.registry.watchersOf property
      if watchers.any fun b => b.isEnabled && b.onAccess && decide (b.location = location) then
        s.suspend c false ("Break on access watchpoint: " ++ property)
      else s.pass

/-- Goes through watchpoints when an object is written at a location, which is remembered if
one of them stands there.  Says whether one of them stops; later ones are not asked then. -/
def trackWrite (owner : ObjectId) (here : Location) :
    List Breakpoint → Table ObjectId Location → Bool × Table ObjectId Location
  | [], writes => (false, writes)
  | b :: rest, writes =>
      let writes := if here = b.location then writes.set owner here else writes
      if b.onModification && decide (writes.get? owner = some b.location) then (true, writes)
      else trackWrite owner here rest writes

def onWrite (s : Session) (c : Context) (owner : ObjectId) (property : String) :
    Progress × Session :=
  match c.location? with
  | none => s.pass
  | some here =>
      let watchers := (s.registry.watchersOf property).filter Breakpoint.isEnabled
      let (stops, writes) := trackWrite owner here watchers s.lastWrites
      let s := { s with lastWrites := writes }
      if stops then s.suspend c false ("Break on modification watchpoint: " ++ property)
      else s.pass

/-- Takes a report of the debuggee.  Without a context there is nothing to stop. -/
def hook (s : Session) (h : Hook) : Progress × Session :=
  if s.closed then s.returned (.error .terminated)
  else
    match s.current? with
    | none => s.pass
    | some c =>
        match h with
        | .compile _ => s.pass
        | .enter frame => s.onEnter c frame
        | .line file line => s.onLine c ⟨file, line⟩
        | .exit => s.onExit c
        | .exception className message => s.onException c className message
        | .read owner property => s.onRead c owner property
        | .write owner property => s.onWrite c owner property

theorem hook_of_closed {s : Session} (h : s.closed = true) (event : Hook) :
    s.hook event = (.returned (.error .terminated), s) := by
  simp [hook, h, returned]

end Session

end ScriptDebugger
