import ScriptDebugger.Host

/-!
Execution contexts.  A context holds the frames of one evaluation, whether it is running or
suspended, and the step and break requests of the client.  A suspended context waits until it
is resumed, stepped or stopped.
-/

namespace ScriptDebugger

inductive StepMode where
  | none
  | into
  /-- Stop at the next line of this frame or a frame below it. -/
  | over
  /-- Stop at the next line of a frame below this one. -/
  | out
  deriving DecidableEq, Repr

inductive RunState where
  | running
  | suspended
  deriving DecidableEq, Repr

abbrev ContextId := Nat

structure Context where
  id : ContextId
  frames : List Frame := []
  run : RunState := .running
  step : StepMode := .none
  stepDepth : Nat := 0
  breakRequested : Bool := false
  stopped : Bool := false
  deriving DecidableEq, Repr

inductive Suspension where
  | terminated
  /-- Nobody was told, so the debuggee goes on. -/
  | passed
  | waiting
  deriving DecidableEq, Repr

namespace Context

def depth (c : Context) : Nat :=
  c.frames.length

def isSuspended (c : Context) : Bool :=
  c.run == .suspended

def push (c : Context) (f : Frame) : Context :=
  { c with frames := f :: c.frames }

def pop (c : Context) : Context :=
  { c with frames := c.frames.tail }

def location? (c : Context) : Option Location :=
  c.frames.head?.map Frame.location

/-- Moves the executing frame to a line; code outside any function gets a frame of its own. -/
def moveTo (c : Context) (file : String) (line : Nat) : Context :=
  match c.frames with
  | top :: rest => { c with frames := { top with file := file, line := line } :: rest }
  | [] => c.push { file := file, line := line }

/-- Lets the context run, to stop as the mode says. -/
def resume (c : Context) (mode : StepMode) : Context :=
  { c with step := mode, stepDepth := c.depth, run := .running }

def requestBreak (c : Context) : Context :=
  { c with breakRequested := true }

/-- Whether a request of the client stops the context at its present depth. -/
def stopPending (c : Context) : Bool :=
  c.breakRequested ||
    match c.step with
    | .none => false
    | .into => true
    | .over => decide (c.depth ≤ c.stepDepth)
    | .out => decide (c.depth < c.stepDepth)

def takePendingStop (c : Context) : Bool × Context :=
  if c.stopPending then (true, { c with step := .none, breakRequested := false })
  else (false, c)

/-- The context once it is suspended; requests made before are void. -/
def halt (c : Context) : Context :=
  { c with run := .suspended, step := .none, breakRequested := false }

/-- Suspends the context, unless it is stopped or telling the client fails.  `notify` tells the
client and acts on the state around the context; a stopped context does not come to it. -/
def suspend {σ : Type} (c : Context) (notify : σ → Bool × σ) (s : σ) :
    (Suspension × Context) × σ :=
  if c.stopped then ((.terminated, c), s)
  else
    match notify s with
    | (true, s) => ((.waiting, c.halt), s)
    | (false, s) => ((.passed, { c.halt with run := .running }), s)

/-- How a wait in a suspended context ends, once it does. -/
def outcome? (c : Context) : Option (Except Error Unit) :=
  if c.stopped then some (.error .terminated)
  else if c.isSuspended then none
  else some (.ok ())

def stop (c : Context) : Context :=
  { c with stopped := true, run := .running, step := .none }

@[simp] theorem frames_push (c : Context) (f : Frame) : (c.push f).frames = f :: c.frames := rfl

@[simp] theorem frames_pop (c : Context) : c.pop.frames = c.frames.tail := rfl

theorem halt_takePendingStop (c : Context) : c.takePendingStop.2.halt = c.halt := by
  unfold takePendingStop
  split
  · rfl
  · rfl

theorem suspend_of_stopped {σ : Type} {c : Context} (h : c.stopped = true)
    (notify : σ → Bool × σ) (s : σ) : c.suspend notify s = ((.terminated, c), s) := by
  simp [suspend, h]

end Context

end ScriptDebugger
