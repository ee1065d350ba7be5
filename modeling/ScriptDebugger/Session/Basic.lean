import ScriptDebugger.Breakpoint.Registry
import ScriptDebugger.Context
import ScriptDebugger.Outbox
import ScriptDebugger.Text.Quoted

/-!
Debug sessions.  A session is what one client and one debuggee share: settings, breakpoints, the
heap and its host, execution contexts, and the transaction of the client that waits to hear how
the run goes on.  A session opens once and closes once; closing drops the breakpoints, stops the
contexts and tells the listeners.
-/

namespace ScriptDebugger

abbrev ListenerId := Nat

structure Listener where
  id : ListenerId
  tag : String
  deriving DecidableEq, Repr

structure Session where
  settings : Settings := {}
  host : Host
  heap : Heap := {}
  registry : Registry := {}
  /-- All contexts ever entered, in the order of their ids. -/
  contexts : Table ContextId Context := []
  /-- The contexts entered and not yet left, the current one first. -/
  active : List ContextId := []
  /-- The transaction that waits to hear of the run. -/
  transaction : Option String := none
  initialized : Bool := false
  /-- Whether the next line stops because of a step before there was a frame. -/
  entryStep : Bool := false
  /-- Where an object was last written under a watchpoint. -/
  lastWrites : Table ObjectId Location := []
  streams : StreamModes := {}
  outbox : Outbox := {}
  closed : Bool := false
  listeners : List Listener := []
  told : List Listener := []
  lastListener : ListenerId := 0

namespace Session

def send (s : Session) (m : Message) : Bool × Session :=
  let (sent, outbox) := s.outbox.send m
  (sent, { s with outbox := outbox })

def post (s : Session) (m : Message) : Session :=
  (s.send m).2

def answer (s : Session) (e : Element) : Session :=
  s.post (.answer e)

def announce (s : Session) (fileUri : String) : Bool × Session :=
  s.send (.init s.settings fileUri)

/-! Transactions.  At most one is pending; its report takes it away. -/

/-- Makes a transaction the pending one.  One that was pending before hears that the run goes
on. -/
def adopt (s : Session) (transaction : Option String) : Session :=
  match s.transaction with
  | some stale => { s.post (.status .running stale none) with transaction := transaction }
  | none => { s with transaction := transaction }

/-- Tells the pending transaction that the debuggee stops.  Says whether somebody was told. -/
def reportBreak (s : Session) (reason : String) : Bool × Session :=
  match s.transaction with
  | some id => { s with transaction := none }.send (.status .break id (some reason))
  | none => (false, s)

def reportEnd (s : Session) : Session :=
  match s.transaction with
  | some id => { s with transaction := none }.post (.status .stopped id none)
  | none => s

def context? (s : Session) (id : ContextId) : Option Context :=
  s.contexts.get? id

def setContext (s : Session) (c : Context) : Session :=
  { s with contexts := s.contexts.set c.id c }

def current? (s : Session) : Option Context :=
  s.active.head?.bind s.context?

def frames (s : Session) : List Frame :=
  match s.current? with
  | some c => c.frames
  | none => []

def enterContext (s : Session) : Except Error (ContextId × Session) :=
  if s.closed then .error .terminated
  else
    let id := s.contexts.length + 1
    .ok (id, { s.setContext { id := id } with active := id :: s.active })

def exitContext (s : Session) (id : ContextId) : Session :=
  { s with active := s.active.filter (· ≠ id) }

def markInitialized (s : Session) : Session :=
  { s with initialized := true }

/-- Lets the current context run as the mode says.  A debuggee without a frame is started, and a
step then stops it at its first line. -/
def resume (s : Session) (mode : StepMode) : Session :=
  match s.current?.filter fun c => decide (0 < c.depth) || c.isSuspended with
  | some c => s.markInitialized.setContext (c.resume mode)
  | none => { s.markInitialized with entryStep := s.entryStep || mode != .none }

def requestBreak (s : Session) : Bool × Session :=
  match s.current? with
  | some c => (true, s.setContext c.requestBreak)
  | none => (false, s)

/-- Passes output of the debuggee on.  Says whether it is to be printed locally. -/
def write (s : Session) (stream : Stream) (text : String) : Bool × Session :=
  let mode := s.streams.mode stream
  (mode.isPrinted, if mode.isSent then s.post (.output stream text) else s)

/-! The end of a session. -/

def isConnected (s : Session) : Bool :=
  !s.closed && s.outbox.isOpen

def addListener (s : Session) (tag : String) : ListenerId × Session :=
  let id := s.lastListener + 1
  (id, { s with lastListener := id, listeners := s.listeners ++ [⟨id, tag⟩] })

def removeListener (s : Session) (id : ListenerId) : Bool × Session :=
  let others := s.listeners.filter fun l => l.id ≠ id
  (others.length != s.listeners.length, { s with listeners := others })

def stopContext (s : Session) (id : ContextId) : Session :=
  match s.context? id with
  | some c => s.setContext c.stop
  | none => s

def close (s : Session) : Session :=
  if s.closed then s
  else
    { s.active.foldl stopContext s with
      closed := true
      transaction := none
      registry := s.registry.clear
      active := []
      outbox := s.outbox.close
      listeners := []
      told := s.told ++ s.listeners }

def finish (s : Session) : Session :=
  s.reportEnd.close

def dropClient (s : Session) : Session :=
  { s with outbox := { s.outbox with clientPresent := false } }

def collect (s : Session) : List Message × Session :=
  let (messages, outbox) := s.outbox.collect
  (messages, { s with outbox := outbox })

def summary (s : Session) : String :=
  let transaction := match s.transaction with
    | some id => "Some(" ++ Text.quoted id ++ ")"
    | none => "None"
  "Session \x7b breakpoints: " ++ Text.numeral s.registry.size ++ ", contexts: "
    ++ Text.numeral s.active.length ++ ", transaction: " ++ transaction ++ ", closed: "
    ++ (if s.closed then "true" else "false") ++ " \x7d"

theorem close_of_closed {s : Session} (h : s.closed = true) : s.close = s := by
  simp [close, h]

@[simp] theorem closed_close (s : Session) : s.close.closed = true := by
  unfold close
  split
  · assumption
  · rfl

end Session

end ScriptDebugger
