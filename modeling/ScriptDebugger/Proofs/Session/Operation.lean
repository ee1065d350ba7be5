import ScriptDebugger.Proofs.Registry.History
import ScriptDebugger.Session.Dispatch
import ScriptDebugger.Session.Hook

namespace ScriptDebugger

def Command.modes : Table String StepMode :=
  [("run", .none), ("step_into", .into), ("step_over", .over), ("step_out", .out)]

def Command.mode? (c : Command) : Option StepMode :=
  modes.get? c.name

theorem Command.parse_eq_ok {line : String} {c : Command}
    (h : (parse line).toOption = some c) : parse line = .ok c :=
  eq_ok_of_toOption h

def Progress.wait? : Progress → Option Wait
  | .waiting wait => some wait
  | .returned _ => none

namespace Session

inductive Operation where
  | command (line : String)
  | hook (event : Hook)
  | awaitStart
  | proceed (wait : Wait)
  | enterContext
  | exitContext (id : ContextId)
  | adopt (transaction : Option String)
  | resume (mode : StepMode)
  | requestBreak
  | reportBreak (reason : String)
  | reportEnd
  | finish
  | close
  | markInitialized
  | announce (fileUri : String)
  | write (stream : Stream) (text : String)
  | addListener (tag : String)
  | removeListener (id : ListenerId)
  | breakpoints (operation : Registry.Operation)
  | configure (settings : Settings)
  | redirect (streams : StreamModes)
  | mutate (heap : Heap)
  | dropClient
  | collect

def perform (s : Session) : Operation → Progress × Session
  | .command line => (s.dispatch line).pass
  | .hook event => s.hook event
  | .awaitStart => s.awaitStart
  | .proceed wait => s.settle wait
  | .enterContext =>
      match s.enterContext with
      | .ok (_, entered) => entered.pass
      | .error e => s.returned (.error e)
  | .exitContext id => (s.exitContext id).pass
  | .adopt transaction => (s.adopt transaction).pass
  | .resume mode => (s.resume mode).pass
  | .requestBreak => s.requestBreak.2.pass
  | .reportBreak reason => (s.reportBreak reason).2.pass
  | .reportEnd => s.reportEnd.pass
  | .finish => s.finish.pass
  | .close => s.close.pass
  | .markInitialized => s.markInitialized.pass
  | .announce fileUri => (s.announce fileUri).2.pass
  | .write stream text => (s.write stream text).2.pass
  | .addListener tag => (s.addListener tag).2.pass
  | .removeListener id => (s.removeListener id).2.pass
  | .breakpoints operation => { s with registry := s.registry.after operation }.pass
  | .configure settings => { s with settings := settings }.pass
  | .redirect streams => { s with streams := streams }.pass
  | .mutate heap => { s with heap := heap }.pass
  | .dropClient => s.dropClient.pass
  | .collect => s.collect.2.pass

def after (s : Session) (operation : Operation) : Session :=
  (s.perform operation).2

def run (s : Session) (operations : List Operation) : Session :=
  operations.foldl after s

def opened (settings : Settings) (host : Host) (heap : Heap) : Session where
  settings := settings
  host := host
  heap := heap

/-- Some history leads to the session. -/
def Reached (s : Session) : Prop :=
  ∃ settings host heap operations, s = (opened settings host heap).run operations

def sent (s : Session) (operation : Operation) : List Message :=
  (s.after operation).outbox.queue.drop s.outbox.queue.length

/-- The messages that operations send, one after the other. -/
def sentBy (s : Session) : List Operation → List Message
  | [] => []
  | operation :: rest => s.sent operation ++ (s.after operation).sentBy rest

@[simp] theorem run_cons (s : Session) (operation : Operation) (rest : List Operation) :
    s.run (operation :: rest) = (s.after operation).run rest := rfl

theorem run_append (s : Session) (first second : List Operation) :
    s.run (first ++ second) = (s.run first).run second :=
  List.foldl_append

theorem Reached.run {s : Session} (h : s.Reached) (operations : List Operation) :
    (s.run operations).Reached := by
  obtain ⟨settings, host, heap, before, rfl⟩ := h
  exact ⟨settings, host, heap, before ++ operations, (run_append _ before operations).symm⟩

theorem Reached.after {s : Session} (h : s.Reached) (operation : Operation) :
    (s.after operation).Reached :=
  h.run [operation]

theorem sentBy_append (s : Session) (first second : List Operation) :
    s.sentBy (first ++ second) = s.sentBy first ++ (s.run first).sentBy second := by
  induction first generalizing s with
  | nil => rfl
  | cons operation rest ih =>
      simp only [List.cons_append, sentBy, ih, List.append_assoc, run_cons]

/-- What every operation preserves holds after a history. -/
theorem run_induction {motive : Session → Prop} {s : Session} (h : motive s)
    (hstep : ∀ {s}, motive s → ∀ operation, motive (s.after operation))
    (operations : List Operation) : motive (s.run operations) := by
  induction operations generalizing s with
  | nil => exact h
  | cons operation rest ih => exact ih (hstep h operation)

end Session

end ScriptDebugger
