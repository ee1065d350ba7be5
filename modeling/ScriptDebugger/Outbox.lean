import ScriptDebugger.Message

namespace ScriptDebugger

structure Outbox where
  accepting : Bool := true
  clientPresent : Bool := true
  queue : List Message := []
  deriving Repr

namespace Outbox

def isOpen (o : Outbox) : Bool :=
  o.accepting && o.clientPresent

/-- Queues a message.  The first attempt after the client has gone closes the queue. -/
def send (o : Outbox) (m : Message) : Bool × Outbox :=
  if o.isOpen then (true, { o with queue := o.queue ++ [m] })
  else (false, { o with accepting := false })

def close (o : Outbox) : Outbox :=
  { o with accepting := false }

def collect (o : Outbox) : List Message × Outbox :=
  (o.queue, { o with queue := [] })

theorem queue_send_of_isOpen {o : Outbox} (h : o.isOpen = true) (m : Message) :
    (o.send m).2.queue = o.queue ++ [m] := by
  simp [send, h]

theorem send_of_not_isOpen {o : Outbox} (h : o.isOpen = false) (m : Message) :
    o.send m = (false, o.close) := by
  simp [send, h, close]

@[simp] theorem isOpen_send (o : Outbox) (m : Message) : (o.send m).2.isOpen = o.isOpen := by
  unfold send
  split
  · rfl
  · rename_i hclosed
    simp only [Bool.not_eq_true] at hclosed
    rw [hclosed]
    rfl

@[simp] theorem isOpen_close (o : Outbox) : o.close.isOpen = false := rfl

@[simp] theorem queue_close (o : Outbox) : o.close.queue = o.queue := rfl

end Outbox

end ScriptDebugger
