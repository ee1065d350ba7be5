import ScriptDebugger.Proofs.Session.Operation

namespace ScriptDebugger

namespace Outbox

def sendAll (o : Outbox) (messages : List Message) : Outbox :=
  messages.foldl (fun o m => (o.send m).2) o

theorem sendAll_append (o : Outbox) (first second : List Message) :
    o.sendAll (first ++ second) = (o.sendAll first).sendAll second :=
  List.foldl_append

@[simp] theorem isOpen_sendAll (o : Outbox) (messages : List Message) :
    (o.sendAll messages).isOpen = o.isOpen := by
  induction messages generalizing o with
  | nil => rfl
  | cons m rest ih => exact (ih _).trans (o.isOpen_send m)

theorem queue_sendAll_of_isOpen {o : Outbox} (h : o.isOpen = true) (messages : List Message) :
    (o.sendAll messages).queue = o.queue ++ messages := by
  induction messages generalizing o with
  | nil => exact (List.append_nil _).symm
  | cons m rest ih =>
      calc
        (o.sendAll (m :: rest)).queue = (o.send m).2.queue ++ rest :=
          ih ((o.isOpen_send m).trans h)
        _ = o.queue ++ m :: rest := by rw [queue_send_of_isOpen h, List.append_assoc]; rfl

theorem queue_send_of_not_isOpen {o : Outbox} (h : o.isOpen = false) (m : Message) :
    (o.send m).2.queue = o.queue := by
  rw [send_of_not_isOpen h, queue_close]

theorem queue_sendAll_of_not_isOpen {o : Outbox} (h : o.isOpen = false)
    (messages : List Message) : (o.sendAll messages).queue = o.queue := by
  induction messages generalizing o with
  | nil => rfl
  | cons m rest ih =>
      exact (ih ((o.isOpen_send m).trans h)).trans (queue_send_of_not_isOpen h m)

theorem drop_queue_sendAll (o : Outbox) (messages : List Message) :
    (o.sendAll messages).queue.drop o.queue.length = if o.isOpen then messages else [] := by
  cases h : o.isOpen with
  | true => rw [queue_sendAll_of_isOpen h, List.drop_left, if_pos rfl]
  | false =>
      rw [queue_sendAll_of_not_isOpen h, List.drop_length]
      rfl

end Outbox

namespace Message

def notice? : Message → Option RunStatus
  | status outcome _ _ => some outcome
  | _ => none

end Message

namespace Session

/-- The report to the pending transaction, if there is one. -/
def reports (s : Session) (outcome : RunStatus) (reason : Option String) : List Message :=
  s.transaction.toList.map fun id => .status outcome id reason

/-- The session after the pending transaction was told of its run and gave way to another. -/
def release (s : Session) (outcome : RunStatus) (reason : Option String)
    (next : Option String) : Session :=
  { s with transaction := next, outbox := s.outbox.sendAll (s.reports outcome reason) }

theorem filterMap_reported?_reports (s : Session) (outcome : RunStatus) (reason : Option String) :
    (s.reports outcome reason).filterMap Message.reported? = s.transaction.toList := by
  unfold reports
  cases s.transaction with
  | none => rfl
  | some id => rfl

theorem filterMap_notice?_reports (s : Session) (outcome : RunStatus) (reason : Option String) :
    (s.reports outcome reason).filterMap Message.notice? =
      s.transaction.toList.map fun _ => outcome := by
  unfold reports
  cases s.transaction with
  | none => rfl
  | some id => rfl

theorem adopt_eq (s : Session) (transaction : Option String) :
    s.adopt transaction = s.release .running none transaction := by
  unfold adopt release reports
  cases s.transaction with
  | none => rfl
  | some stale => rfl

theorem reportEnd_eq (s : Session) : s.reportEnd = s.release .stopped none none := by
  obtain ⟨settings, host, heap, registry, contexts, active, transaction⟩ := s
  cases transaction with
  | none => rfl
  | some id => rfl

theorem reportBreak_eq (s : Session) (reason : String) :
    s.reportBreak reason =
      (s.transaction.isSome && s.outbox.isOpen, s.release .break (some reason) none) := by
  obtain ⟨settings, host, heap, registry, contexts, active, transaction⟩ := s
  cases transaction with
  | none => rfl
  | some id =>
      refine Prod.ext ?_ rfl
      change (Outbox.send _ _).1 = _
      unfold Outbox.send
      split
      · rename_i h
        exact h.symm
      · rename_i h
        exact (Bool.not_eq_true _ ▸ h).symm

theorem write_effect (s : Session) (stream : Stream) (text : String) :
    (s.write stream text).2 = s ∨ (s.write stream text).2 = s.post (.output stream text) := by
  simp only [write]
  split
  · exact .inr rfl
  · exact .inl rfl

end Session

end ScriptDebugger
