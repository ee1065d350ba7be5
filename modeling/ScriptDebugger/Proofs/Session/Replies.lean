import ScriptDebugger.Proofs.Session.Transactions

namespace ScriptDebugger

namespace Session

/-- The messages of a command that succeeds. -/
inductive Replies (s : Session) (c : Command) : List Message → Prop where
  | run (hmode : c.mode?.isSome) : Replies s c (s.reports .running none)
  | stop {e : Element} (hname : c.name = "stop") (hanswer : c.IsAnswer e) :
      Replies s c (s.reports .stopped none ++ [.answer e])
  | answer {e : Element} (hmode : c.mode? = none) (hanswer : c.IsAnswer e) :
      Replies s c [.answer e]

theorem queue_close (s : Session) : s.close.outbox.queue = s.outbox.queue := by
  unfold close
  split
  · rfl
  · rfl

theorem CommandEffect.replies {s after : Session} {c : Command} (h : CommandEffect s c after) :
    ∃ messages, s.Replies c messages ∧
      after.outbox.queue = (s.outbox.sendAll messages).queue := by
  cases h with
  | @resumed mode hmode =>
      refine ⟨_, .run (Option.isSome_of_mem hmode), ?_⟩
      have houtbox := (channel_eq_iff.mp
        (channel_hidesContexts.resume channel_hidesStart (s.adopt c.transaction?) mode)).1
      rw [houtbox, adopt_eq]
      rfl
  | @interrupted e hmode _ hanswer =>
      refine ⟨[.answer e], .answer hmode hanswer, ?_⟩
      have houtbox := (channel_eq_iff.mp (channel_hidesContexts.requestBreak s)).1
      exact congrArg (fun outbox => (Outbox.sendAll outbox [.answer e]).queue) houtbox
  | stopped _ hname hanswer =>
      refine ⟨_, .stop hname hanswer, ?_⟩
      rw [queue_close, reportEnd_eq, Outbox.sendAll_append]
      rfl
  | answered hmode _ _ hanswer => exact ⟨_, .answer hmode hanswer, rfl⟩

theorem executeLine_of_handler (s : Session) {line : String} {c : Command} {handler : Handler}
    (hparse : Command.parse line = .ok c) (hget : handlers.get? c.name = some handler) :
    s.executeLine line = ((handler c).on s).1.map fun _ => ((handler c).on s).2 := by
  rw [executeLine_of_parse s hparse, execute, obey, hget]

theorem sent_of_dispatch {s t : Session} {line : String} {e : Element}
    (h : s.dispatch line = t.answer e) (houtbox : t.outbox = s.outbox) :
    s.sent (.command line) = if s.outbox.isOpen then [.answer e] else [] := by
  change (s.dispatch line).outbox.queue.drop s.outbox.queue.length = _
  rw [h, ← houtbox]
  exact t.outbox.drop_queue_sendAll [.answer e]

def succeeds (s : Session) (line : String) : Bool :=
  (s.sent (.command line)).any fun
    | .answer e => e.attribute? "success" == some "1"
    | _ => false

theorem attribute?_success_answer (c : Command) : c.answer.attribute? "success" = none := by
  unfold Command.answer Element.response
  cases c.transaction? with
  | none => rfl
  | some _ => rfl

theorem attribute?_success_errorAnswer (c : Command) (e : Error) :
    (c.errorAnswer e).attribute? "success" = none :=
  attribute?_success_answer c

theorem attribute?_success_attr (c : Command) (value : String) :
    (c.answer.attr "success" value).attribute? "success" = some value := by
  change (c.answer.attributes ++ [("success", value)]).lookup "success" = some value
  rw [List.lookup_append, show c.answer.attributes.lookup "success" = none from
    attribute?_success_answer c, Option.none_or, List.lookup_cons_self]

theorem succeeds_of_dispatch {s t : Session} {line : String} {e : Element}
    (h : s.dispatch line = t.answer e) (houtbox : t.outbox = s.outbox) :
    s.succeeds line = (s.outbox.isOpen && e.attribute? "success" == some "1") := by
  rw [succeeds, sent_of_dispatch h houtbox]
  cases s.outbox.isOpen with
  | true => exact Bool.or_false _
  | false => rfl

theorem silent_of_error {s : Session} {line : String} {e : Error}
    (h : s.executeLine line = .error e) :
    s.dispatch line = s ∧ s.sent (.command line) = [] := by
  have hsame := dispatch_of_error h
  refine ⟨hsame, ?_⟩
  change (s.dispatch line).outbox.queue.drop s.outbox.queue.length = []
  rw [hsame, List.drop_length]

theorem replies_of_ok {s after : Session} {line : String} {c : Command}
    (hparse : Command.parse line = .ok c) (h : s.execute c = .ok after) :
    ∃ messages, s.Replies c messages ∧
      s.sent (.command line) = if s.outbox.isOpen then messages else [] := by
  obtain ⟨messages, hreplies, hqueue⟩ := (execute_effect h).replies
  refine ⟨messages, hreplies, ?_⟩
  change (s.dispatch line).outbox.queue.drop s.outbox.queue.length = _
  rw [dispatch_of_parse hparse h, hqueue, Outbox.drop_queue_sendAll]

/-- A line that is no command, has an unknown name or fails leaves the session as it is, and
nothing is sent.  A command that succeeds sends its replies, if the client is still there. -/
theorem dispatch_replies_once (s : Session) (line : String) :
    (∀ e, Command.parse line = .error e →
      s.dispatch line = s ∧ s.sent (.command line) = []) ∧
    (∀ c, Command.parse line = .ok c → handlers.get? c.name = none →
      s.dispatch line = s ∧ s.sent (.command line) = []) ∧
    ∀ c handler, Command.parse line = .ok c → handlers.get? c.name = some handler →
      (∀ e, ((handler c).on s).1 = .error e →
        s.dispatch line = s ∧ s.sent (.command line) = []) ∧
      (((handler c).on s).1 = .ok () →
        ∃ messages, s.Replies c messages ∧
          s.sent (.command line) = if s.outbox.isOpen then messages else []) := by
  refine ⟨fun e hparse => ?_, fun c hparse hget => ?_, fun c handler hparse hget => ⟨?_, ?_⟩⟩
  · apply silent_of_error (e := e)
    rw [executeLine, hparse]
    rfl
  · apply silent_of_error (e := .unknownCommand c.name)
    rw [executeLine_of_parse s hparse, execute, obey, hget]
    rfl
  · intro e herror
    apply silent_of_error (e := e)
    rw [executeLine_of_handler s hparse hget, herror]
    rfl
  · intro hok
    have hrun := executeLine_of_handler s hparse hget
    rw [hok, executeLine_of_parse s hparse] at hrun
    exact replies_of_ok hparse hrun

end Session

end ScriptDebugger
