import ScriptDebugger.Proofs.Session.Contexts

namespace ScriptDebugger

namespace Session

/-- What messages sent since a session say about runs. -/
def notices (s after : Session) : List RunStatus :=
  (after.outbox.queue.drop s.outbox.queue.length).filterMap Message.notice?

theorem notices_of_same {s after : Session} (h : after.outbox = s.outbox) :
    notices s after = [] := by
  rw [notices, h, List.drop_length]
  rfl

theorem filterMap_notice?_of_reported {messages : List Message} (h : reported messages = []) :
    messages.filterMap Message.notice? = [] := by
  rw [List.filterMap_eq_nil_iff]
  intro m hmem
  have hnone := List.filterMap_eq_nil_iff.mp h m hmem
  cases m with
  | status outcome transaction reason => cases hnone
  | init _ _ | answer _ | output _ _ => rfl

theorem notices_of_sendAll {s after : Session} {messages : List Message}
    (h : after.outbox.queue = (s.outbox.sendAll messages).queue) :
    notices s after =
      if s.outbox.isOpen then messages.filterMap Message.notice? else [] := by
  rw [notices, h, Outbox.drop_queue_sendAll]
  split
  · rfl
  · rfl

theorem notices_of_reports {s after : Session} {outcome : RunStatus} {reason : Option String}
    {more : List Message} (hmore : reported more = [])
    (h : after.outbox.queue = (s.outbox.sendAll (s.reports outcome reason ++ more)).queue) :
    notices s after =
      if s.transaction.isSome && s.outbox.isOpen then [outcome] else [] := by
  rw [notices_of_sendAll h, List.filterMap_append, filterMap_notice?_reports,
    filterMap_notice?_of_reported hmore]
  cases s.transaction with
  | none =>
      cases s.outbox.isOpen with
      | false => rfl
      | true => rfl
  | some id => simp

theorem notices_of_report {s after : Session} (outcome : RunStatus) (reason : Option String)
    (h : after.outbox = s.outbox.sendAll (s.reports outcome reason)) :
    notices s after =
      if s.transaction.isSome && s.outbox.isOpen then [outcome] else [] := by
  have hnone : reported [] = [] := rfl
  have hqueue : after.outbox.queue =
      (s.outbox.sendAll (s.reports outcome reason ++ [])).queue := by
    rw [h, List.append_nil]
  exact notices_of_reports hnone hqueue

namespace Traffic

variable {s after : Session} {operation : Operation}

/-- An operation says one thing about a run at most, and then to the pending transaction. -/
theorem notices (h : Traffic s operation after) :
    Session.notices s after = [] ∨
      ∃ outcome, Session.notices s after = [outcome] ∧ s.transaction.isSome = true ∧
        (outcome = .break → operation.mayBreak = true) := by
  cases h with
  | kept messages hmessages _ h =>
      obtain ⟨houtbox, _⟩ := channel_eq_iff.mp h
      apply Or.inl
      rw [notices_of_sendAll (congrArg Outbox.queue houtbox),
        filterMap_notice?_of_reported hmessages, ite_self]
  | released outcome reason next more hmore _ hbreak h =>
      obtain ⟨houtbox, _⟩ := channel_eq_iff.mp h
      rw [notices_of_reports hmore (congrArg Outbox.queue houtbox)]
      split
      · rename_i htold
        exact .inr ⟨outcome, rfl, (Bool.and_eq_true_iff.mp htold).1, hbreak⟩
      · exact .inl rfl
  | ended more hmore _ h =>
      obtain ⟨houtbox, _⟩ := channel_eq_iff.mp h
      have hsame : after.outbox.queue =
          (s.outbox.sendAll (s.reports .stopped none ++ more)).queue := by
        rw [houtbox, Outbox.queue_close]
      rw [notices_of_reports hmore hsame]
      split
      · rename_i htold
        exact .inr ⟨.stopped, rfl, (Bool.and_eq_true_iff.mp htold).1, nofun⟩
      · exact .inl rfl
  | cut _ h =>
      obtain ⟨houtbox, _⟩ := channel_eq_iff.mp h
      apply Or.inl
      rw [Session.notices, houtbox, Outbox.queue_close, List.drop_length]
      rfl
  | dropped _ h =>
      obtain ⟨houtbox, _⟩ := channel_eq_iff.mp h
      apply Or.inl
      rw [Session.notices, houtbox, List.drop_length]
      rfl
  | collected _ h =>
      obtain ⟨houtbox, _⟩ := channel_eq_iff.mp h
      apply Or.inl
      rw [Session.notices, houtbox, List.drop_nil]
      rfl

theorem transaction_none (h : Traffic s operation after) (hnone : s.transaction = none)
    (hadopts : operation.adopts = []) : after.transaction = none := by
  cases h with
  | kept _ _ _ h | dropped _ h | collected _ h =>
      exact (channel_eq_iff.mp h).2.1.trans hnone
  | released _ _ next _ _ hnext _ h =>
      rw [hadopts] at hnext
      exact (channel_eq_iff.mp h).2.1.trans (Option.toList_eq_nil_iff.mp hnext.symm)
  | ended _ _ _ h | cut _ h => exact (channel_eq_iff.mp h).2.1

end Traffic

inductive Outcome (s : Session) : Progress × Session → Prop where
  | returned {outcome : Except Error Unit} {after : Session} (hnotices : notices s after = [])
      (hsuspended : ∀ {id c}, after.context? id = some c → c.isSuspended = true →
        ∃ before, s.context? id = some before ∧ before.isSuspended = true) :
      Outcome s (.returned outcome, after)
  | waiting (c : Context) {leaving : Bool} {after : Session}
      (hnotices : notices s after = [.break]) (hcurrent : after.current? = some c)
      (hsuspended : c.isSuspended = true)
      (hothers : ∀ {id other}, id ≠ c.id → after.context? id = some other →
        s.context? id = some other)
      (htransaction : after.transaction = none) :
      Outcome s (.waiting (.resumption c.id leaving), after)

theorem Outcome.notices_eq {s : Session} {result : Progress × Session} (h : Outcome s result) :
    notices s result.2 = if result.1.wait?.isSome then [.break] else [] := by
  cases h with
  | returned hnotices _ => exact hnotices
  | waiting _ hnotices _ _ _ _ => exact hnotices

theorem suspended_of_set {s after : Session} {c next : Context}
    (hget : s.context? c.id = some c) (hmoved : c.Moved next)
    (hset : after.contexts = s.contexts.set next.id next) {id : ContextId} {other : Context}
    (hother : after.context? id = some other)
    (hsuspended : other.isSuspended = true) :
    ∃ before, s.context? id = some before ∧ before.isSuspended = true := by
  rw [context?_of_set hset] at hother
  split at hother
  · rename_i hid
    cases hother
    rw [← hid, hmoved.id]
    exact ⟨c, hget, hmoved.suspended hsuspended⟩
  · exact ⟨other, hother, hsuspended⟩

theorem Grounded.current?_eq_some {s : Session} (h : s.Grounded) {c : Context}
    (hcurrent : s.current? = some c) : s.active.head? = some c.id ∧ s.context? c.id = some c := by
  obtain ⟨id, hhead, hget⟩ := current?_eq_some_iff.mp hcurrent
  rw [h.id_eq hget]
  exact ⟨hhead, hget⟩

theorem HookEffect.outcome {s : Session} {c : Context} {event : Hook} {result : Progress × Session}
    (h : HookEffect s c event result) (hs : s.Grounded) (hopen : s.closed = false)
    (hcurrent : s.current? = some c) : Outcome s result := by
  obtain ⟨hhead, hget⟩ := hs.current?_eq_some hcurrent
  cases h with
  | passed hcontexts =>
      refine .returned (notices_of_same rfl) ?_
      intro id other hother hsuspended
      rcases hcontexts with rfl | ⟨next, hmoved, rfl⟩
      · exact ⟨other, hother, hsuspended⟩
      · exact suspended_of_set hget hmoved rfl hother hsuspended
  | @asked registry entryStep lastWrites contexts hcontexts next hmoved leaving reason _ =>
      have hstopped : next.stopped = false := hmoved.stopped.trans (hs.stopped_eq hopen hget)
      rw [suspend_eq _ hstopped]
      split
      · rename_i htold
        have hcontext : ∀ id, Table.get? (contexts.set next.id next.halt) id =
            if next.id = id then some next.halt else s.context? id := by
          intro id
          have hset : contexts.set next.id next.halt = s.contexts.set next.id next.halt :=
            set_of_moved hcontexts next.halt hmoved.id
          rw [hset]
          exact Table.get?_set _ _ _ _
        refine .waiting next.halt
          ((notices_of_report .break (some reason) rfl).trans (if_pos htold)) ?_ rfl ?_ rfl
        · refine current?_eq_some_iff.mpr ⟨c.id, hhead, (hcontext c.id).trans ?_⟩
          rw [if_pos hmoved.id]
        · intro id other hne hother
          exact ((hcontext id).trans (if_neg (Ne.symm hne))).symm.trans hother
      · rename_i htold
        refine .returned ((notices_of_report .break (some reason) rfl).trans (if_neg htold)) ?_
        intro id other hother hsuspended
        have hlast := (hmoved.trans (.released next)).trans (.popIf next.released leaving)
        have hset := set_of_moved hcontexts _ hlast.id
        exact suspended_of_set hget hlast hset hother hsuspended

theorem hook_outcome {s : Session} (hs : s.Grounded) (event : Hook) :
    Outcome s (s.hook event) := by
  rcases s.hook_effect event with ⟨_, h⟩ | ⟨_, _, h⟩ | ⟨hopen, c, hcurrent, heffect⟩
  · rw [h]
    exact .returned (notices_of_same rfl) fun hget hsuspended => ⟨_, hget, hsuspended⟩
  · rw [h]
    exact .returned (notices_of_same rfl) fun hget hsuspended => ⟨_, hget, hsuspended⟩
  · exact heffect.outcome hs hopen hcurrent

end Session

end ScriptDebugger
