import ScriptDebugger.Proofs.Session.CommandEffect
import ScriptDebugger.Proofs.Session.Views

/-!
Conservation of transactions.  An operation sends messages that report on no run, or releases the
pending transaction by one report, or ends the session.  So the transactions that were reported
on, in this order, and the pending one are those that were adopted.
-/

namespace ScriptDebugger

namespace Session

def Operation.adopts : Operation → List String
  | .adopt transaction => transaction.toList
  | .command line =>
      match Command.parse line with
      | .ok c => if c.mode?.isSome then c.transaction?.toList else []
      | .error _ => []
  | _ => []

def Operation.mayBreak : Operation → Bool
  | .hook _ | .reportBreak _ => true
  | _ => false

def adoptedBy (operations : List Operation) : List String :=
  operations.flatMap Operation.adopts

/-- The transactions whose runs some messages report on. -/
def reported (messages : List Message) : List String :=
  messages.filterMap Message.reported?

theorem adopts_of_mode?_eq_none {line : String}
    (h : ∀ c, Command.parse line = .ok c → c.mode? = none) :
    (Operation.command line).adopts = [] := by
  cases hparse : Command.parse line with
  | error e => simp [Operation.adopts, hparse]
  | ok c => simp [Operation.adopts, hparse, h c hparse]

theorem adopts_of_mode? {line : String} {c : Command} {mode : StepMode}
    (hparse : Command.parse line = .ok c) (hmode : c.mode? = some mode) :
    (Operation.command line).adopts = c.transaction?.toList := by
  simp [Operation.adopts, hparse, hmode]

theorem adopts_of_parse {line : String} {c : Command}
    (hparse : Command.parse line = .ok c) (hmode : c.mode? = none) :
    (Operation.command line).adopts = [] := by
  simp [Operation.adopts, hparse, hmode]

def channel (s : Session) : Outbox × Option String × Bool :=
  (s.outbox, s.transaction, s.closed)

theorem channel_eq_iff {s : Session} {outbox : Outbox} {transaction : Option String}
    {closed : Bool} :
    s.channel = (outbox, transaction, closed) ↔
      s.outbox = outbox ∧ s.transaction = transaction ∧ s.closed = closed := by
  simp [channel]

theorem channel_hidesContexts : HidesContexts channel := fun _ _ => rfl

theorem channel_hidesStart : HidesStart channel := fun _ _ _ => rfl

theorem channel_suspend (s : Session) (c : Context) (leaving : Bool) (reason : String) :
    (s.suspend c leaving reason).2.channel = s.channel ∨
      (s.suspend c leaving reason).2.channel = (s.release .break (some reason) none).channel := by
  cases hstopped : c.stopped with
  | true =>
      apply Or.inl
      rw [s.suspend_of_stopped hstopped]
      rfl
  | false =>
      apply Or.inr
      rw [suspend_eq s hstopped]
      split
      · rfl
      · rfl

theorem channel_close {s : Session} (h : s.closed = false) :
    s.close.channel = (s.outbox.close, none, true) := by
  simp [close, h, channel]

theorem channel_answer (s : Session) (e : Element) :
    (s.answer e).channel = (s.outbox.sendAll [.answer e], s.transaction, s.closed) := rfl

/-- What an operation does to the queue and to the pending transaction. -/
inductive Traffic (s : Session) (operation : Operation) (after : Session) : Prop where
  | kept (messages : List Message) (hmessages : reported messages = [])
      (hadopts : operation.adopts = [])
      (h : after.channel = (s.outbox.sendAll messages, s.transaction, s.closed))
  | released (outcome : RunStatus) (reason next : Option String) (more : List Message)
      (hmore : reported more = []) (hadopts : operation.adopts = next.toList)
      (hbreak : outcome = .break → operation.mayBreak = true)
      (h : after.channel =
        (s.outbox.sendAll (s.reports outcome reason ++ more), next, s.closed))
  | ended (more : List Message) (hmore : reported more = []) (hadopts : operation.adopts = [])
      (h : after.channel =
        ((s.outbox.sendAll (s.reports .stopped none ++ more)).close, none, true))
  | cut (hoperation : operation = .close)
      (h : after.channel = (s.outbox.close, none, true))
  | dropped (hadopts : operation.adopts = [])
      (h : after.channel = ({ s.outbox with clientPresent := false }, s.transaction, s.closed))
  | collected (hadopts : operation.adopts = [])
      (h : after.channel = ({ s.outbox with queue := [] }, s.transaction, s.closed))

namespace Traffic

variable {s after : Session} {operation : Operation}

theorem ofSame (hadopts : operation.adopts = []) (h : after.channel = s.channel) :
    Traffic s operation after :=
  .kept [] rfl hadopts h

theorem ofRelease (outcome : RunStatus) (reason next : Option String)
    (hadopts : operation.adopts = next.toList)
    (hbreak : outcome = .break → operation.mayBreak = true)
    (h : after.channel = (s.release outcome reason next).channel) :
    Traffic s operation after := by
  refine .released outcome reason next [] rfl hadopts hbreak (h.trans ?_)
  rw [List.append_nil]
  rfl

theorem ofEnd (more : List Message) (hmore : reported more = []) (hadopts : operation.adopts = [])
    {told : Session}
    (htold : told.channel =
      (s.outbox.sendAll (s.reports .stopped none ++ more), none, s.closed)) :
    Traffic s operation told.close := by
  obtain ⟨houtbox, _, hsame⟩ := channel_eq_iff.mp htold
  cases hclosed : s.closed with
  | true =>
      rw [close_of_closed (hsame.trans hclosed)]
      exact .released .stopped none none more hmore hadopts nofun htold
  | false =>
      apply Traffic.ended more hmore hadopts
      rw [channel_close (hsame.trans hclosed), houtbox]

theorem command (line : String) : Traffic s (.command line) (s.dispatch line) := by
  rcases s.dispatch_effect line with ⟨h, hmode⟩ | ⟨c, hparse, heffect⟩
  · rw [h]
    exact .ofSame (adopts_of_mode?_eq_none hmode) rfl
  · generalize s.dispatch line = result at heffect
    cases heffect with
    | resumed hmode =>
        refine .ofRelease .running none _ (adopts_of_mode? hparse hmode) nofun ?_
        rw [channel_hidesContexts.resume channel_hidesStart, adopt_eq]
    | @interrupted e hmode _ =>
        apply Traffic.kept [.answer e] rfl (adopts_of_parse hparse hmode)
        rw [channel_answer]
        exact congrArg (fun k => (k.1.sendAll [.answer e], k.2)) (channel_hidesContexts.requestBreak s)
    | @stopped e hmode =>
        apply Traffic.ofEnd [.answer e] rfl (adopts_of_parse hparse hmode)
        rw [channel_answer, reportEnd_eq, Outbox.sendAll_append]
        rfl
    | @answered _ _ _ _ e hmode _ _ => exact .kept [.answer e] rfl (adopts_of_parse hparse hmode) rfl

theorem hook (event : Hook) : Traffic s (.hook event) (s.hook event).2 := by
  rcases s.hook_effect event with ⟨_, h⟩ | ⟨_, _, h⟩ | ⟨_, c, _, heffect⟩
  · rw [h]
    exact .ofSame rfl rfl
  · rw [h]
    exact .ofSame rfl rfl
  · generalize s.hook event = result at heffect
    cases heffect with
    | passed _ => exact .ofSame rfl rfl
    | asked _ _ leaving reason =>
        rcases channel_suspend _ _ leaving reason with h | h
        · exact .ofSame rfl h
        · exact .ofRelease .break (some reason) none rfl (fun _ => rfl) h

end Traffic

theorem after_traffic (s : Session) (operation : Operation) :
    Traffic s operation (s.after operation) := by
  cases operation with
  | command line => exact .command line
  | hook event => exact .hook event
  | awaitStart => exact .ofSame rfl (channel_hidesContexts.settle s .start)
  | proceed wait => exact .ofSame rfl (channel_hidesContexts.settle s wait)
  | enterContext =>
      apply Traffic.ofSame rfl
      simp only [after, perform, enterContext]
      split
      · rename_i h
        split at h
        · cases h
        · cases h
          rfl
      · rfl
  | exitContext id => exact .ofSame rfl rfl
  | adopt transaction =>
      exact .ofRelease .running none transaction rfl nofun (congrArg channel (s.adopt_eq _))
  | resume mode => exact .ofSame rfl (channel_hidesContexts.resume channel_hidesStart s mode)
  | requestBreak => exact .ofSame rfl (channel_hidesContexts.requestBreak s)
  | reportBreak reason =>
      apply Traffic.ofRelease .break (some reason) none rfl (fun _ => rfl)
      rw [after, perform, reportBreak_eq]
      rfl
  | reportEnd => exact .ofRelease .stopped none none rfl nofun (congrArg channel s.reportEnd_eq)
  | finish =>
      apply Traffic.ofEnd [] rfl rfl
      rw [reportEnd_eq, List.append_nil]
      rfl
  | close =>
      cases hclosed : s.closed with
      | true => exact .ofSame rfl (congrArg channel (close_of_closed hclosed))
      | false => exact .cut rfl (channel_close hclosed)
  | markInitialized => exact .ofSame rfl rfl
  | announce fileUri => exact .kept [.init s.settings fileUri] rfl rfl rfl
  | write stream text =>
      rcases s.write_effect stream text with h | h
      · exact .ofSame rfl (congrArg channel h)
      · exact .kept [.output stream text] rfl rfl (congrArg channel h)
  | addListener tag => exact .ofSame rfl rfl
  | removeListener id => exact .ofSame rfl rfl
  | breakpoints operation => exact .ofSame rfl rfl
  | configure settings => exact .ofSame rfl rfl
  | redirect streams => exact .ofSame rfl rfl
  | mutate heap => exact .ofSame rfl rfl
  | dropClient => exact .dropped rfl rfl
  | collect => exact .collected rfl rfl

namespace Traffic

variable {s after : Session} {operation : Operation}

theorem isOpen (h : Traffic s operation after) (hopen : after.outbox.isOpen = true) :
    s.outbox.isOpen = true ∧ after.closed = s.closed := by
  cases h with
  | kept messages _ _ h | released _ _ _ messages _ _ _ h =>
      obtain ⟨houtbox, _, hclosed⟩ := channel_eq_iff.mp h
      rw [houtbox, Outbox.isOpen_sendAll] at hopen
      exact ⟨hopen, hclosed⟩
  | ended more _ _ h =>
      obtain ⟨houtbox, _⟩ := channel_eq_iff.mp h
      rw [houtbox, Outbox.isOpen_close] at hopen
      cases hopen
  | cut _ h =>
      obtain ⟨houtbox, _⟩ := channel_eq_iff.mp h
      rw [houtbox, Outbox.isOpen_close] at hopen
      cases hopen
  | dropped _ h =>
      obtain ⟨houtbox, _⟩ := channel_eq_iff.mp h
      rw [houtbox] at hopen
      simp [Outbox.isOpen] at hopen
  | collected _ h =>
      obtain ⟨houtbox, _, hclosed⟩ := channel_eq_iff.mp h
      rw [houtbox] at hopen
      exact ⟨hopen, hclosed⟩

theorem closed (h : Traffic s operation after) (hclosed : s.closed = true) :
    after.closed = true := by
  cases h with
  | kept _ _ _ h | released _ _ _ _ _ _ _ h | dropped _ h | collected _ h =>
      obtain ⟨_, _, hsame⟩ := channel_eq_iff.mp h
      exact hsame.trans hclosed
  | ended _ _ _ h | cut _ h => exact (channel_eq_iff.mp h).2.2

theorem transaction_eq_none (h : Traffic s operation after) (hbefore : s.closed = false)
    (hclosed : after.closed = true) : after.transaction = none := by
  cases h with
  | kept _ _ _ h | released _ _ _ _ _ _ _ h | dropped _ h | collected _ h =>
      obtain ⟨_, _, hsame⟩ := channel_eq_iff.mp h
      rw [hclosed, hbefore] at hsame
      cases hsame
  | ended _ _ _ h | cut _ h => exact (channel_eq_iff.mp h).2.1

/-- What was reported and what is pending then is what was pending before and what was adopted.
Only closing the session drops a transaction. -/
theorem balance (h : Traffic s operation after) (hopen : s.outbox.isOpen = true) :
    ∃ dropped,
      reported (after.outbox.queue.drop s.outbox.queue.length) ++ dropped ++
          after.transaction.toList = s.transaction.toList ++ operation.adopts ∧
        (dropped = [] ∨
          operation = .close ∧ after.outbox.isOpen = false ∧
            dropped = s.transaction.toList) := by
  have hsent : ∀ messages,
      (s.outbox.sendAll messages).queue.drop s.outbox.queue.length = messages := by
    intro messages
    rw [s.outbox.drop_queue_sendAll messages, if_pos hopen]
  have hreports : ∀ outcome reason more, reported more = [] →
      reported (s.reports outcome reason ++ more) = s.transaction.toList := by
    intro outcome reason more hmore
    rw [reported, List.filterMap_append, filterMap_reported?_reports]
    exact (congrArg _ hmore).trans (List.append_nil _)
  have hnone : reported [] = [] := rfl
  cases h with
  | kept messages hmessages hadopts h =>
      obtain ⟨houtbox, htransaction, _⟩ := channel_eq_iff.mp h
      refine ⟨[], ?_, .inl rfl⟩
      rw [houtbox, hsent, hmessages, htransaction, hadopts, List.append_nil, List.append_nil,
        List.nil_append]
  | released outcome reason next more hmore hadopts _ h =>
      obtain ⟨houtbox, htransaction, _⟩ := channel_eq_iff.mp h
      refine ⟨[], ?_, .inl rfl⟩
      rw [houtbox, hsent, hreports outcome reason more hmore, htransaction, hadopts,
        List.append_nil]
  | ended more hmore hadopts h =>
      obtain ⟨houtbox, htransaction, _⟩ := channel_eq_iff.mp h
      refine ⟨[], ?_, .inl rfl⟩
      rw [houtbox, Outbox.queue_close, hsent, hreports .stopped none more hmore, htransaction,
        hadopts, Option.toList_none, List.append_nil, List.append_nil]
  | cut hoperation h =>
      obtain ⟨houtbox, htransaction, _⟩ := channel_eq_iff.mp h
      have hafter : after.outbox.isOpen = false := by rw [houtbox, Outbox.isOpen_close]
      refine ⟨s.transaction.toList, ?_, .inr ⟨hoperation, hafter, rfl⟩⟩
      rw [houtbox, Outbox.queue_close, List.drop_length, htransaction, hoperation, hnone,
        List.nil_append, Option.toList_none]
      rfl
  | dropped hadopts h =>
      obtain ⟨houtbox, htransaction, _⟩ := channel_eq_iff.mp h
      refine ⟨[], ?_, .inl rfl⟩
      rw [houtbox, List.drop_length, htransaction, hadopts, hnone, List.append_nil,
        List.append_nil, List.nil_append]
  | collected hadopts h =>
      obtain ⟨houtbox, htransaction, _⟩ := channel_eq_iff.mp h
      refine ⟨[], ?_, .inl rfl⟩
      rw [houtbox, List.drop_nil, htransaction, hadopts, hnone, List.append_nil, List.append_nil,
        List.nil_append]

end Traffic

theorem closed_of_isOpen {s : Session} (hs : s.outbox.isOpen = true → s.closed = false)
    (operations : List Operation) (hopen : (s.run operations).outbox.isOpen = true) :
    (s.run operations).closed = false := by
  refine run_induction (motive := fun s => s.outbox.isOpen = true → s.closed = false) hs ?_
    operations hopen
  intro s ih operation hafter
  obtain ⟨hbefore, hsame⟩ := (s.after_traffic operation).isOpen hafter
  exact hsame.trans (ih hbefore)

theorem isOpen_of_run {s : Session} (operations : List Operation)
    (hopen : (s.run operations).outbox.isOpen = true) : s.outbox.isOpen = true := by
  induction operations generalizing s with
  | nil => exact hopen
  | cons operation rest ih => exact ((s.after_traffic operation).isOpen (ih hopen)).1

theorem reported_append (first second : List Message) :
    reported (first ++ second) = reported first ++ reported second :=
  List.filterMap_append

theorem adoptedBy_append (first second : List Operation) :
    adoptedBy (first ++ second) = adoptedBy first ++ adoptedBy second :=
  List.flatMap_append

theorem run_balance {s : Session} (operations : List Operation)
    (hopen : (s.run operations).outbox.isOpen = true) :
    reported (s.sentBy operations) ++ (s.run operations).transaction.toList =
      s.transaction.toList ++ adoptedBy operations := by
  induction operations generalizing s with
  | nil => exact (List.append_nil _).symm
  | cons operation rest ih =>
      -- A queue that is open in the end was open before every step, so no step is a cut.
      have hafter : (s.after operation).outbox.isOpen = true := isOpen_of_run rest hopen
      have htraffic := s.after_traffic operation
      obtain ⟨dropped, hbalance, hdropped⟩ := htraffic.balance (htraffic.isOpen hafter).1
      rcases hdropped with rfl | ⟨_, hcut, _⟩
      case inr =>
        rw [hcut] at hafter
        cases hafter
      rw [List.append_nil] at hbalance
      calc
        reported (s.sentBy (operation :: rest)) ++ (s.run (operation :: rest)).transaction.toList
            = reported (s.sent operation) ++
                (reported ((s.after operation).sentBy rest) ++
                  ((s.after operation).run rest).transaction.toList) := by
              rw [sentBy, reported_append, List.append_assoc, run_cons]
        _ = reported (s.sent operation) ++
              ((s.after operation).transaction.toList ++ adoptedBy rest) := by rw [ih hopen]
        _ = s.transaction.toList ++ operation.adopts ++ adoptedBy rest := by
              rw [← List.append_assoc]
              exact congrArg (· ++ adoptedBy rest) hbalance
        _ = s.transaction.toList ++ adoptedBy (operation :: rest) := by
              rw [List.append_assoc]
              rfl

/-- Up to the operation that closes a session every transaction is reported on once, in the order
of adoption, but for the pending one and one that was pending when the session was just closed. -/
theorem run_opened_conserves (settings : Settings) (host : Host) (heap : Heap)
    (operations : List Operation)
    (hopen : ((opened settings host heap).run operations).outbox.isOpen = true)
    (last : Operation) :
    let s := opened settings host heap
    let all := operations ++ [last]
    (s.run operations).closed = false ∧
      reported (s.sentBy operations) ++ (s.run operations).transaction.toList =
        adoptedBy operations ∧
      ((s.run all).closed = true → (s.run all).transaction = none) ∧
      ∃ dropped,
        reported (s.sentBy all) ++ dropped ++ (s.run all).transaction.toList = adoptedBy all ∧
          (dropped = [] ∨
            last = .close ∧ dropped = (s.run operations).transaction.toList) := by
  intro s all
  have hclosed : (s.run operations).closed = false := closed_of_isOpen (fun _ => rfl) _ hopen
  have hbalance := run_balance operations hopen
  have htraffic := (s.run operations).after_traffic last
  have hrun : s.run all = (s.run operations).after last := run_append s operations [last]
  obtain ⟨dropped, hlast, hdropped⟩ := htraffic.balance hopen
  refine ⟨hclosed, hbalance, ?_, dropped, ?_, ?_⟩
  · intro hend
    rw [hrun] at hend ⊢
    exact htraffic.transaction_eq_none hclosed hend
  · calc
      reported (s.sentBy all) ++ dropped ++ (s.run all).transaction.toList
          = reported (s.sentBy operations) ++
              (reported ((s.run operations).sent last) ++ dropped ++
                ((s.run operations).after last).transaction.toList) := by
            rw [hrun, sentBy_append, reported_append]
            simp only [sentBy, List.append_nil, List.append_assoc]
      _ = reported (s.sentBy operations) ++
            ((s.run operations).transaction.toList ++ last.adopts) := congrArg _ hlast
      _ = adoptedBy operations ++ last.adopts := by
            rw [← List.append_assoc]
            exact congrArg (· ++ last.adopts) hbalance
      _ = adoptedBy all := by
            rw [adoptedBy_append]
            exact congrArg _ (List.append_nil _).symm
  · rcases hdropped with hnone | ⟨hcut, _, hpending⟩
    · exact .inl hnone
    · exact .inr ⟨hcut, hpending⟩

theorem run_opened_conserves_stepping :
    let s := opened {} (Host.ofTable none []) {}
    let operations : List Operation :=
      [.enterContext, .command "step_into -i 1", .hook (.line "/a.js" 1), .command "run -i 2"]
    (s.run operations).outbox.isOpen = true ∧
      reported (s.sentBy operations) ++ (s.run operations).transaction.toList = ["1", "2"] ∧
        (s.run (operations ++ [.close])).transaction = none := by
  intro s operations
  have hopen : (s.run operations).outbox.isOpen = true := by decide +kernel
  obtain ⟨_, hbalance, hclosed, _⟩ :=
    run_opened_conserves {} (Host.ofTable none []) {} operations hopen .close
  exact ⟨hopen, hbalance.trans (by decide +kernel), hclosed (by decide +kernel)⟩

end Session

end ScriptDebugger
