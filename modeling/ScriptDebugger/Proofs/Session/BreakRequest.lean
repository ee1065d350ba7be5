import ScriptDebugger.Proofs.Session.Replies
import ScriptDebugger.Proofs.Session.Stepping
import ScriptDebugger.Proofs.Session.Verdict

namespace ScriptDebugger

namespace Session

theorem Numbered.run {s : Session} {operations : List Operation} (h : s.Numbered)
    (hs : s.Grounded) (hopen : (s.run operations).closed = false) :
    (s.run operations).Numbered := by
  induction operations generalizing s with
  | nil => exact h
  | cons operation rest ih =>
      have hafter : (s.after operation).closed = false := closed_of_run hopen
      exact ih (h.after hs hafter).1 (hs.after operation) hopen

theorem Numbered.of_reached {s : Session} (hs : s.Reached) (hopen : s.closed = false) :
    s.Numbered := by
  obtain ⟨settings, host, heap, operations, rfl⟩ := hs
  have hstart : (opened settings host heap).Numbered := rfl
  exact hstart.run (.opened settings host heap) hopen

theorem dispatch_of_break_succeeds {s : Session} {line : String} {command : Command}
    (hparse : Command.parse line = .ok command) (hname : command.name = "break")
    (hsuccess : s.succeeds line = true) :
    s.outbox.isOpen = true ∧ ∃ c e, s.current? = some c ∧
      s.dispatch line = (s.setContext c.requestBreak).answer e := by
  have hdispatch : s.dispatch line =
      s.requestBreak.2.answer (command.answer.attr "success" (flagText s.requestBreak.1)) := by
    refine dispatch_of_parse hparse ?_
    rw [execute, obey_of_name hname rfl]
    rfl
  have houtbox := (channel_eq_iff.mp (channel_hidesContexts.requestBreak s)).1
  rw [succeeds_of_dispatch hdispatch houtbox, attribute?_success_attr, Bool.and_eq_true_iff]
    at hsuccess
  refine ⟨hsuccess.1, ?_⟩
  rw [requestBreak] at hsuccess hdispatch
  cases hcurrent : s.current? with
  | none =>
      rw [hcurrent] at hsuccess
      cases hsuccess.2
  | some c =>
      rw [hcurrent] at hdispatch
      exact ⟨c, _, rfl, hdispatch⟩

namespace Scene

variable {x : Scene} {operation : Operation} {id : ContextId}

def lineOf (id : ContextId) (x : Scene) : Operation → Bool
  | .hook (.line _ _) => x.session.current?.any fun c => c.id == id
  | _ => false

/-- The debuggee runs, a break is asked for in a context, and the client waits to hear of it. -/
structure Interrupted (x : Scene) (id : ContextId) : Prop where
  running : x.waiting = none
  grounded : x.session.Grounded
  numbered : x.session.Numbered
  opened : x.session.closed = false
  pending : x.session.transaction.isSome = true
  heard : x.session.outbox.isOpen = true
  requested : ∃ c, x.session.context? id = some c ∧ c.breakRequested = true

namespace Interrupted

theorem paused_of_lineOf (h : x.Interrupted id) (hline : lineOf id x operation = true) :
    ∃ last : Context, last.id = id ∧ (x.after operation).Paused last false := by
  unfold lineOf at hline
  split at hline
  · rename_i file line
    obtain ⟨c, hcurrent, hid⟩ := (Option.any_eq_true _ _).mp hline
    obtain rfl := eq_of_beq hid
    obtain ⟨hhead, hget⟩ := h.grounded.current?_eq_some hcurrent
    obtain ⟨_, hmine, hrequested⟩ := h.requested
    cases hget.symm.trans hmine
    rcases hook_goes_or_asks h.opened hcurrent (.line file line) with hgoes | hasks
    · cases (hgoes.breakRequested rfl).symm.trans hrequested
    · obtain ⟨next, hid, hsuspended, hwait, hactive, hnext⟩ :=
        hasks.waits (h.grounded.stopped_eq h.opened hget) h.pending h.heard
      refine ⟨next, hid, .of_hook (Prod.ext hwait rfl) ?_ hsuspended⟩
      exact current?_eq_some_iff.mpr ⟨next.id, by rw [hactive, hhead, hid], hnext⟩
  · cases hline

theorem hook (h : x.Interrupted id) {event : Hook} (hgoes : stopsAt x (.hook event) = false) :
    (x.after (.hook event)).Interrupted id := by
  have hrunning : (x.session.hook event).1.wait? = none :=
    Option.not_isSome_iff_eq_none.mp (Bool.eq_false_iff.mp hgoes)
  have hgrounded : (x.session.hook event).2.Grounded := h.grounded.after (.hook event)
  have hnumbered : (x.session.hook event).2.closed = false →
      (x.session.hook event).2.Numbered := by
    intro hopen
    have hafter : (x.session.after (.hook event)).closed = false := hopen
    exact (h.numbered.after h.grounded hafter).1
  have hkept : ∀ after : Session, x.session.hook event = after.pass →
      after.channel = x.session.channel →
      (∃ c, after.context? id = some c ∧ c.breakRequested = true) →
      (x.after (.hook event)).Interrupted id := by
    intro after hafter hchannel hrequested
    obtain ⟨houtbox, htransaction, hclosed⟩ := channel_eq_iff.mp hchannel
    have hsession : (x.after (.hook event)).session = after := congrArg Prod.snd hafter
    rw [hafter] at hgrounded hnumbered
    constructor
    case running => exact hrunning
    case grounded => exact hsession ▸ hgrounded
    case numbered => exact hsession ▸ hnumbered (hclosed.trans h.opened)
    case opened => rw [hsession, hclosed, h.opened]
    case pending => rw [hsession, htransaction, h.pending]
    case heard => rw [hsession, houtbox, h.heard]
    case requested =>
      rw [hsession]
      exact hrequested
  cases hcurrent : x.session.current? with
  | none =>
      refine hkept x.session ?_ rfl h.requested
      rw [Session.hook, h.opened, hcurrent]
      rfl
  | some c =>
      have hget := (h.grounded.current?_eq_some hcurrent).2
      rcases hook_goes_or_asks h.opened hcurrent event with hverdict | hasks
      · generalize hresult : x.session.hook event = result at hverdict
        cases hverdict with
        | mk hcontexts _ _ =>
            refine hkept _ hresult rfl ?_
            rcases hcontexts with ⟨rfl, _⟩ | rfl
            · exact h.requested
            · obtain ⟨mine, hmine, hrequested⟩ := h.requested
              by_cases hid : c.id = id
              · rw [← hid, hget] at hmine
                cases hmine
                refine ⟨{ c with frames := event.framesAfter c }, ?_, hrequested⟩
                rw [context?_of_set rfl, if_pos hid]
              · refine ⟨mine, ?_, hrequested⟩
                rw [context?_of_set rfl, if_neg hid, hmine]
      · obtain ⟨_, _, _, hwait, _⟩ :=
          hasks.waits (h.grounded.stopped_eq h.opened hget) h.pending h.heard
        rw [hwait] at hrunning
        cases hrunning

theorem enterContext (h : x.Interrupted id) : (x.after .enterContext).Interrupted id := by
  have hafter : (x.after .enterContext).session =
      { x.session.setContext { id := x.session.contexts.length + 1 } with
        active := (x.session.contexts.length + 1) :: x.session.active } :=
    after_enterContext h.opened
  have hopen : (x.session.after .enterContext).closed = false :=
    (congrArg Session.closed hafter).trans h.opened
  constructor
  case running => exact h.running
  case grounded => exact h.grounded.after .enterContext
  case numbered => exact (h.numbered.after h.grounded hopen).1
  case opened => exact hopen
  case pending =>
    rw [hafter]
    exact h.pending
  case heard =>
    rw [hafter]
    exact h.heard
  case requested =>
    obtain ⟨c, hget, hrequested⟩ := h.requested
    exact ⟨c, (h.numbered.context?_enterContext h.opened hget).trans hget, hrequested⟩

theorem exitContext (h : x.Interrupted id) (other : ContextId) :
    (x.after (.exitContext other)).Interrupted id where
  running := h.running
  grounded := h.grounded.after (.exitContext other)
  numbered := h.numbered
  opened := h.opened
  pending := h.pending
  heard := h.heard
  requested := h.requested

theorem after (h : x.Interrupted id) (hreport : operation.isReport = true)
    (hgoes : stopsAt x operation = false) : (x.after operation).Interrupted id := by
  cases operation with
  | hook event => exact h.hook hgoes
  | enterContext => exact h.enterContext
  | exitContext other => exact h.exitContext other
  | _ => cases hreport

/-- The first line of the context stops it, unless another report stops the debuggee before. -/
theorem first?_stopsAt (h : x.Interrupted id) {reports : List Operation}
    (hreports : ∀ operation ∈ reports, operation.isReport = true) {n : Nat}
    (hline : x.first? (lineOf id) reports = some n) :
    ∃ m, m ≤ n ∧ x.first? stopsAt reports = some m ∧
      (m = n → ∃ last : Context, last.id = id ∧
        (x.run (reports.take (n + 1))).Paused last false) := by
  induction reports generalizing x n with
  | nil => cases hline
  | cons operation rest ih =>
      obtain ⟨hreport, hrest⟩ := List.forall_mem_cons.mp hreports
      cases hmine : lineOf id x operation with
      | true =>
          rw [first?, if_pos hmine] at hline
          cases hline
          obtain ⟨last, hid, hpaused⟩ := h.paused_of_lineOf hmine
          have hstops : stopsAt x operation = true := by
            rw [stopsAt, hpaused.waiting]
            rfl
          refine ⟨0, Nat.le_refl 0, ?_, fun _ => ⟨last, hid, hpaused⟩⟩
          rw [first?, if_pos hstops]
      | false =>
          simp only [first?, hmine, Bool.false_eq_true, if_false] at hline
          obtain ⟨k, hk, rfl⟩ := Option.map_eq_some_iff.mp hline
          cases hstops : stopsAt x operation with
          | true =>
              refine ⟨0, Nat.zero_le _, ?_, fun heq => (Nat.succ_ne_zero k heq.symm).elim⟩
              rw [first?, if_pos hstops]
          | false =>
              obtain ⟨m, hle, hfirst, hpaused⟩ := ih (h.after hreport hstops) hrest hk
              refine ⟨m + 1, Nat.succ_le_succ hle, ?_, fun heq => hpaused (Nat.succ.inj heq)⟩
              simp only [first?, hstops, Bool.false_eq_true, if_false, hfirst, Option.map_some]

end Interrupted

end Scene

/-- A break that is answered as a success stops the debuggee at the next line of the context that
was the current one, whatever other contexts are entered and left before, unless something else
stops it earlier. -/
theorem break_stops_next_line {s : Session} (hs : s.Reached) (hopen : s.closed = false)
    {line : String} {command : Command} (hparse : Command.parse line = .ok command)
    (hname : command.name = "break") (hsuccess : s.succeeds line = true)
    (hpending : s.transaction.isSome = true) :
    ∃ c, s.current? = some c ∧
      ∀ reports : List Operation, (∀ operation ∈ reports, operation.isReport = true) →
        let y : Scene := { session := s.after (.command line) }
        ∀ n, y.first? (Scene.lineOf c.id) reports = some n →
          ∃ m, m ≤ n ∧ y.first? Scene.stopsAt reports = some m ∧
            (m = n → ∃ last : Context, last.id = c.id ∧
              (y.run (reports.take (n + 1))).Paused last false) := by
  obtain ⟨hheard, c, e, hcurrent, hdispatch⟩ := dispatch_of_break_succeeds hparse hname hsuccess
  refine ⟨c, hcurrent, ?_⟩
  intro reports hreports y n hline
  have hgrounded := Grounded.of_reached hs
  have hsession : y.session = (s.setContext c.requestBreak).answer e := hdispatch
  have hinterrupted : y.Interrupted c.id := by
    constructor
    case running => rfl
    case grounded => exact hgrounded.after (.command line)
    case numbered =>
      have hafter : (s.after (.command line)).closed = false :=
        (congrArg closed hsession).trans hopen
      exact ((Numbered.of_reached hs hopen).after hgrounded hafter).1
    case opened =>
      rw [hsession]
      exact hopen
    case pending =>
      rw [hsession]
      exact hpending
    case heard =>
      rw [hsession]
      exact (s.outbox.isOpen_sendAll [.answer e]).trans hheard
    case requested =>
      refine ⟨c.requestBreak, ?_, rfl⟩
      rw [hsession]
      exact context?_setContext_self s c.requestBreak
  exact hinterrupted.first?_stopsAt hreports hline

theorem break_stops_next_line_after_nested :
    let s := (opened {} (Host.ofTable none []) {}).run [.enterContext, .command "run -i 1"]
    let y : Scene := { session := s.after (.command "break -i 2") }
    let reports : List Operation :=
      [.enterContext, .hook (.line "/b.js" 1), .exitContext 2, .hook (.line "/a.js" 1)]
    s.Reached ∧ s.closed = false ∧ s.succeeds "break -i 2" = true ∧
      s.transaction.isSome = true ∧ y.first? (Scene.lineOf 1) reports = some 3 ∧
      ∃ m, m ≤ 3 ∧ y.first? Scene.stopsAt reports = some m := by
  intro s y reports
  have hs : s.Reached := ⟨{}, _, _, _, rfl⟩
  have hparse : Command.parse "break -i 2" = .ok { name := "break", options := [("i", "2")] } :=
    Command.parse_eq_ok (by decide +kernel)
  have hsuccess : s.succeeds "break -i 2" = true := by decide +kernel
  have hline : y.first? (Scene.lineOf 1) reports = some 3 := by decide +kernel
  obtain ⟨c, hcurrent, hstops⟩ :=
    break_stops_next_line hs (by decide +kernel) hparse rfl hsuccess (by decide +kernel)
  have hid : c.id = 1 := by
    have hfirst : s.current?.map Context.id = some 1 := by decide +kernel
    rw [hcurrent] at hfirst
    exact Option.some.inj hfirst
  obtain ⟨m, hle, hfirst, _⟩ := hstops reports (by decide) 3 (hid.symm ▸ hline)
  exact ⟨hs, by decide +kernel, hsuccess, by decide +kernel, hline, m, hle, hfirst⟩

/-- The next line of all does not stop if it is one of another context: of one that was entered
after the request, or of the one below after the context was left. -/
theorem break_passes_lines_of_others :
    let s := (opened {} (Host.ofTable none []) {}).run [.enterContext, .command "run -i 1"]
    let t := s.after .enterContext
    s.closed = false ∧ s.succeeds "break -i 2" = true ∧ s.transaction.isSome = true ∧
      Scene.first? { session := s.after (.command "break -i 2") } Scene.stopsAt
        [.enterContext, .hook (.line "/b.js" 1)] = none ∧
      t.closed = false ∧ t.succeeds "break -i 2" = true ∧ t.transaction.isSome = true ∧
      Scene.first? { session := t.after (.command "break -i 2") } Scene.stopsAt
        [.exitContext 2, .hook (.line "/a.js" 1)] = none := by
  decide +kernel

end Session

end ScriptDebugger
