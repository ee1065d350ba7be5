import ScriptDebugger.Proofs.Session.Transactions

/-!
What an operation does to the execution contexts.  It leaves them alone, moves one of them, opens
or leaves one, suspends the current one for a report, or stops them all.  So every context keeps
its id, and in an open session none is stopped.
-/

namespace ScriptDebugger

namespace Session

def stage (s : Session) : Table ContextId Context × List ContextId :=
  (s.contexts, s.active)

theorem stage_eq_iff {s : Session} {contexts : Table ContextId Context}
    {active : List ContextId} :
    s.stage = (contexts, active) ↔ s.contexts = contexts ∧ s.active = active := by
  simp [stage]

theorem stage_hidesTalk : HidesTalk stage := fun _ _ _ => rfl

theorem context?_congr {s other : Session} (h : other.stage = s.stage) :
    other.context? = s.context? := by
  funext id
  exact congrArg (fun k => k.1.get? id) h

theorem current?_congr {s other : Session} (h : other.stage = s.stage) :
    other.current? = s.current? :=
  congrArg (fun k => k.2.head?.bind k.1.get?) h

theorem resume_of_suspended {s : Session} {c : Context} (hcurrent : s.current? = some c)
    (hsuspended : c.isSuspended = true) (mode : StepMode) :
    s.resume mode = s.markInitialized.setContext (c.resume mode) := by
  rw [resume, hcurrent]
  simp only [Option.filter, hsuspended, Bool.or_true, if_true]

/-- What an operation does to the contexts.  Only the end of a session closes it. -/
inductive Shift (s : Session) (operation : Operation) (after : Session) : Prop where
  | same (h : after.stage = s.stage) (hclosed : after.closed = s.closed)
  | moved {id : ContextId} {c : Context} (next : Context) (hget : s.context? id = some c)
      (hmoved : c.Moved next) (h : after.stage = (s.contexts.set next.id next, s.active))
      (hclosed : after.closed = s.closed)
      (hwhere : s.active.head? = some id ∨
        ∃ leaving, operation = .proceed (.resumption id leaving))
  | halted {event : Hook} {c : Context} (next : Context) (hoperation : operation = .hook event)
      (hcurrent : s.current? = some c) (hmoved : c.Moved next)
      (h : after.stage = (s.contexts.set next.id next.halt, s.active))
      (hclosed : after.closed = s.closed)
  | entered (id : ContextId) (h : after.stage = (s.contexts.set id { id := id }, id :: s.active))
      (hclosed : after.closed = s.closed) (hoperation : operation = .enterContext)
      (hid : id = s.contexts.length + 1)
  | left (id : ContextId) (h : after.stage = (s.contexts, s.active.filter (· ≠ id)))
      (hclosed : after.closed = s.closed) (hoperation : operation = .exitContext id)
  | ended (told : Session) (htold : told.stage = s.stage) (hopen : told.closed = false)
      (h : after = told.close) (hbefore : s.closed = false)

namespace Shift

variable {s after : Session} {operation : Operation}

theorem ofCurrent {c : Context} (next : Context) (hcurrent : s.current? = some c)
    (hmoved : c.Moved next) (h : after.stage = (s.contexts.set next.id next, s.active))
    (hclosed : after.closed = s.closed) : Shift s operation after := by
  obtain ⟨id, hhead, hget⟩ := current?_eq_some_iff.mp hcurrent
  exact .moved next hget hmoved h hclosed (.inl hhead)

theorem resume {told : Session} (htold : told.stage = s.stage) (hclosed : told.closed = s.closed)
    (mode : StepMode) : Shift s operation (told.resume mode) := by
  unfold Session.resume
  split
  · rename_i c hfilter
    have hcurrent := (Option.filter_eq_some_iff.mp hfilter).1
    rw [current?_congr htold] at hcurrent
    refine .ofCurrent (c.resume mode) hcurrent (.resume c mode) ?_ hclosed
    exact congrArg (fun k => (k.1.set c.id (c.resume mode), k.2)) htold
  · exact .same htold hclosed

theorem requestBreak (h : after.stage = s.requestBreak.2.stage)
    (hclosed : after.closed = s.closed) : Shift s operation after := by
  unfold Session.requestBreak at h
  split at h
  · rename_i c hcurrent
    exact .ofCurrent c.requestBreak hcurrent (.requestBreak c) h hclosed
  · exact .same h hclosed

theorem settle (wait : Wait) : Shift s (.proceed wait) (s.settle wait).2 := by
  cases wait with
  | start =>
      rw [s.settle_start]
      exact .same rfl rfl
  | resumption id leaving =>
      rcases s.settle_resumption id leaving with h | ⟨c, hget, h⟩
      · rw [h]
        exact .same rfl rfl
      · rw [h]
        exact .moved c.pop hget (.pop c) rfl rfl (.inr ⟨leaving, rfl⟩)

theorem close {told : Session} (htold : told.stage = s.stage) (hsame : told.closed = s.closed) :
    Shift s operation told.close := by
  cases hclosed : told.closed with
  | true =>
      rw [close_of_closed hclosed]
      exact .same htold hsame
  | false => exact .ended told htold hclosed rfl (hsame.symm.trans hclosed)

theorem suspend {event : Hook} {c next : Context} {middle : Session} (leaving : Bool)
    (reason : String) (hcurrent : s.current? = some c) (hmoved : c.Moved next)
    (hactive : middle.active = s.active) (hclosed : middle.closed = s.closed)
    (hcontexts : middle.contexts = s.contexts ∨
      ∃ after, c.Moved after ∧ middle.contexts = s.contexts.set after.id after) :
    Shift s (.hook event) (middle.suspend next leaving reason).2 := by
  have hset : ∀ {last : Context}, last.id = next.id →
      ((middle.contexts.set last.id last, middle.active) : _ × _) =
        (s.contexts.set last.id last, s.active) := by
    intro last hid
    rw [hactive, set_of_moved hcontexts last (hid.trans hmoved.id)]
  cases hstopped : next.stopped with
  | true =>
      rw [middle.suspend_of_stopped hstopped]
      have hpop := Context.Moved.popIf next leaving
      exact .ofCurrent _ hcurrent (hmoved.trans hpop) (hset hpop.id) hclosed
  | false =>
      rw [middle.suspend_eq hstopped]
      split
      · exact .halted next rfl hcurrent hmoved (hset rfl) hclosed
      · have hpop := Context.Moved.popIf next.released leaving
        exact .ofCurrent _ hcurrent ((hmoved.trans (.released next)).trans hpop) (hset hpop.id)
          hclosed

theorem hook (event : Hook) : Shift s (.hook event) (s.hook event).2 := by
  rcases s.hook_effect event with ⟨_, h⟩ | ⟨_, _, h⟩ | ⟨_, c, hcurrent, heffect⟩
  · rw [h]
    exact .same rfl rfl
  · rw [h]
    exact .same rfl rfl
  · generalize s.hook event = result at heffect
    cases heffect with
    | passed hcontexts =>
        rcases hcontexts with rfl | ⟨next, hmoved, rfl⟩
        · exact .same rfl rfl
        · exact .ofCurrent next hcurrent hmoved rfl rfl
    | asked hcontexts hmoved leaving reason =>
        exact .suspend leaving reason hcurrent hmoved rfl rfl hcontexts

theorem command (line : String) : Shift s (.command line) (s.dispatch line) := by
  rcases s.dispatch_effect line with ⟨h, _⟩ | ⟨c, _, heffect⟩
  · rw [h]
    exact .same rfl rfl
  · generalize s.dispatch line = result at heffect
    cases heffect with
    | resumed _ => exact .resume (stage_hidesTalk.adopt s _) (closed_aside.talk.adopt s _) _
    | interrupted _ _ => exact .requestBreak rfl (closed_aside.contexts.requestBreak s)
    | stopped _ => exact .close (stage_hidesTalk.reportEnd s) (closed_aside.talk.reportEnd s)
    | answered _ _ => exact .same rfl rfl

end Shift

theorem after_shift (s : Session) (operation : Operation) :
    Shift s operation (s.after operation) := by
  cases operation with
  | command line => exact .command line
  | hook event => exact .hook event
  | awaitStart =>
      have hstart : s.after .awaitStart = s := s.settle_start
      rw [hstart]
      exact .same rfl rfl
  | proceed wait => exact .settle wait
  | enterContext =>
      simp only [after, perform, enterContext]
      split
      · rename_i h
        split at h
        · cases h
        · cases h
          exact .entered (s.contexts.length + 1) rfl rfl rfl rfl
      · exact .same rfl rfl
  | exitContext id => exact .left id rfl rfl rfl
  | adopt transaction => exact .same (stage_hidesTalk.adopt s transaction) (closed_aside.talk.adopt s transaction)
  | resume mode => exact .resume rfl rfl mode
  | requestBreak => exact .requestBreak rfl (closed_aside.contexts.requestBreak s)
  | reportBreak reason => exact .same (stage_hidesTalk.reportBreak s reason) (closed_aside.talk.reportBreak s reason)
  | reportEnd => exact .same (stage_hidesTalk.reportEnd s) (closed_aside.talk.reportEnd s)
  | finish => exact .close (stage_hidesTalk.reportEnd s) (closed_aside.talk.reportEnd s)
  | close => exact .close rfl rfl
  | write stream text => exact .same (stage_hidesTalk.write s stream text) (closed_aside.talk.write s stream text)
  | markInitialized | announce fileUri | addListener tag | removeListener id
  | breakpoints operation | configure settings | redirect streams | mutate heap | dropClient
  | collect => exact .same rfl rfl

theorem context?_of_set {s after : Session} {key : ContextId} {c : Context}
    (h : after.contexts = s.contexts.set key c) (id : ContextId) :
    after.context? id = if key = id then some c else s.context? id := by
  rw [context?, h]
  exact Table.get?_set _ _ _ _

theorem context?_stopContext {s : Session} (hs : ∀ {id c}, s.context? id = some c → c.id = id)
    (first id : ContextId) :
    (s.stopContext first).context? id =
      (s.context? id).map fun c => if id = first then c.stop else c := by
  unfold stopContext
  split
  · rename_i c hget
    have hid : c.id = first := hs hget
    change (s.setContext c.stop).context? id = _
    rw [context?_setContext, show c.stop.id = first from hid]
    by_cases hsame : first = id
    · subst hsame
      rw [if_pos rfl, hget, Option.map_some, if_pos rfl]
    · simp [hsame, Ne.symm hsame]
  · rename_i hget
    by_cases hsame : id = first
    · subst hsame
      rw [hget]
      rfl
    · simp [hsame]

theorem context?_stopAll {s : Session} (hs : ∀ {id c}, s.context? id = some c → c.id = id)
    (ids : List ContextId) (id : ContextId) :
    (ids.foldl stopContext s).context? id =
      (s.context? id).map fun c => if id ∈ ids then c.stop else c := by
  induction ids generalizing s with
  | nil => simp
  | cons first rest ih =>
      have hnext : ∀ {id c}, (s.stopContext first).context? id = some c → c.id = id := by
        intro id c hget
        rw [context?_stopContext hs] at hget
        obtain ⟨before, hbefore, rfl⟩ := Option.map_eq_some_iff.mp hget
        have hid : before.id = id := hs hbefore
        split <;> exact hid
      rw [List.foldl_cons, ih hnext, context?_stopContext hs, Option.map_map]
      congr 1
      funext c
      by_cases hfirst : id = first
      · subst hfirst
        by_cases hrest : id ∈ rest <;> simp [hrest, Context.stop]
      · simp [hfirst]

theorem context?_close_of_open {s : Session}
    (hs : ∀ {id c}, s.context? id = some c → c.id = id) (hopen : s.closed = false)
    (id : ContextId) :
    s.close.context? id = (s.context? id).map fun c => if id ∈ s.active then c.stop else c := by
  rw [← context?_stopAll hs, close, hopen]
  rfl

theorem closed_of_after {s : Session} {operation : Operation}
    (h : (s.after operation).closed = false) : s.closed = false := by
  cases hclosed : s.closed with
  | false => rfl
  | true =>
      rw [(s.after_traffic operation).closed hclosed] at h
      cases h

structure Grounded (s : Session) : Prop where
  id_eq : ∀ {id c}, s.context? id = some c → c.id = id
  stopped_eq : s.closed = false → ∀ {id c}, s.context? id = some c → c.stopped = false

namespace Grounded

theorem opened (settings : Settings) (host : Host) (heap : Heap) :
    (opened settings host heap).Grounded where
  id_eq := nofun
  stopped_eq := nofun

theorem close {s : Session} (h : ∀ {id c}, s.context? id = some c → c.id = id)
    (hopen : s.closed = false) : s.close.Grounded where
  id_eq := by
    intro id c hget
    rw [context?_close_of_open h hopen] at hget
    obtain ⟨before, hbefore, rfl⟩ := Option.map_eq_some_iff.mp hget
    have hid : before.id = id := h hbefore
    split <;> exact hid
  stopped_eq := by
    intro hclosed
    rw [s.closed_close] at hclosed
    cases hclosed

theorem set {s after : Session} (h : s.Grounded) (hclosed : after.closed = false → s.closed = false)
    {c : Context} (hstopped : s.closed = false → c.stopped = false)
    (hset : after.contexts = s.contexts.set c.id c) : after.Grounded where
  id_eq := by
    intro id other hget
    rw [context?_of_set hset] at hget
    split at hget
    · rename_i hid
      cases hget
      exact hid
    · exact h.id_eq hget
  stopped_eq := by
    intro hopen id other hget
    rw [context?_of_set hset] at hget
    split at hget
    · cases hget
      exact hstopped (hclosed hopen)
    · exact h.stopped_eq (hclosed hopen) hget

theorem congr {s after : Session} (h : s.Grounded)
    (hclosed : after.closed = false → s.closed = false)
    (hget : after.context? = s.context?) : after.Grounded where
  id_eq := by
    rw [hget]
    exact h.id_eq
  stopped_eq := by
    intro hopen
    rw [hget]
    exact h.stopped_eq (hclosed hopen)

theorem after {s : Session} (h : s.Grounded) (operation : Operation) :
    (s.after operation).Grounded := by
  have hclosed : (s.after operation).closed = false → s.closed = false := closed_of_after
  cases s.after_shift operation with
  | same hstage _ => exact h.congr hclosed (context?_congr hstage)
  | moved next hget hmoved hstage _ =>
      refine h.set hclosed ?_ (stage_eq_iff.mp hstage).1
      intro hopen
      exact hmoved.stopped.trans (h.stopped_eq hopen hget)
  | halted next _ hcurrent hmoved hstage _ =>
      obtain ⟨id, _, hget⟩ := current?_eq_some_iff.mp hcurrent
      refine h.set (c := next.halt) hclosed ?_ (stage_eq_iff.mp hstage).1
      intro hopen
      exact hmoved.stopped.trans (h.stopped_eq hopen hget)
  | entered id hstage _ _ =>
      exact h.set (c := { id := id }) hclosed (fun _ => rfl) (stage_eq_iff.mp hstage).1
  | left id hstage _ _ =>
      apply h.congr hclosed
      funext other
      rw [context?, (stage_eq_iff.mp hstage).1]
      rfl
  | ended told htold hopen hend _ =>
      rw [hend]
      refine close ?_ hopen
      rw [context?_congr htold]
      exact h.id_eq

theorem run {s : Session} (h : s.Grounded) (operations : List Operation) :
    (s.run operations).Grounded :=
  run_induction h (fun hs operation => hs.after operation) operations

theorem of_reached {s : Session} (h : s.Reached) : s.Grounded := by
  obtain ⟨settings, host, heap, operations, rfl⟩ := h
  exact (opened settings host heap).run operations

end Grounded

end Session

end ScriptDebugger
