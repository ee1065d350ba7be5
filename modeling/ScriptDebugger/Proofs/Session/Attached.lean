import ScriptDebugger.Proofs.Session.Notices

namespace ScriptDebugger

def Wait.IsFor (id : ContextId) : Wait → Prop
  | .start => True
  | .resumption other _ => other = id

namespace Session

/-- A context is the current one while the session is open, and stopped once it is closed. -/
structure Attached (s : Session) (id : ContextId) : Prop where
  head?_eq : s.closed = false → s.active.head? = some id
  known : ∃ c, s.context? id = some c ∧ (s.closed = true → c.stopped = true)

/-- How a call of the thread that runs in a context comes out. -/
inductive CallEffect (s : Session) (id : ContextId) : Progress → Prop where
  | refused (h : s.closed = true) : CallEffect s id (.returned (.error .terminated))
  | passed (h : s.closed = false) : CallEffect s id (.returned (.ok ()))
  | waits (h : s.closed = false) {wait : Wait} (hwait : wait.IsFor id) :
      CallEffect s id (.waiting wait)

theorem CallEffect.congr {s after : Session} {id : ContextId} {progress : Progress}
    (h : CallEffect s id progress) (hclosed : after.closed = s.closed) :
    CallEffect after id progress := by
  cases h with
  | refused h => exact .refused (hclosed.trans h)
  | passed h => exact .passed (hclosed.trans h)
  | waits h hwait => exact .waits (hclosed.trans h) hwait

theorem closed_hook (s : Session) (event : Hook) : (s.hook event).2.closed = s.closed := by
  have hclosed : ∀ {other : Session} {c : Context} {leaving : Bool} {reason : String},
      (other.suspend c leaving reason).2.closed = other.closed := by
    intro other c leaving reason
    rcases other.channel_suspend c leaving reason with h | h
    · exact congrArg (fun k => k.2.2) h
    · exact congrArg (fun k => k.2.2) h
  rcases s.hook_effect event with ⟨_, h⟩ | ⟨_, _, h⟩ | ⟨_, c, _, heffect⟩
  · rw [h]
    rfl
  · rw [h]
    rfl
  · generalize s.hook event = result at heffect
    cases heffect with
    | passed _ _ => rfl
    | asked _ _ leaving reason _ => exact hclosed

namespace Attached

variable {s : Session} {id : ContextId}

theorem enterContext {entered : Session} (h : s.enterContext = .ok (id, entered)) :
    entered.Attached id := by
  unfold Session.enterContext at h
  split at h
  · cases h
  · rename_i hopen
    cases h
    have hget := context?_setContext_self s { id := s.contexts.length + 1 }
    exact ⟨fun _ => rfl, _, hget, fun hclosed => absurd hclosed hopen⟩

theorem current? (h : s.Attached id) (hopen : s.closed = false) :
    ∃ c, s.current? = some c ∧ s.context? id = some c := by
  obtain ⟨c, hget, _⟩ := h.known
  exact ⟨c, current?_eq_some_iff.mpr ⟨id, h.head?_eq hopen, hget⟩, hget⟩

theorem set {after : Session} (h : s.Attached id) (hs : s.Grounded) {other : ContextId}
    {c : Context} (next : Context) (hget : s.context? other = some c) (hid : next.id = c.id)
    (hstopped : next.stopped = c.stopped)
    (hstage : after.stage = (s.contexts.set next.id next, s.active))
    (hclosed : after.closed = s.closed) : after.Attached id := by
  obtain ⟨hcontexts, hactive⟩ := stage_eq_iff.mp hstage
  obtain ⟨mine, hmine, hmystopped⟩ := h.known
  refine ⟨?_, ?_⟩
  · rw [hclosed, hactive]
    exact h.head?_eq
  · rw [context?_of_set hcontexts, hclosed]
    by_cases hsame : next.id = id
    · have hother : other = id := by rw [← hs.id_eq hget, ← hid, hsame]
      subst hother
      obtain rfl := Option.some.inj (hmine.symm.trans hget)
      rw [if_pos hsame]
      exact ⟨next, rfl, fun h => hstopped.trans (hmystopped h)⟩
    · rw [if_neg hsame]
      exact ⟨mine, hmine, hmystopped⟩

theorem after (h : s.Attached id) (hs : s.Grounded) {operation : Operation}
    (henter : operation ≠ .enterContext) (hexit : ∀ other, operation ≠ .exitContext other) :
    (s.after operation).Attached id := by
  cases s.after_shift operation with
  | same hstage hclosed =>
      refine ⟨?_, ?_⟩
      · rw [hclosed, (stage_eq_iff.mp hstage).2]
        exact h.head?_eq
      · rw [context?_congr hstage, hclosed]
        exact h.known
  | moved next hget hmoved hstage hclosed =>
      exact h.set hs next hget hmoved.id hmoved.stopped hstage hclosed
  | halted next _ hcurrent hmoved hstage hclosed =>
      obtain ⟨other, _, hget⟩ := current?_eq_some_iff.mp hcurrent
      exact h.set hs next.halt hget hmoved.id hmoved.stopped hstage hclosed
  | entered other _ _ hoperation => exact absurd hoperation henter
  | left other _ _ hoperation => exact absurd hoperation (hexit other)
  | ended told htold hopen hend hbefore =>
      obtain ⟨c, hget, _⟩ := h.known
      have hids : ∀ {id c}, told.context? id = some c → c.id = id := by
        rw [context?_congr htold]
        exact hs.id_eq
      have hactive : told.active = s.active := (stage_eq_iff.mp htold).2
      have hmem : id ∈ told.active := by
        rw [hactive]
        exact List.mem_of_head? (h.head?_eq hbefore)
      rw [← context?_congr htold] at hget
      have hclose := context?_close_of_open hids hopen id
      rw [hget, Option.map_some, if_pos hmem] at hclose
      rw [hend]
      refine ⟨?_, c.stop, hclose, fun _ => rfl⟩
      intro hclosed
      rw [told.closed_close] at hclosed
      cases hclosed

theorem hook (h : s.Attached id) (hs : s.Grounded) (event : Hook) :
    CallEffect s id (s.hook event).1 := by
  rcases s.hook_effect event with ⟨hclosed, heq⟩ | ⟨hopen, hnone, _⟩ | ⟨hopen, c, hcurrent, heffect⟩
  · rw [heq]
    exact .refused hclosed
  · obtain ⟨c, hcurrent, _⟩ := h.current? hopen
    rw [hcurrent] at hnone
    cases hnone
  · obtain ⟨mine, hmine, hget⟩ := h.current? hopen
    obtain rfl := Option.some.inj (hmine.symm.trans hcurrent)
    have hid : mine.id = id := hs.id_eq hget
    have hrunning : mine.stopped = false := hs.stopped_eq hopen hget
    generalize s.hook event = result at heffect
    cases heffect with
    | passed _ _ => exact .passed hopen
    | asked _ hmoved leaving reason _ =>
        rw [suspend_eq _ (hmoved.stopped.trans hrunning)]
        split
        · exact .waits hopen (hmoved.id.trans hid)
        · exact .passed hopen

theorem settle (h : s.Attached id) (hs : s.Grounded) {wait : Wait} (hwait : wait.IsFor id) :
    CallEffect s id (s.settle wait).1 := by
  cases wait with
  | start =>
      unfold Session.settle
      cases hclosed : s.closed with
      | true => exact .refused hclosed
      | false =>
          cases s.initialized with
          | true => exact .passed hclosed
          | false => exact .waits hclosed trivial
  | resumption other leaving =>
      cases hwait
      obtain ⟨c, hget, hstopped⟩ := h.known
      simp only [Session.settle, hget]
      cases hclosed : s.closed with
      | true =>
          have houtcome : c.outcome? = some (.error .terminated) := if_pos (hstopped hclosed)
          rw [houtcome]
          exact .refused hclosed
      | false =>
          have hrunning : c.stopped = false := hs.stopped_eq hclosed hget
          cases hsuspended : c.isSuspended with
          | true =>
              have houtcome : c.outcome? = none := by
                simp [Context.outcome?, hrunning, hsuspended]
              rw [houtcome]
              exact .waits hclosed rfl
          | false =>
              have houtcome : c.outcome? = some (.ok ()) := by
                simp [Context.outcome?, hrunning, hsuspended]
              rw [houtcome]
              exact .passed hclosed

end Attached

end Session

end ScriptDebugger
