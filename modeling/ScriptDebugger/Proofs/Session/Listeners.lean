import Mathlib.Data.List.Nodup
import ScriptDebugger.Proofs.Session.Contexts

namespace ScriptDebugger

namespace Session

def Operation.dismisses : Operation → ListenerId → Bool
  | .removeListener id, other => id == other
  | _, _ => false

def dismissedBy (s : Session) (id : ListenerId) : List Operation → Bool
  | [] => false
  | operation :: rest =>
      (!s.closed && operation.dismisses id) || (s.after operation).dismissedBy id rest

def tellings (s : Session) (id : ListenerId) : Nat :=
  (s.told.map Listener.id).count id

/-- Whether the removal of a listener keeps it from being told in some way things can go on. -/
def RemovalMatters (s : Session) (id : ListenerId) : Prop :=
  ∃ operations,
    ((s.after (.removeListener id)).run operations).tellings id < (s.run operations).tellings id

def roster (s : Session) : List Listener × List Listener × ListenerId × Bool :=
  (s.listeners, s.told, s.lastListener, s.closed)

theorem roster_eq_iff {s : Session} {listeners told : List Listener} {last : ListenerId}
    {closed : Bool} :
    s.roster = (listeners, told, last, closed) ↔
      s.listeners = listeners ∧ s.told = told ∧ s.lastListener = last ∧ s.closed = closed := by
  simp [roster]

theorem roster_aside : Aside roster where
  talk _ _ _ := rfl
  contexts _ _ := rfl
  start _ _ _ := rfl

theorem roster_close {s : Session} (h : s.closed = false) :
    s.close.roster = ([], s.told ++ s.listeners, s.lastListener, true) := by
  have hstopped := roster_aside.contexts.stopAll s s.active
  obtain ⟨_, _, hlast, _⟩ := roster_eq_iff.mp hstopped
  rw [close, h]
  exact roster_eq_iff.mpr ⟨rfl, rfl, hlast, rfl⟩

/-- What an operation does to the listeners.  The first that closes the session tells them. -/
inductive Hearing (s : Session) (operation : Operation) (after : Session) : Prop where
  | kept (hkeeps : ∀ id, operation.dismisses id = false) (h : after.roster = s.roster)
  | added (tag : String) (hkeeps : ∀ id, operation.dismisses id = false)
      (h : after.roster =
        (s.listeners ++ [⟨s.lastListener + 1, tag⟩], s.told, s.lastListener + 1, s.closed))
  | removed (id : ListenerId) (hoperation : operation = .removeListener id)
      (h : after.roster =
        (s.listeners.filter (fun l => l.id ≠ id), s.told, s.lastListener, s.closed))
  | ended (hkeeps : ∀ id, operation.dismisses id = false) (hopen : s.closed = false)
      (h : after.roster = ([], s.told ++ s.listeners, s.lastListener, true))

namespace Hearing

variable {s after : Session} {operation : Operation}

theorem close {told : Session} (hkeeps : ∀ id, operation.dismisses id = false)
    (htold : told.roster = s.roster) : Hearing s operation told.close := by
  obtain ⟨hlisteners, hold, hlast, hclosed⟩ := roster_eq_iff.mp htold
  cases hopen : told.closed with
  | true =>
      rw [close_of_closed hopen]
      exact .kept hkeeps htold
  | false =>
      refine .ended hkeeps (hclosed.symm.trans hopen) ?_
      rw [roster_close hopen, hlisteners, hold, hlast]

theorem command (line : String) : Hearing s (.command line) (s.dispatch line) := by
  have hkeeps : ∀ id, (Operation.command line).dismisses id = false := fun _ => rfl
  rcases s.dispatch_effect line with ⟨h, _⟩ | ⟨c, _, heffect⟩
  · rw [h]
    exact .kept hkeeps rfl
  · generalize s.dispatch line = result at heffect
    cases heffect with
    | resumed _ =>
        exact .kept hkeeps ((roster_aside.resume _ _).trans (roster_aside.talk.adopt s _))
    | interrupted _ _ => exact .kept hkeeps (roster_aside.contexts.requestBreak s)
    | stopped _ => exact close hkeeps (roster_aside.talk.reportEnd s)
    | answered _ _ => exact .kept hkeeps rfl

theorem hook (event : Hook) : Hearing s (.hook event) (s.hook event).2 := by
  have hkeeps : ∀ id, (Operation.hook event).dismisses id = false := fun _ => rfl
  rcases s.hook_effect event with ⟨_, h⟩ | ⟨_, _, h⟩ | ⟨_, c, _, heffect⟩
  · rw [h]
    exact .kept hkeeps rfl
  · rw [h]
    exact .kept hkeeps rfl
  · generalize s.hook event = result at heffect
    cases heffect with
    | passed _ _ => exact .kept hkeeps rfl
    | asked _ _ leaving reason _ => exact .kept hkeeps (roster_aside.suspend _ _ leaving reason)

end Hearing

theorem after_hearing (s : Session) (operation : Operation) :
    Hearing s operation (s.after operation) := by
  have hkeeps : ∀ {after : Session}, (∀ id, operation.dismisses id = false) →
      after.roster = s.roster → Hearing s operation after := .kept
  cases operation with
  | command line => exact .command line
  | hook event => exact .hook event
  | awaitStart => exact hkeeps (fun _ => rfl) (roster_aside.contexts.settle s .start)
  | proceed wait => exact hkeeps (fun _ => rfl) (roster_aside.contexts.settle s wait)
  | enterContext =>
      refine hkeeps (fun _ => rfl) ?_
      simp only [after, perform, enterContext]
      split
      · rename_i h
        split at h
        · cases h
        · cases h
          rfl
      · rfl
  | adopt transaction => exact hkeeps (fun _ => rfl) (roster_aside.talk.adopt s transaction)
  | resume mode => exact hkeeps (fun _ => rfl) (roster_aside.resume s mode)
  | requestBreak => exact hkeeps (fun _ => rfl) (roster_aside.contexts.requestBreak s)
  | reportBreak reason => exact hkeeps (fun _ => rfl) (roster_aside.talk.reportBreak s reason)
  | reportEnd => exact hkeeps (fun _ => rfl) (roster_aside.talk.reportEnd s)
  | finish => exact .close (fun _ => rfl) (roster_aside.talk.reportEnd s)
  | close => exact .close (fun _ => rfl) rfl
  | write stream text => exact hkeeps (fun _ => rfl) (roster_aside.talk.write s stream text)
  | addListener tag => exact .added tag (fun _ => rfl) rfl
  | removeListener id => exact .removed id rfl rfl
  | exitContext id | markInitialized | announce fileUri | breakpoints operation
  | configure settings | redirect streams | mutate heap | dropClient | collect =>
      exact hkeeps (fun _ => rfl) rfl

def audience (s : Session) : List ListenerId :=
  (s.told ++ s.listeners).map Listener.id

structure Orderly (s : Session) : Prop where
  nodup : s.audience.Nodup
  le_last : ∀ id ∈ s.audience, id ≤ s.lastListener

namespace Orderly

variable {s next : Session}

theorem opened (settings : Settings) (host : Host) (heap : Heap) :
    (opened settings host heap).Orderly where
  nodup := .nil
  le_last := nofun

theorem of_sublist (h : s.Orderly) (haudience : next.audience.Sublist s.audience)
    (hlast : next.lastListener = s.lastListener) : next.Orderly where
  nodup := h.nodup.sublist haudience
  le_last := by
    intro id hmem
    rw [hlast]
    exact h.le_last id (haudience.subset hmem)

theorem of_append (h : s.Orderly) (haudience : next.audience = s.audience ++ [s.lastListener + 1])
    (hlast : next.lastListener = s.lastListener + 1) : next.Orderly where
  nodup := by
    rw [haudience, List.nodup_append]
    refine ⟨h.nodup, List.nodup_singleton _, ?_⟩
    intro old hold new hnew
    have hle := h.le_last old hold
    rw [List.mem_singleton.mp hnew]
    exact Nat.ne_of_lt (Nat.lt_succ_of_le hle)
  le_last := by
    intro id hmem
    rw [haudience, List.mem_append, List.mem_singleton] at hmem
    rw [hlast]
    rcases hmem with hold | rfl
    · exact Nat.le_succ_of_le (h.le_last id hold)
    · exact Nat.le_refl _

theorem after (h : s.Orderly) (operation : Operation) : (s.after operation).Orderly := by
  cases s.after_hearing operation with
  | kept _ hroster =>
      obtain ⟨hlisteners, htold, hlast, _⟩ := roster_eq_iff.mp hroster
      refine h.of_sublist ?_ hlast
      rw [audience, htold, hlisteners]
      exact .refl _
  | added tag _ hroster =>
      obtain ⟨hlisteners, htold, hlast, _⟩ := roster_eq_iff.mp hroster
      refine h.of_append ?_ hlast
      rw [audience, htold, hlisteners, ← List.append_assoc, List.map_append]
      rfl
  | removed id _ hroster =>
      obtain ⟨hlisteners, htold, hlast, _⟩ := roster_eq_iff.mp hroster
      refine h.of_sublist ?_ hlast
      rw [audience, htold, hlisteners]
      exact (List.filter_sublist.append_left s.told).map Listener.id
  | ended _ _ hroster =>
      obtain ⟨hlisteners, htold, hlast, _⟩ := roster_eq_iff.mp hroster
      refine h.of_sublist ?_ hlast
      rw [audience, htold, hlisteners, List.append_nil]
      exact .refl _

theorem of_reached (h : s.Reached) : s.Orderly := by
  obtain ⟨settings, host, heap, operations, rfl⟩ := h
  exact run_induction (opened settings host heap) (fun hs operation => hs.after operation) operations

theorem tellings_eq_zero (h : s.Orderly) {l : Listener} (hmem : l ∈ s.listeners) :
    s.tellings l.id = 0 := by
  have hnodup := h.nodup
  rw [audience, List.map_append, List.nodup_append] at hnodup
  refine List.count_eq_zero.mpr fun htold => ?_
  exact hnodup.2.2 l.id htold l.id (List.mem_map_of_mem hmem) rfl

end Orderly

section Run

variable {s : Session} {operation : Operation} {operations : List Operation} {id : ListenerId}

theorem told_run_of_closed (h : s.closed = true) : (s.run operations).told = s.told := by
  induction operations generalizing s with
  | nil => rfl
  | cons operation rest ih =>
      have htold : (s.after operation).told = s.told := by
        cases s.after_hearing operation with
        | kept _ hroster | added _ _ hroster | removed _ _ hroster =>
            exact (roster_eq_iff.mp hroster).2.1
        | ended _ hopen _ =>
            rw [h] at hopen
            cases hopen
      exact (ih ((s.after_traffic operation).closed h)).trans htold

theorem dismissedBy_of_closed (h : s.closed = true) : s.dismissedBy id operations = false := by
  induction operations generalizing s with
  | nil => rfl
  | cons operation rest ih =>
      rw [dismissedBy, h, ih ((s.after_traffic operation).closed h)]
      rfl

structure Dismissed (s : Session) (id : ListenerId) : Prop where
  le_last : id ≤ s.lastListener
  absent : ∀ l ∈ s.listeners, l.id ≠ id
  untold : s.tellings id = 0

namespace Dismissed

theorem after (h : s.Dismissed id) (operation : Operation) : (s.after operation).Dismissed id := by
  have hcongr : ∀ {other : Session}, other.told = s.told → other.tellings id = 0 := fun htold =>
    (congrArg (fun told => (told.map Listener.id).count id) htold).trans h.untold
  cases s.after_hearing operation with
  | kept _ hroster =>
      obtain ⟨hlisteners, htold, hlast, _⟩ := roster_eq_iff.mp hroster
      exact ⟨hlast ▸ h.le_last, hlisteners ▸ h.absent, hcongr htold⟩
  | added tag _ hroster =>
      obtain ⟨hlisteners, htold, hlast, _⟩ := roster_eq_iff.mp hroster
      refine ⟨hlast ▸ Nat.le_succ_of_le h.le_last, ?_, hcongr htold⟩
      rw [hlisteners, List.forall_mem_append, List.forall_mem_singleton]
      exact ⟨h.absent, Nat.ne_of_gt (Nat.lt_succ_of_le h.le_last)⟩
  | removed other _ hroster =>
      obtain ⟨hlisteners, htold, hlast, _⟩ := roster_eq_iff.mp hroster
      refine ⟨hlast ▸ h.le_last, ?_, hcongr htold⟩
      intro l hmem
      rw [hlisteners] at hmem
      exact h.absent l (List.mem_filter.mp hmem).1
  | ended _ _ hroster =>
      obtain ⟨hlisteners, htold, hlast, _⟩ := roster_eq_iff.mp hroster
      refine ⟨hlast ▸ h.le_last, hlisteners ▸ List.forall_mem_nil _, ?_⟩
      rw [tellings, htold, List.map_append, List.count_append, Nat.add_eq_zero_iff]
      refine ⟨h.untold, List.count_eq_zero.mpr fun hmem => ?_⟩
      obtain ⟨l, hl, hid⟩ := List.mem_map.mp hmem
      exact h.absent l hl hid

theorem run (h : s.Dismissed id) (operations : List Operation) :
    (s.run operations).Dismissed id :=
  run_induction (motive := fun s => s.Dismissed id) h (fun hs operation => hs.after operation)
    operations

end Dismissed

theorem Orderly.dismissed (h : s.Orderly) {l : Listener} (hmem : l ∈ s.listeners) :
    (s.after (.removeListener l.id)).Dismissed l.id where
  le_last := h.le_last l.id (List.mem_map_of_mem (List.mem_append_right _ hmem))
  absent _ hother := of_decide_eq_true (List.mem_filter.mp hother).2
  untold := h.tellings_eq_zero hmem

theorem tellings_run (h : s.Orderly) {l : Listener} (hmem : l ∈ s.listeners)
    (hopen : s.closed = false) (hclosed : (s.run operations).closed = true) :
    (s.run operations).tellings l.id = if s.dismissedBy l.id operations then 0 else 1 := by
  induction operations generalizing s with
  | nil =>
      rw [run, List.foldl_nil, hopen] at hclosed
      cases hclosed
  | cons operation rest ih =>
      rw [dismissedBy, hopen, Bool.not_false, Bool.true_and]
      cases s.after_hearing operation with
      | kept hkeeps hroster =>
          obtain ⟨hlisteners, _, _, hsame⟩ := roster_eq_iff.mp hroster
          rw [hkeeps, Bool.false_or]
          exact ih (h.after operation) (hlisteners ▸ hmem) (hsame.trans hopen) hclosed
      | added tag hkeeps hroster =>
          obtain ⟨hlisteners, _, _, hsame⟩ := roster_eq_iff.mp hroster
          rw [hkeeps, Bool.false_or]
          exact ih (h.after operation) (hlisteners ▸ List.mem_append_left _ hmem)
            (hsame.trans hopen) hclosed
      | removed id hoperation hroster =>
          obtain ⟨hlisteners, _, _, hsame⟩ := roster_eq_iff.mp hroster
          by_cases hid : id = l.id
          · subst hid
            rw [hoperation, Operation.dismisses, beq_self_eq_true, Bool.true_or, if_pos rfl]
            exact ((h.dismissed hmem).run rest).untold
          · have hkept : l ∈ (s.after operation).listeners := by
              rw [hlisteners]
              exact List.mem_filter.mpr ⟨hmem, decide_eq_true (Ne.symm hid)⟩
            rw [hoperation, Operation.dismisses, beq_eq_false_iff_ne.mpr hid, Bool.false_or,
              ← hoperation]
            exact ih (h.after operation) hkept (hsame.trans hopen) hclosed
      | ended hkeeps _ hroster =>
          obtain ⟨_, htold, _, hafter⟩ := roster_eq_iff.mp hroster
          rw [hkeeps, dismissedBy_of_closed hafter, Bool.or_self, if_neg Bool.false_ne_true]
          have hlast : (s.run (operation :: rest)).told = s.told ++ s.listeners :=
            (told_run_of_closed hafter).trans htold
          rw [tellings, hlast]
          exact List.count_eq_one_of_mem h.nodup
            (List.mem_map_of_mem (List.mem_append_right _ hmem))

theorem tellings_of_closed (h : s.Orderly) (hclosed : s.closed = true) (hlate : s.lastListener < id) :
    (s.run operations).tellings id = 0 := by
  rw [tellings, told_run_of_closed hclosed]
  refine List.count_eq_zero.mpr fun hmem => ?_
  have hle := h.le_last id (by
    rw [audience, List.map_append]
    exact List.mem_append_left _ hmem)
  exact absurd hle (Nat.not_le_of_lt hlate)

theorem removeListener_eq_true_iff :
    (s.removeListener id).1 = true ↔ ∃ l ∈ s.listeners, l.id = id := by
  simp only [removeListener, bne_iff_ne, ne_eq, List.length_filter_eq_length_iff]
  simp

theorem after_removeListener_of_absent (h : ¬∃ l ∈ s.listeners, l.id = id) :
    s.after (.removeListener id) = s := by
  have hsame : s.listeners.filter (fun l => l.id ≠ id) = s.listeners := by
    refine List.filter_eq_self.mpr fun l hmem => decide_eq_true fun hid => h ⟨l, hmem, hid⟩
  rw [after, perform, removeListener, hsame]
  rfl

theorem removalMatters_iff (h : s.Orderly) :
    s.RemovalMatters id ↔ s.closed = false ∧ (s.removeListener id).1 = true := by
  rw [removeListener_eq_true_iff]
  constructor
  · rintro ⟨operations, hless⟩
    constructor
    · refine Bool.eq_false_iff.mpr fun hclosed => ?_
      have hafter : (s.after (.removeListener id)).closed = true := hclosed
      rw [tellings, tellings, told_run_of_closed hclosed, told_run_of_closed hafter] at hless
      exact Nat.lt_irrefl _ hless
    · by_contra habsent
      rw [after_removeListener_of_absent habsent] at hless
      exact Nat.lt_irrefl _ hless
  · rintro ⟨hopen, l, hmem, rfl⟩
    refine ⟨[.close], ?_⟩
    have htold : (s.run [.close]).tellings l.id = 1 := by
      have hclosed : (s.run [.close]).closed = true := s.closed_close
      rw [tellings_run h hmem hopen hclosed]
      simp [dismissedBy, Operation.dismisses]
    rw [htold, ((h.dismissed hmem).run [.close]).untold]
    exact Nat.one_pos

end Run

/-- A listener that is added while the session is open is told once by the time it is closed, unless
it is removed before.  One that is removed while it waits is never told, and this mattered if the
session was open.  One that is added later waits in vain. -/
theorem listeners_told_once {s : Session} (hs : s.Reached) :
    (∀ tag operations,
      let id := (s.addListener tag).1
      let added := s.after (.addListener tag)
      (added.run operations).closed = true →
        (added.run operations).tellings id =
          if s.closed || added.dismissedBy id operations then 0 else 1) ∧
    (∀ id, (s.removeListener id).1 = true →
      ∀ operations, ((s.after (.removeListener id)).run operations).tellings id = 0) ∧
    ∀ id, s.RemovalMatters id ↔ s.closed = false ∧ (s.removeListener id).1 = true := by
  have horderly := Orderly.of_reached hs
  refine ⟨?_, ?_, fun id => removalMatters_iff horderly⟩
  · intro tag operations id added hend
    have hadded : added.Orderly := horderly.after _
    cases hclosed : s.closed with
    | true =>
        rw [Bool.true_or, if_pos rfl]
        have hlate : (s.run []).tellings id = 0 :=
          tellings_of_closed horderly hclosed (Nat.lt_succ_self _)
        have htold : (added.run operations).told = s.told := told_run_of_closed hclosed
        rw [tellings, htold]
        exact hlate
    | false =>
        have hmem : (⟨id, tag⟩ : Listener) ∈ added.listeners :=
          List.mem_append_right _ (List.mem_singleton_self _)
        rw [Bool.false_or]
        exact tellings_run hadded hmem hclosed hend
  · intro id hremoved operations
    obtain ⟨l, hmem, rfl⟩ := removeListener_eq_true_iff.mp hremoved
    exact ((horderly.dismissed hmem).run operations).untold

theorem listeners_told_once_stop :
    let s := (opened {} (Host.ofTable none []) {}).run [.addListener "first"]
    let y := (s.after (.addListener "second")).run
      [.removeListener 1, .command "stop -i 1", .removeListener 2, .close]
    s.Reached ∧ y.closed = true ∧ y.tellings 2 = 1 ∧ (s.removeListener 1).1 = true ∧
      s.RemovalMatters 1 ∧ ((s.after (.removeListener 1)).run [.finish]).tellings 1 = 0 := by
  intro s y
  have hs : s.Reached := ⟨{}, _, _, [.addListener "first"], rfl⟩
  have hclosed : y.closed = true := by decide +kernel
  have hremoved : (s.removeListener 1).1 = true := by decide +kernel
  obtain ⟨htold, huntold, hmatters⟩ := listeners_told_once hs
  refine ⟨hs, hclosed, ?_, hremoved, (hmatters 1).mpr ⟨rfl, hremoved⟩, huntold 1 hremoved [.finish]⟩
  exact (htold "second" _ hclosed).trans (by decide +kernel)

/-- A listener to a closed session hears of no further end of it.  Its removal is called a success,
and keeps it from nothing. -/
theorem late_listener_untold :
    let s := (opened {} (Host.ofTable none []) {}).run [.close]
    let added := s.after (.addListener "late")
    added.dismissedBy 1 [.close, .finish, .command "stop -i 1"] = false ∧
      (added.run [.close, .finish, .command "stop -i 1"]).tellings 1 = 0 ∧
      (added.removeListener 1).1 = true ∧ ¬ added.RemovalMatters 1 := by
  intro s added
  have hadded : added.Orderly :=
    .of_reached ⟨{}, _, _, [.close, .addListener "late"], rfl⟩
  refine ⟨by decide +kernel, by decide +kernel, by decide +kernel, fun hmatters => ?_⟩
  have hopen := (removalMatters_iff hadded).mp hmatters
  exact absurd hopen.1 (by decide +kernel)

end Session

end ScriptDebugger
