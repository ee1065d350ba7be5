import ScriptDebugger.Proofs.Session.Report

namespace ScriptDebugger

namespace Context

structure Moved (c after : Context) : Prop where
  id : after.id = c.id
  suspended : after.isSuspended = true → c.isSuspended = true
  stopped : after.stopped = c.stopped

def released (c : Context) : Context :=
  { c.halt with run := .running }

namespace Moved

theorem refl (c : Context) : c.Moved c := ⟨rfl, fun h => h, rfl⟩

theorem trans {c middle after : Context} (h : c.Moved middle) (h' : middle.Moved after) :
    c.Moved after :=
  ⟨h'.id.trans h.id, fun hafter => h.suspended (h'.suspended hafter), h'.stopped.trans h.stopped⟩

theorem withFrames (c : Context) (frames : List Frame) : c.Moved { c with frames := frames } :=
  ⟨rfl, fun h => h, rfl⟩

theorem push (c : Context) (f : Frame) : c.Moved (c.push f) := withFrames c _

theorem pop (c : Context) : c.Moved c.pop := withFrames c _

theorem requestBreak (c : Context) : c.Moved c.requestBreak := ⟨rfl, fun h => h, rfl⟩

theorem resume (c : Context) (mode : StepMode) : c.Moved (c.resume mode) := ⟨rfl, nofun, rfl⟩

theorem released (c : Context) : c.Moved c.released := ⟨rfl, nofun, rfl⟩

theorem moveTo (c : Context) (file : String) (line : Nat) : c.Moved (c.moveTo file line) := by
  unfold Context.moveTo
  split
  · exact ⟨rfl, fun h => h, rfl⟩
  · exact push c _

theorem takePendingStop (c : Context) : c.Moved c.takePendingStop.2 := by
  unfold Context.takePendingStop
  split
  · exact ⟨rfl, fun h => h, rfl⟩
  · exact refl c

theorem popIf (c : Context) (leaving : Bool) : c.Moved (if leaving then c.pop else c) := by
  cases leaving with
  | true => exact pop c
  | false => exact refl c

end Moved

theorem moveTo_eq (c : Context) (file : String) (line : Nat) :
    ∃ frames, c.moveTo file line = { c with frames := frames } := by
  unfold moveTo
  split
  · exact ⟨_, rfl⟩
  · exact ⟨_, rfl⟩

end Context

namespace Session

@[simp] theorem context?_setContext_self (s : Session) (c : Context) :
    (s.setContext c).context? c.id = some c :=
  Table.get?_set_self _ _ _

theorem context?_setContext (s : Session) (c : Context) (id : ContextId) :
    (s.setContext c).context? id = if c.id = id then some c else s.context? id :=
  Table.get?_set _ _ _ _

theorem setContext_setContext (s : Session) {c after : Context} (h : after.id = c.id) :
    (s.setContext c).setContext after = s.setContext after := by
  unfold setContext
  rw [h, Table.set_set]

theorem current?_eq_some_iff {s : Session} {c : Context} :
    s.current? = some c ↔ ∃ id, s.active.head? = some id ∧ s.context? id = some c := by
  unfold current?
  exact Option.bind_eq_some_iff

theorem frames_setContext {s : Session} {c : Context} (hhead : s.active.head? = some c.id) :
    (s.setContext c).frames = c.frames := by
  have hcurrent : (s.setContext c).current? = some c :=
    current?_eq_some_iff.mpr ⟨c.id, hhead, s.context?_setContext_self c⟩
  rw [frames, hcurrent]

theorem settle_start (s : Session) : (s.settle .start).2 = s := by
  simp only [settle]
  split
  · rfl
  · split
    · rfl
    · rfl

theorem settle_resumption (s : Session) (id : ContextId) (leaving : Bool) :
    (s.settle (.resumption id leaving)).2 = s ∨
      ∃ c, s.context? id = some c ∧
        (s.settle (.resumption id leaving)).2 = s.setContext c.pop := by
  simp only [settle]
  split
  · exact .inl rfl
  · rename_i c hget
    split
    · exact .inl rfl
    · cases leaving with
      | true => exact .inr ⟨c, hget, rfl⟩
      | false => exact .inl rfl

theorem settle_effect (s : Session) (wait : Wait) :
    (s.settle wait).2 = s ∨
      ∃ id c, s.context? id = some c ∧ (s.settle wait).2 = s.setContext c.pop := by
  cases wait with
  | start => exact .inl s.settle_start
  | resumption id leaving =>
      rcases s.settle_resumption id leaving with h | hpopped
      · exact .inl h
      · exact .inr ⟨id, hpopped⟩

theorem settle_of_outcome {s : Session} {id : ContextId} {c : Context}
    {outcome : Except Error Unit} (hget : s.context? id = some c)
    (houtcome : c.outcome? = some outcome) (leaving : Bool) :
    s.settle (.resumption id leaving) =
      (if leaving then s.setContext c.pop else s).returned outcome := by
  simp only [settle, hget, houtcome]

theorem settle_of_suspended {s : Session} {id : ContextId} {c : Context}
    (hget : s.context? id = some c) (hstopped : c.stopped = false)
    (hsuspended : c.isSuspended = true) (leaving : Bool) :
    s.settle (.resumption id leaving) = (.waiting (.resumption id leaving), s) := by
  have hwait : c.outcome? = none := by simp [Context.outcome?, hstopped, hsuspended]
  simp only [settle, hget, hwait]

theorem suspend_of_stopped (s : Session) {c : Context} (h : c.stopped = true) (leaving : Bool)
    (reason : String) :
    s.suspend c leaving reason =
      (s.setContext (if leaving then c.pop else c)).returned (.error .terminated) := by
  have hdone : c.outcome? = some (.error .terminated) := by simp [Context.outcome?, h]
  simp only [suspend, Context.suspend_of_stopped h, settle, context?_setContext_self, hdone]
  cases leaving with
  | true =>
      have hset : (s.setContext c).setContext c.pop = s.setContext c.pop :=
        s.setContext_setContext rfl
      simp only [if_true, hset]
  | false => rfl

/-- How an attempt to let a context wait turns out. -/
theorem suspend_eq (s : Session) {c : Context} (h : c.stopped = false) (leaving : Bool)
    (reason : String) :
    s.suspend c leaving reason =
      if s.transaction.isSome && s.outbox.isOpen then
        (.waiting (.resumption c.id leaving),
          (s.release .break (some reason) none).setContext c.halt)
      else
        ((s.release .break (some reason) none).setContext
          (if leaving then c.released.pop else c.released)).pass := by
  unfold suspend Context.suspend
  simp only [h, reportBreak_eq, Bool.false_eq_true, if_false]
  cases s.transaction.isSome && s.outbox.isOpen with
  | true =>
      have hwait : c.halt.outcome? = none := by
        simp [Context.outcome?, Context.halt, Context.isSuspended, h]
      have hget := context?_setContext_self (s.release .break (some reason) none) c.halt
      simp only [settle]
      rw [hget]
      simp only [hwait]
      rfl
  | false =>
      have hdone : c.released.outcome? = some (.ok ()) := by
        simp [Context.outcome?, Context.released, Context.halt, Context.isSuspended, h]
      have hget := context?_setContext_self (s.release .break (some reason) none) c.released
      change settle _ (.resumption c.released.id leaving) = _
      simp only [settle]
      rw [show { c.halt with run := .running } = c.released from rfl, hget]
      simp only [hdone, Bool.false_eq_true, if_false]
      cases leaving with
      | true =>
          have hset : ∀ s : Session,
              (s.setContext c.released).setContext c.released.pop =
                s.setContext c.released.pop :=
            fun s => s.setContext_setContext rfl
          simp only [if_true, hset]
          rfl
      | false => rfl

theorem wait?_suspend (s : Session) {c : Context} (h : c.stopped = false) (leaving : Bool)
    (reason : String) :
    (s.suspend c leaving reason).1.wait?.isSome = (s.transaction.isSome && s.outbox.isOpen) := by
  rw [s.suspend_eq h]
  split
  · rename_i htold
    exact htold.symm
  · rename_i htold
    exact (Bool.eq_false_iff.mpr htold).symm

theorem onExit_eq (s : Session) (c : Context) :
    s.onExit c =
      let function := (c.frames.head?.map Frame.function).getD ""
      let (hit, registry) := s.registry.hitLeave function
      let s := { s with registry := registry }
      if (s.guarded c hit).isSome then s.suspend c true ("Break on return: " ++ function)
      else if s.registry.flags.onExit then s.suspend c true ("Suspend on exit: " ++ function)
      else (s.setContext c.pop).pass := by
  unfold onExit
  cases c.frames with
  | nil => rfl
  | cons f rest => rfl

end Session

end ScriptDebugger
