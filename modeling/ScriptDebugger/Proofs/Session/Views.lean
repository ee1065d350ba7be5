import ScriptDebugger.Proofs.Session.HookEffect

/-!
Views of a session.  What the client is told shows in the pending transaction and in the queue.
Letting the debuggee run, wait or stop shows in its contexts, and the first time in how it starts.
A view of the rest of a session stays as it is.
-/

namespace ScriptDebugger

namespace Session

variable {α : Type} {view : Session → α}

def HidesTalk (view : Session → α) : Prop :=
  ∀ s transaction outbox, view { s with transaction := transaction, outbox := outbox } = view s

def HidesContexts (view : Session → α) : Prop :=
  ∀ s contexts, view { s with contexts := contexts } = view s

def HidesStart (view : Session → α) : Prop :=
  ∀ s initialized entryStep,
    view { s with initialized := initialized, entryStep := entryStep } = view s

/-- A view that shows nothing of the run of the debuggee. -/
structure Aside (view : Session → α) : Prop where
  talk : HidesTalk view
  contexts : HidesContexts view
  start : HidesStart view

namespace HidesTalk

variable (h : HidesTalk view)

include h

theorem adopt (s : Session) (transaction : Option String) :
    view (s.adopt transaction) = view s := by
  rw [adopt_eq]
  exact h s _ _

theorem reportBreak (s : Session) (reason : String) :
    view (s.reportBreak reason).2 = view s := by
  rw [reportBreak_eq]
  exact h s _ _

theorem reportEnd (s : Session) : view s.reportEnd = view s := by
  rw [reportEnd_eq]
  exact h s _ _

theorem write (s : Session) (stream : Stream) (text : String) :
    view (s.write stream text).2 = view s := by
  rcases s.write_effect stream text with hwrite | hwrite
  · rw [hwrite]
  · rw [hwrite]
    exact h s _ _

end HidesTalk

namespace HidesContexts

variable (h : HidesContexts view)

include h

theorem requestBreak (s : Session) : view s.requestBreak.2 = view s := by
  unfold Session.requestBreak
  split
  · exact h s _
  · rfl

theorem settle (s : Session) (wait : Wait) : view (s.settle wait).2 = view s := by
  rcases s.settle_effect wait with hsettle | ⟨id, c, _, hsettle⟩
  · rw [hsettle]
  · rw [hsettle]
    exact h s _

theorem stopContext (s : Session) (id : ContextId) : view (s.stopContext id) = view s := by
  unfold Session.stopContext
  split
  · exact h s _
  · rfl

theorem stopAll (s : Session) (ids : List ContextId) :
    view (ids.foldl Session.stopContext s) = view s := by
  induction ids generalizing s with
  | nil => rfl
  | cons id rest ih => exact (ih _).trans (h.stopContext s id)

theorem resume (hstart : HidesStart view) (s : Session) (mode : StepMode) :
    view (s.resume mode) = view s := by
  unfold Session.resume
  split
  · exact (h s.markInitialized _).trans (hstart s _ _)
  · exact hstart s _ _

theorem suspend (htalk : HidesTalk view) (s : Session) (c : Context) (leaving : Bool)
    (reason : String) : view (s.suspend c leaving reason).2 = view s := by
  have hrelease : view (s.release .break (some reason) none) = view s := htalk s _ _
  cases hstopped : c.stopped with
  | true =>
      rw [s.suspend_of_stopped hstopped]
      exact h s _
  | false =>
      rw [s.suspend_eq hstopped]
      split
      · exact (h _ _).trans hrelease
      · exact (h _ _).trans hrelease

end HidesContexts

namespace Aside

variable (h : Aside view)

include h

theorem resume (s : Session) (mode : StepMode) : view (s.resume mode) = view s :=
  h.contexts.resume h.start s mode

theorem suspend (s : Session) (c : Context) (leaving : Bool) (reason : String) :
    view (s.suspend c leaving reason).2 = view s :=
  h.contexts.suspend h.talk s c leaving reason

end Aside

theorem closed_aside : Aside closed where
  talk _ _ _ := rfl
  contexts _ _ := rfl
  start _ _ _ := rfl

theorem registry_aside : Aside registry where
  talk _ _ _ := rfl
  contexts _ _ := rfl
  start _ _ _ := rfl

theorem active_aside : Aside active where
  talk _ _ _ := rfl
  contexts _ _ := rfl
  start _ _ _ := rfl

theorem entryStep_hidesTalk : HidesTalk entryStep := fun _ _ _ => rfl

theorem entryStep_hidesContexts : HidesContexts entryStep := fun _ _ => rfl

theorem entryStep_close (s : Session) : s.close.entryStep = s.entryStep := by
  unfold close
  split
  · rfl
  · exact entryStep_hidesContexts.stopAll s s.active

end Session

end ScriptDebugger
