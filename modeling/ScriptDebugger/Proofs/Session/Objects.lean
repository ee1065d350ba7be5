import ScriptDebugger.Proofs.Session.Contexts

namespace ScriptDebugger

namespace Session

def objects (s : Session) : Heap × Host × Table ObjectId Location :=
  (s.heap, s.host, s.lastWrites)

theorem objects_eq_iff {s : Session} {heap : Heap} {host : Host}
    {lastWrites : Table ObjectId Location} :
    s.objects = (heap, host, lastWrites) ↔
      s.heap = heap ∧ s.host = host ∧ s.lastWrites = lastWrites := by
  simp [objects]

theorem objects_aside : Aside objects where
  talk _ _ _ := rfl
  contexts _ _ := rfl
  start _ _ _ := rfl

theorem objects_close (s : Session) : s.close.objects = s.objects := by
  unfold close
  split
  · rfl
  · exact objects_aside.contexts.stopAll s s.active

theorem objects_hook (s : Session) (event : Hook) :
    ((s.closed = true ∨ s.current? = none) ∧ (s.hook event).2.objects = s.objects) ∨
      s.closed = false ∧ ∃ c, s.current? = some c ∧
        (s.hook event).2.objects = (s.heap, s.host, s.writesAfter c event) := by
  rcases s.hook_effect event with ⟨hclosed, h⟩ | ⟨_, hnone, h⟩ | ⟨hopen, c, hcurrent, heffect⟩
  · rw [h]
    exact .inl ⟨.inl hclosed, rfl⟩
  · rw [h]
    exact .inl ⟨.inr hnone, rfl⟩
  · refine .inr ⟨hopen, c, hcurrent, ?_⟩
    generalize s.hook event = result at heffect
    cases heffect with
    | passed _ hwrites =>
        rw [← hwrites]
        rfl
    | asked _ _ leaving reason hwrites =>
        rw [← hwrites]
        exact objects_aside.suspend _ _ leaving reason

/-- Whether an operation may change the objects of the debuggee. -/
def Operation.assigns : Operation → Bool
  | .command line =>
      match Command.parse line with
      | .ok c => c.name == "property_set"
      | .error _ => false
  | .mutate _ => true
  | _ => false

theorem objects_dispatch (s : Session) (line : String) :
    (s.dispatch line).host = s.host ∧ (s.dispatch line).lastWrites = s.lastWrites ∧
      ((Operation.command line).assigns = false → (s.dispatch line).heap = s.heap) := by
  rcases s.dispatch_effect line with ⟨h, _⟩ | ⟨c, hparse, heffect⟩
  · rw [h]
    exact ⟨rfl, rfl, fun _ => rfl⟩
  · have hsame : ∀ {after : Session}, after.objects = s.objects →
        after.host = s.host ∧ after.lastWrites = s.lastWrites ∧
          ((Operation.command line).assigns = false → after.heap = s.heap) := by
      intro after h
      obtain ⟨hheap, hhost, hwrites⟩ := objects_eq_iff.mp h
      exact ⟨hhost, hwrites, fun _ => hheap⟩
    generalize s.dispatch line = result at heffect
    cases heffect with
    | resumed _ => exact hsame ((objects_aside.resume _ _).trans (objects_aside.talk.adopt s _))
    | interrupted _ _ => exact hsame (objects_aside.contexts.requestBreak s)
    | stopped _ => exact hsame ((objects_close _).trans (objects_aside.talk.reportEnd s))
    | answered _ _ hheap =>
        refine ⟨rfl, rfl, ?_⟩
        intro hassigns
        simp only [Operation.assigns, hparse, beq_eq_false_iff_ne] at hassigns
        exact hheap hassigns

/-- Nothing changes the host, and only an assignment changes the objects. -/
theorem objects_after (s : Session) (operation : Operation) :
    (s.after operation).host = s.host ∧
      (operation.assigns = false → (s.after operation).heap = s.heap) ∧
        ((∀ event, operation ≠ .hook event) → (s.after operation).lastWrites = s.lastWrites) := by
  have hsame : (s.after operation).objects = s.objects →
      (s.after operation).host = s.host ∧
        (operation.assigns = false → (s.after operation).heap = s.heap) ∧
          ((∀ event, operation ≠ .hook event) →
            (s.after operation).lastWrites = s.lastWrites) := by
    intro h
    obtain ⟨hheap, hhost, hwrites⟩ := objects_eq_iff.mp h
    exact ⟨hhost, fun _ => hheap, fun _ => hwrites⟩
  cases operation with
  | command line =>
      obtain ⟨hhost, hwrites, hheap⟩ := s.objects_dispatch line
      exact ⟨hhost, hheap, fun _ => hwrites⟩
  | hook event =>
      rcases s.objects_hook event with ⟨_, h⟩ | ⟨_, c, _, h⟩
      · exact hsame h
      · obtain ⟨hheap, hhost, _⟩ := objects_eq_iff.mp h
        exact ⟨hhost, fun _ => hheap, fun hother => absurd rfl (hother event)⟩
  | mutate heap => exact ⟨rfl, nofun, fun _ => rfl⟩
  | awaitStart => exact hsame (objects_aside.contexts.settle s .start)
  | proceed wait => exact hsame (objects_aside.contexts.settle s wait)
  | enterContext =>
      apply hsame
      simp only [after, perform, enterContext]
      split
      · rename_i h
        split at h
        · cases h
        · cases h
          rfl
      · rfl
  | adopt transaction => exact hsame (objects_aside.talk.adopt s transaction)
  | resume mode => exact hsame (objects_aside.resume s mode)
  | requestBreak => exact hsame (objects_aside.contexts.requestBreak s)
  | reportBreak reason => exact hsame (objects_aside.talk.reportBreak s reason)
  | reportEnd => exact hsame (objects_aside.talk.reportEnd s)
  | finish => exact hsame ((objects_close _).trans (objects_aside.talk.reportEnd s))
  | close => exact hsame s.objects_close
  | write stream text => exact hsame (objects_aside.talk.write s stream text)
  | exitContext id | markInitialized | announce fileUri | addListener tag | removeListener id
  | breakpoints operation | configure settings | redirect streams | dropClient | collect =>
      exact hsame rfl

end Session

end ScriptDebugger
