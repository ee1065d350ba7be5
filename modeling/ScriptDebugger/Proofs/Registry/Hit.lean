import ScriptDebugger.Proofs.Registry.Index

namespace ScriptDebugger

namespace Breakpoint

/-- What a hit of a breakpoint comes to: the breakpoint with its new count, if it is enabled and
its policy lets it stop. -/
def hit? (b : Breakpoint) : Option Breakpoint :=
  if b.isEnabled && b.counted.policyMet then some b.counted else none

def expires (b : Breakpoint) : Bool :=
  b.counted.policyMet && b.temporary

end Breakpoint

namespace Registry

def countHit (r : Registry) (id : Breakpoint.Id) (b : Breakpoint) : Registry :=
  { r with entries := r.entries.set id b.counted }

theorem hitId_of_not_enabled {r : Registry} {id : Breakpoint.Id}
    (h : ∀ b, r.get? id = some b → b.isEnabled = false) : r.hitId id = (none, r) := by
  rw [hitId]
  cases hget : r.get? id with
  | none => rfl
  | some b => simp only [h b hget, Bool.false_eq_true, if_false]

theorem hitId_of_enabled {r : Registry} {id : Breakpoint.Id} {b : Breakpoint}
    (hget : r.get? id = some b) (henabled : b.isEnabled = true) :
    r.hitId id =
      (b.hit?,
        if b.expires then ((r.countHit id b).unindex b.counted).drop id else r.countHit id b) := by
  have htemporary : b.counted.temporary = b.temporary := rfl
  rw [hitId, hget, Breakpoint.hit?, Breakpoint.expires]
  simp only [henabled, htemporary, if_true, Bool.true_and]
  by_cases hmet : b.counted.policyMet = true
  · simp only [hmet, if_true, Bool.true_and]
    split
    · rfl
    · rfl
  · simp only [hmet, Bool.false_eq_true, if_false, Bool.false_and]
    rfl

theorem fst_hit (r : Registry) (selected : Option Breakpoint.Id) :
    (r.hit selected).1 = (selected.bind r.get?).bind Breakpoint.hit? := by
  cases selected with
  | none => rfl
  | some id =>
      rw [hit, Option.bind_some]
      cases hget : r.get? id with
      | none =>
          rw [hitId_of_not_enabled (by simp [hget])]
          rfl
      | some b =>
          rw [Option.bind_some]
          cases henabled : b.isEnabled with
          | false =>
              rw [hitId_of_not_enabled (by simp [hget, henabled]), Breakpoint.hit?, henabled]
              rfl
          | true => rw [hitId_of_enabled hget henabled]

/-- A hit leaves the registry alone, or counts for an enabled breakpoint and drops it if that was
its last. -/
theorem hit_cases (r : Registry) (selected : Option Breakpoint.Id) :
    (r.hit selected).2 = r ∨
      ∃ id b, selected = some id ∧ r.get? id = some b ∧ b.isEnabled = true ∧
        ((r.hit selected).2 = r.countHit id b ∨
          r.hit selected =
            (some b.counted, ((r.countHit id b).unindex b.counted).drop id)) := by
  cases selected with
  | none => exact .inl rfl
  | some id =>
      by_cases hstored : ∃ b, r.get? id = some b ∧ b.isEnabled = true
      · obtain ⟨b, hget, henabled⟩ := hstored
        refine .inr ⟨id, b, rfl, hget, henabled, ?_⟩
        rw [hit, hitId_of_enabled hget henabled]
        cases hlast : b.expires with
        | false => exact .inl rfl
        | true =>
            have hmet : b.counted.policyMet = true := (Bool.and_eq_true_iff.mp hlast).1
            rw [Breakpoint.hit?, henabled, hmet]
            exact .inr rfl
      · refine .inl (congrArg Prod.snd (hitId_of_not_enabled fun b hget => ?_))
        exact Bool.eq_false_iff.mpr fun henabled => hstored ⟨b, hget, henabled⟩

theorem get?_hitId {r : Registry} {id : Breakpoint.Id} {b : Breakpoint}
    (hget : r.get? id = some b) (henabled : b.isEnabled = true) :
    (r.hitId id).2.get? id = if b.expires then none else some b.counted := by
  rw [hitId_of_enabled hget henabled]
  dsimp only
  split
  · exact (get?_drop _ _ _).trans (if_pos rfl)
  · exact Table.get?_set_self _ _ _

end Registry

end ScriptDebugger
