import ScriptDebugger.Proofs.Registry.Update

namespace ScriptDebugger.Registry

open Breakpoint

namespace Consistent

variable {r : Registry}

theorem get?_hit_of_ne (h : r.Consistent) {selected : Option Breakpoint.Id} {id : Breakpoint.Id}
    (hne : selected ≠ some id) : (r.hit selected).2.get? id = r.get? id := by
  rcases h.hit_cases selected with hsame | ⟨b, hselected, _, _, hafter⟩
  · rw [hsame]
  · have hid : b.counted.id ≠ id := fun hid => hne (hselected.trans (congrArg some hid))
    have hput : (r.put b.counted).get? id = r.get? id :=
      (r.get?_put b.counted id).trans (if_neg hid)
    rcases hafter with hcounted | hdropped
    · rw [hcounted, hput]
    · rw [hdropped, get?_drop, get?_unindex, hput]
      exact if_neg hid

theorem get?_of_hit (h : r.Consistent) {selected : Option Breakpoint.Id} {id : Breakpoint.Id}
    {b : Breakpoint} (hget : (r.hit selected).2.get? id = some b) :
    ∃ old, r.get? id = some old ∧
      b = if selected = some id ∧ old.isEnabled = true then old.counted else old := by
  by_cases hselected : selected = some id
  · subst hselected
    rw [Registry.hit] at hget
    cases hstored : r.get? id with
    | none =>
        rw [hitId_of_not_enabled (by simp [hstored]), hstored] at hget
        cases hget
    | some old =>
        refine ⟨old, rfl, ?_⟩
        cases henabled : old.isEnabled with
        | false =>
            rw [hitId_of_not_enabled (by simp [hstored, henabled]), hstored] at hget
            simpa using (Option.some.inj hget).symm
        | true =>
            rw [get?_hitId hstored henabled, Option.ite_none_left_eq_some] at hget
            rw [if_pos ⟨rfl, rfl⟩]
            exact (Option.some.inj hget.2).symm
  · rw [h.get?_hit_of_ne hselected] at hget
    exact ⟨b, hget, (if_neg fun hboth => hselected hboth.1).symm⟩

/-- A hit takes away just the breakpoint that is selected, enabled and at its last hit. -/
theorem get?_hit_eq_none_iff (h : r.Consistent) {selected : Option Breakpoint.Id}
    {id : Breakpoint.Id} {b : Breakpoint} (hget : r.get? id = some b) :
    (r.hit selected).2.get? id = none ↔
      selected = some id ∧ b.isEnabled = true ∧ b.expires = true := by
  by_cases hselected : selected = some id
  · subst hselected
    rw [Registry.hit]
    cases henabled : b.isEnabled with
    | false =>
        rw [hitId_of_not_enabled (by simp [hget, henabled]), hget]
        simp
    | true =>
        rw [get?_hitId hget henabled]
        simp
  · rw [h.get?_hit_of_ne hselected, hget]
    simp [hselected]

end Consistent

def selected? (r : Registry) : Operation → Option Breakpoint.Id
  | .hitLine file line => r.lookup (.line ⟨file, line⟩)
  | .hitCall name => r.lookup (.call name)
  | .hitLeave name => r.lookup (.leave name)
  | .hitException className => r.exceptionFor? className
  | _ => none

inductive Source (r : Registry) (operation : Operation) (id : Breakpoint.Id) (b : Breakpoint) :
    Prop where
  | added (a : Breakpoint) (hoperation : operation = .add a)
      (hissued : r.issued? operation = some id) (hb : b = { a with id := id, hitCount := 0 })
  | revised (old : Breakpoint) (u : BreakpointUpdate) (hoperation : operation = .update id u)
      (hget : r.get? id = some old) (hb : b = old.revised u)
  | kept (old : Breakpoint) (hget : r.get? id = some old)
      (hb : b = if r.selected? operation = some id ∧ old.isEnabled = true then old.counted else old)

theorem get?_of_index {r : Registry} {b c : Breakpoint} {id : Breakpoint.Id}
    (h : (r.index b).get? id = some c) : r.get? id = some c := by
  rw [get?_index] at h
  split at h
  · cases h
  · exact h

namespace Source

variable {r : Registry} {operation : Operation} {id : Breakpoint.Id} {b : Breakpoint}

theorem same (hselected : r.selected? operation = none) (hget : r.get? id = some b) :
    Source r operation id b :=
  .kept b hget (by simp [hselected])

theorem ofAdd {a : Breakpoint} {issued : Breakpoint.Id} {after : Registry}
    (hadd : r.add a = .ok (issued, after)) (hget : after.get? id = some b) :
    Source r (.add a) id b := by
  obtain ⟨_, _, rfl⟩ := add_eq_ok hadd
  rw [get?_put] at hget
  split at hget
  · rename_i hid
    obtain rfl : issued = id := hid
    refine .added a rfl ?_ (Option.some.inj hget).symm
    rw [issued?, hadd]
  · exact .same rfl (get?_of_index (r := { r with lastId := issued }) hget)

theorem ofRemove {removed : Breakpoint.Id} {gone : Breakpoint} {after : Registry}
    (hremove : r.remove removed = .ok (gone, after)) (hget : after.get? id = some b) :
    Source r (.remove removed) id b := by
  obtain ⟨_, rfl⟩ := remove_eq_ok hremove
  rw [get?_unindex, get?_drop] at hget
  split at hget
  · cases hget
  · exact .same rfl hget

theorem ofUpdate (h : r.Consistent) {changed : Breakpoint.Id} {u : BreakpointUpdate}
    {c : Breakpoint} {after : Registry} (hupdate : r.update changed u = .ok (c, after))
    (hget : after.get? id = some b) : Source r (.update changed u) id b := by
  obtain ⟨old, hold, hstored, hc, hexchanged⟩ := h.update_exchanged hupdate
  by_cases hid : id = changed
  · subst hid
    cases hstored.symm.trans hget
    exact .revised old u rfl hold hc
  · have hother : id ≠ c.id := by
      rw [hc, (old.sameSubject_revised u).id, h.id_eq hold]
      exact hid
    rw [hexchanged.others id hother] at hget
    split at hget
    · cases hget
    · exact .same rfl hget

theorem of_get? (h : r.Consistent) (hget : (r.after operation).get? id = some b) :
    Source r operation id b := by
  have hhit (selected : Option Breakpoint.Id) (heq : r.selected? operation = selected)
      (hget : (r.hit selected).2.get? id = some b) : Source r operation id b := by
    obtain ⟨old, hold, hb⟩ := h.get?_of_hit hget
    exact .kept old hold (heq ▸ hb)
  cases operation with
  | add a =>
      exact orElse_induction
        (motive := fun after => after.get? id = some b → Source r (.add a) id b)
        (.same rfl) .ofAdd hget
  | remove removed =>
      exact orElse_induction
        (motive := fun after => after.get? id = some b → Source r (.remove removed) id b)
        (.same rfl) .ofRemove hget
  | update changed u =>
      exact orElse_induction
        (motive := fun after => after.get? id = some b → Source r (.update changed u) id b)
        (.same rfl) (.ofUpdate h) hget
  | hitLine file line => exact hhit _ rfl hget
  | hitCall name => exact hhit _ rfl hget
  | hitLeave name => exact hhit _ rfl hget
  | hitException className => exact hhit _ rfl hget
  | switch change => exact .same rfl hget
  | clear => cases hget

end Source

def Operation.Takes : Operation → Prop
  | .remove _ | .switch _ | .clear => True
  | _ => False

theorem Consistent.get?_of_run_takes {r : Registry} (h : r.Consistent) {changes : List Operation}
    (htakes : ∀ change ∈ changes, change.Takes) {id : Breakpoint.Id} {b : Breakpoint}
    (hget : (r.run changes).get? id = some b) : r.get? id = some b := by
  induction changes generalizing r with
  | nil => exact hget
  | cons change rest ih =>
      have hafter := ih (h.after change) (fun other hother => htakes other (.tail _ hother)) hget
      have htake : change.Takes := htakes change List.mem_cons_self
      cases Source.of_get? h hafter with
      | added _ hoperation =>
          subst hoperation
          exact htake.elim
      | revised _ _ hoperation =>
          subst hoperation
          exact htake.elim
      | kept old hold hb =>
          have hselected : r.selected? change = none := by
            cases change with
            | remove _ | switch _ | clear => rfl
            | _ => exact htake.elim
          rw [hb, hselected, if_neg nofun]
          exact hold

end ScriptDebugger.Registry
