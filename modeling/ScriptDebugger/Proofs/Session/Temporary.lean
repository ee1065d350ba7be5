import ScriptDebugger.Proofs.Session.Guards

namespace ScriptDebugger

namespace Session

/-- A report is a hit of a temporary breakpoint that its policy lets stop. -/
structure Spends (s : Session) (event : Hook) (b : Breakpoint) : Prop where
  selected : s.selected? event = some b.id
  enabled : b.isEnabled = true
  temporary : b.temporary = true
  met : b.counted.policyMet = true

theorem get?_hook_eq_none_iff {s : Session} (hs : s.Reached) {id : Breakpoint.Id}
    {b : Breakpoint} (hget : s.registry.get? id = some b) (event : Hook) :
    (s.hook event).2.registry.get? id = none ↔ s.Spends event b := by
  have h := hs.consistent.1
  rw [registry_hook_selected, h.get?_hit_eq_none_iff hget, Breakpoint.expires, Bool.and_eq_true,
    ← h.id_eq hget]
  constructor
  · rintro ⟨hselected, henabled, hmet, htemporary⟩
    exact ⟨hselected, henabled, htemporary, hmet⟩
  · intro hspends
    exact ⟨hspends.selected, hspends.enabled, hspends.met, hspends.temporary⟩

theorem exists_removal {s : Session} {id : Breakpoint.Id} {b : Breakpoint}
    (hget : s.registry.get? id = some b) {operations : List Operation}
    (hgone : (s.run operations).registry.get? id = none) :
    ∃ before operation behind c, operations = before ++ operation :: behind ∧
      (s.run before).registry.get? id = some c ∧
        ((s.run before).after operation).registry.get? id = none := by
  induction operations generalizing s b with
  | nil => cases hget.symm.trans hgone
  | cons operation rest ih =>
      cases hafter : (s.after operation).registry.get? id with
      | none => exact ⟨[], operation, rest, b, rfl, hget, hafter⟩
      | some c =>
          obtain ⟨before, last, behind, d, rfl, hkept, hremoved⟩ := ih hafter hgone
          exact ⟨operation :: before, last, behind, d, rfl, hkept, hremoved⟩

/-- A report takes a breakpoint away just when it is a hit of it, the breakpoint is temporary, and
its policy is met, whatever its guard says.  Through any run it stays until a report does so, or
something other than a report removes it. -/
theorem temporary_lasts_until_met {s : Session} (hs : s.Reached) {id : Breakpoint.Id}
    {b : Breakpoint} (hget : s.registry.get? id = some b) :
    (∀ event, (s.hook event).2.registry.get? id = none ↔ s.Spends event b) ∧
    ∀ operations, (s.run operations).registry.get? id = none →
      ∃ before operation behind c, operations = before ++ operation :: behind ∧
        (s.run before).registry.get? id = some c ∧
          ((s.run before).after operation).registry.get? id = none ∧
            ∀ event, operation = .hook event → (s.run before).Spends event c := by
  refine ⟨get?_hook_eq_none_iff hs hget, fun operations hgone => ?_⟩
  obtain ⟨before, operation, behind, c, hsplit, hkept, hremoved⟩ := exists_removal hget hgone
  refine ⟨before, operation, behind, c, hsplit, hkept, hremoved, ?_⟩
  rintro event rfl
  exact (get?_hook_eq_none_iff (hs.run before) hkept event).mp hremoved

def guardedOnce : Breakpoint where
  kind := .conditional
  file := "/a.js"
  line := 1
  temporary := true
  expression := some "no"

theorem temporary_lasts_until_met_twice :
    let b := { guardedOnce with hitValue := 2, hitCondition := some .atLeast }
    let s := (opened {} refusing {}).run [.breakpoints (.add b), .enterContext]
    let event := Hook.line "/a.js" 1
    let once := s.after (.hook event)
    (s.hook event).2.registry.get? 1 ≠ none ∧ (once.hook event).2.registry.get? 1 = none := by
  intro b s event once
  have hs : s.Reached := ⟨_, _, _, _, rfl⟩
  have hfirst : s.registry.get? 1 = some { b with id := 1 } := by decide +kernel
  have hsecond : once.registry.get? 1 = some { b with id := 1, hitCount := 1 } := by
    decide +kernel
  constructor
  · intro hgone
    have hspends := ((temporary_lasts_until_met hs hfirst).1 event).mp hgone
    exact absurd hspends.met (by decide)
  · have hspends : once.Spends event { b with id := 1, hitCount := 1 } :=
      { selected := by decide +kernel
        enabled := by decide
        temporary := by decide
        met := by decide }
    exact ((temporary_lasts_until_met (hs.after (.hook event)) hsecond).1 event).mpr hspends

/-- The only hit of the breakpoint, which its guard rejects, takes it away. -/
theorem rejected_hit_spends_temporary :
    let s := (opened {} refusing {}).run [.breakpoints (.add guardedOnce), .enterContext]
    let event := Hook.line "/a.js" 1
    (s.registry.get? 1).bind Breakpoint.guard? = some "no" ∧ s.rejects event "no" = true ∧
      (s.hook event).1.wait? = none ∧ (s.hook event).2.registry.get? 1 = none := by
  decide +kernel

end Session

end ScriptDebugger
