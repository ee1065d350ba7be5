import ScriptDebugger.Proofs.Registry.HitCount

namespace ScriptDebugger

/-- An enabled breakpoint for the exceptions of a class.  Without a name, or with an empty one or a
star, it is for every class. -/
structure Breakpoint.Concerns (b : Breakpoint) (className : String) : Prop where
  kind : b.kind = .exception
  enabled : b.isEnabled = true
  name : b.exception ∈ [none, some "", some "*", some className]

theorem Breakpoint.concerns_iff {b : Breakpoint} {className : String} :
    b.Concerns className ↔
      (b.kind == .exception && b.isEnabled && b.matchesException className) = true := by
  have hname : b.exception ∈ [none, some "", some "*", some className] ↔
      b.matchesException className = true := by
    unfold matchesException
    cases b.exception with
    | none => simp
    | some expected => simp [or_assoc]
  rw [Bool.and_eq_true, Bool.and_eq_true, beq_iff_eq, ← hname]
  exact ⟨fun h => ⟨⟨h.kind, h.enabled⟩, h.name⟩, fun h => ⟨h.1.1, h.1.2, h.2⟩⟩

namespace Registry

open Breakpoint

/-- A breakpoint is the first of those that an exception concerns. -/
structure FirstFor (r : Registry) (className : String) (id : Breakpoint.Id) (b : Breakpoint) :
    Prop where
  stored : r.get? id = some b
  concerns : b.Concerns className
  least : ∀ {other c}, r.get? other = some c → c.Concerns className → id ≤ other

section Selection

variable {r : Registry} (h : r.Consistent) (hordered : r.Ordered)

include h hordered

theorem firstFor_of_exceptionFor? {className : String} {id : Breakpoint.Id}
    (hselected : r.exceptionFor? className = some id) : ∃ b, r.FirstFor className id b := by
  obtain ⟨b, hfind, rfl⟩ := Option.map_eq_some_iff.mp hselected
  rw [list, Table.values, List.find?_map] at hfind
  obtain ⟨entry, hentry, rfl⟩ := Option.map_eq_some_iff.mp hfind
  obtain ⟨hconcerns, before, behind, hsplit, hbefore⟩ := List.find?_eq_some_iff_append.mp hentry
  have hmem : entry ∈ r.entries := List.mem_of_find?_eq_some hentry
  have hget := hordered.get?_of_mem hmem
  have hid : entry.2.id = entry.1 := h.id_eq hget
  refine ⟨entry.2, hid ▸ hget, concerns_iff.mpr hconcerns, ?_⟩
  intro other c hother hc
  have hsorted : (before ++ entry :: behind).Pairwise fun x y => x.1 < y.1 :=
    hsplit ▸ List.pairwise_map.mp hordered
  rw [hid]
  -- Those in front of the first one do not concern the exception, and those behind it come later.
  have hplace : (other, c) ∈ before ++ entry :: behind := hsplit ▸ Table.mem_of_get? hother
  rcases List.mem_append.mp hplace with hfront | hrest
  · have hnot : (c.kind == .exception && c.isEnabled && c.matchesException className) = false :=
      Bool.not_eq_eq_eq_not.mp (hbefore _ hfront)
    cases (concerns_iff.mp hc).symm.trans hnot
  · rcases List.mem_cons.mp hrest with heq | hlater
    · exact Nat.le_of_eq (congrArg Prod.fst heq).symm
    · have htail := (List.pairwise_append.mp hsorted).2.1
      exact Nat.le_of_lt (List.rel_of_pairwise_cons htail hlater)

theorem exists_firstFor {className : String} {id : Breakpoint.Id} {b : Breakpoint}
    (hget : r.get? id = some b) (hconcerns : b.Concerns className) :
    ∃ first c, r.exceptionFor? className = some first ∧ r.FirstFor className first c := by
  cases hselected : r.exceptionFor? className with
  | none =>
      have hnone := List.find?_eq_none.mp (Option.map_eq_none_iff.mp hselected)
      exact absurd (concerns_iff.mp hconcerns) (hnone b (mem_list_of_get? hget))
  | some first =>
      obtain ⟨c, hfirst⟩ := firstFor_of_exceptionFor? h hordered hselected
      exact ⟨first, c, rfl, hfirst⟩

theorem FirstFor.exceptionFor?_eq {className : String} {id : Breakpoint.Id} {b : Breakpoint}
    (hfirst : r.FirstFor className id b) : r.exceptionFor? className = some id := by
  obtain ⟨first, c, hselected, hother⟩ := exists_firstFor h hordered hfirst.stored hfirst.concerns
  have hsame : first = id :=
    Nat.le_antisymm (hother.least hfirst.stored hfirst.concerns)
      (hfirst.least hother.stored hother.concerns)
  rw [hselected, hsame]

theorem FirstFor.fst_hitException {className : String} {id : Breakpoint.Id} {b : Breakpoint}
    (hfirst : r.FirstFor className id b) :
    (r.hitException className).1 = if b.counted.policyMet then some b.counted else none := by
  rw [hitException, fst_hit, hfirst.exceptionFor?_eq h hordered, Option.bind_some, hfirst.stored,
    Option.bind_some, hit?, hfirst.concerns.enabled, Bool.true_and]

theorem fst_hitException_eq_some_iff {className : String} {fired : Breakpoint} :
    (r.hitException className).1 = some fired ↔
      ∃ id b, r.FirstFor className id b ∧ b.counted.policyMet = true ∧ fired = b.counted := by
  constructor
  · intro hfired
    cases hselected : r.exceptionFor? className with
    | none =>
        rw [hitException, hselected] at hfired
        cases hfired
    | some id =>
        obtain ⟨b, hfirst⟩ := firstFor_of_exceptionFor? h hordered hselected
        rw [hfirst.fst_hitException h hordered, Option.ite_none_right_eq_some] at hfired
        exact ⟨id, b, hfirst, hfired.1, (Option.some.inj hfired.2).symm⟩
  · rintro ⟨id, b, hfirst, hmet, rfl⟩
    rw [hfirst.fst_hitException h hordered, if_pos hmet]

end Selection

/-- An exception fires the first enabled breakpoint for it, if the policy of this one lets it, and
else none.  So a breakpoint that would fire is passed over only if the first one has a smaller id and
a policy that rejects the hit; and all but the first stay as they are and count nothing. -/
theorem exception_decided_by_first (operations : List Operation) (className : String) :
    (∀ fired, ((empty.run operations).hitException className).1 = some fired ↔
      ∃ id b, (empty.run operations).FirstFor className id b ∧
        (∀ condition, b.hitCondition = some condition →
          condition.isMet b.hitValue b.counted.hitCount = true) ∧
        fired = b.counted) ∧
    (∀ id b, (empty.run operations).get? id = some b → b.Concerns className →
      b.counted.policyMet = true → ((empty.run operations).hitException className).1 = none →
        ∃ first c, (empty.run operations).FirstFor className first c ∧ first < id ∧
          c.counted.policyMet = false) ∧
    ∀ id, (∀ b, ¬(empty.run operations).FirstFor className id b) →
      ((empty.run operations).hitException className).2.get? id =
        (empty.run operations).get? id := by
  have h := Consistent.empty.run operations
  have hordered := Ordered.run (r := empty) List.Pairwise.nil .empty operations
  refine ⟨?_, ?_, ?_⟩
  · intro fired
    simp only [fst_hitException_eq_some_iff h hordered, policyMet_iff]
    rfl
  · intro id b hget hconcerns hmet hnone
    obtain ⟨first, c, -, hfirst⟩ := exists_firstFor h hordered hget hconcerns
    rw [hfirst.fst_hitException h hordered] at hnone
    have hrejects : c.counted.policyMet = false := by
      rw [← Bool.not_eq_true]
      intro hc
      rw [if_pos hc] at hnone
      cases hnone
    refine ⟨first, c, hfirst, Nat.lt_of_le_of_ne (hfirst.least hget hconcerns) ?_, hrejects⟩
    rintro rfl
    cases hfirst.stored.symm.trans hget
    cases hrejects.symm.trans hmet
  · intro id hid
    refine h.get?_hit_of_ne fun hselected => ?_
    obtain ⟨b, hfirst⟩ := firstFor_of_exceptionFor? h hordered hselected
    exact hid b hfirst

/-- A breakpoint for the second exception of any class keeps one without a policy from the first. -/
theorem first_for_exception_masks :
    let r := empty.run
      [.add { kind := .exception, hitValue := 2, hitCondition := some .equal },
        .add { kind := .exception, exception := some "E" }]
    (∃ b, r.get? 2 = some b ∧ b.Concerns "E" ∧ b.hitCondition = none) ∧
      (r.hitException "E").1 = none := by
  intro r
  refine ⟨⟨{ id := 2, kind := .exception, exception := some "E" }, ?_, ⟨rfl, rfl, ?_⟩, rfl⟩, ?_⟩
  · decide +kernel
  · simp
  · decide +kernel

end Registry

end ScriptDebugger
