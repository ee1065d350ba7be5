import ScriptDebugger.Proofs.Registry.Disabled
import ScriptDebugger.Proofs.Registry.Source

namespace ScriptDebugger.Registry

open Breakpoint

def fired? (r : Registry) : Operation → Option Breakpoint
  | .hitLine file line => (r.hitLine file line).1
  | .hitCall name => (r.hitCall name).1
  | .hitLeave name => (r.hitLeave name).1
  | .hitException className => (r.hitException className).1
  | _ => none

/-- The breakpoints that events fire, one after the other. -/
def fired (r : Registry) : List Operation → List Breakpoint
  | [] => []
  | operation :: rest => (r.fired? operation).toList ++ (r.after operation).fired rest

/-- Nothing that a registry is asked tells of a breakpoint. -/
structure Lacks (r : Registry) (id : Breakpoint.Id) : Prop where
  get? : r.get? id = none
  remove : r.remove id = .error (.breakpointNotFound (Id.text id))
  update : ∀ u, r.update id u = .error (.breakpointNotFound (Id.text id))
  list : ∀ b ∈ r.list, b.id ≠ id
  lookup : ∀ k, r.lookup k ≠ some id
  exceptionFor? : ∀ className, r.exceptionFor? className ≠ some id
  watchersOf : ∀ property, ∀ b ∈ r.watchersOf property, b.id ≠ id

theorem Consistent.lacks {r : Registry} (h : r.Consistent) (hordered : r.Ordered)
    {id : Breakpoint.Id} (hgone : r.get? id = none) : r.Lacks id where
  get? := hgone
  remove := by rw [Registry.remove, hgone]
  update := by
    intro u
    rw [Registry.update, hgone]
  list := by
    rintro b hmem rfl
    obtain ⟨entry, hentry, rfl⟩ := List.mem_map.mp hmem
    have hget := hordered.get?_of_mem hentry
    rw [h.id_eq hget, hget] at hgone
    cases hgone
  lookup := h.lookup_ne hgone
  exceptionFor? := by
    intro className hselected
    obtain ⟨b, hget, _⟩ := exceptionFor?_eq_some h hordered hselected
    cases hgone.symm.trans hget
  watchersOf := by
    rintro property b hmem rfl
    obtain ⟨id, _, hget⟩ := List.mem_filterMap.mp hmem
    rw [h.id_eq hget, hget] at hgone
    cases hgone

theorem after_of_fired? {r : Registry} {operation : Operation} {b : Breakpoint}
    (hfired : r.fired? operation = some b) :
    r.after operation = (r.hit (r.selected? operation)).2 := by
  cases operation with
  | add _ | remove _ | update _ _ | switch _ | clear => cases hfired
  | hitLine _ _ | hitCall _ | hitLeave _ | hitException _ => rfl

theorem fired?_eq (r : Registry) (operation : Operation) :
    r.fired? operation = ((r.selected? operation).bind r.get?).bind hit? := by
  cases operation with
  | add _ | remove _ | update _ _ | switch _ | clear => rfl
  | hitLine _ _ | hitCall _ | hitLeave _ | hitException _ => exact fst_hit _ _

theorem Consistent.fired?_eq_some {r : Registry} (h : r.Consistent) {operation : Operation}
    {b : Breakpoint} (hfired : r.fired? operation = some b) :
    r.selected? operation = some b.id ∧
      ∃ old, r.get? b.id = some old ∧ old.isEnabled = true ∧ old.counted.policyMet = true ∧
        b = old.counted := by
  rw [r.fired?_eq] at hfired
  obtain ⟨old, hselected, hhit⟩ := Option.bind_eq_some_iff.mp hfired
  obtain ⟨id, hid, hget⟩ := Option.bind_eq_some_iff.mp hselected
  obtain ⟨hmet, hb⟩ := Option.ite_none_right_eq_some.mp hhit
  obtain rfl := Option.some.inj hb
  obtain rfl : old.id = id := h.id_eq hget
  obtain ⟨henabled, hpolicy⟩ := Bool.and_eq_true_iff.mp hmet
  exact ⟨hid, old, hget, henabled, hpolicy, rfl⟩

theorem hasExceptions_drop {r : Registry} (h : r.Consistent) (hordered : r.Ordered)
    (id : Breakpoint.Id) :
    (r.drop id).hasExceptions =
      r.list.any fun other => other.kind == .exception && other.id != id := by
  rw [hasExceptions, list, list, Table.values, Table.values, List.any_map, List.any_map, drop,
    Table.remove, List.any_filter, Bool.eq_iff_iff, List.any_eq_true, List.any_eq_true]
  refine exists_congr fun entry => and_congr_right fun hmem => ?_
  have hid : entry.2.id = entry.1 := h.id_eq (hordered.get?_of_mem hmem)
  simp [hid, and_comm]

/-- An event that fires a temporary breakpoint takes away this one and no other, and the switch for
exceptions with the last breakpoint for them. -/
theorem Consistent.after_fired {r : Registry} (h : r.Consistent) (hordered : r.Ordered)
    {operation : Operation} {b : Breakpoint} (hfired : r.fired? operation = some b)
    (htemporary : b.temporary = true) :
    (r.after operation).get? b.id = none ∧
      (∀ other, other ≠ b.id → (r.after operation).get? other = r.get? other) ∧
        (r.after operation).flags =
          if b.kind = .exception ∧ (r.after operation).hasExceptions = false then
            { r.flags with onException := false }
          else r.flags := by
  obtain ⟨hselected, old, hget, henabled, hmet, rfl⟩ := h.fired?_eq_some hfired
  have hexpires : old.expires = true := Bool.and_eq_true_iff.mpr ⟨hmet, htemporary⟩
  have hvalid := h.valid hget
  have hput : (r.put old.counted).Consistent := h.put (b := old.counted) hget rfl rfl hvalid
  have hputOrdered : (r.put old.counted).Ordered := hordered.put_of_stored (b := old.counted) hget
  have hafter : r.after operation =
      ((r.put old.counted).unindex old.counted).drop old.counted.id := by
    rw [after_of_fired? hfired, hselected, Registry.hit, hitId_of_enabled hget henabled,
      if_pos hexpires]
    rfl
  refine ⟨?_, fun other hother => ?_, ?_⟩
  · rw [after_of_fired? hfired]
    exact (h.get?_hit_eq_none_iff hget).mpr ⟨hselected, henabled, hexpires⟩
  · rw [after_of_fired? hfired]
    refine h.get?_hit_of_ne fun hsame => hother ?_
    exact (Option.some.inj (hselected.symm.trans hsame)).symm
  · have hleft : (r.after operation).hasExceptions =
        (r.put old.counted).list.any fun other =>
          other.kind == .exception && other.id != old.counted.id := by
      rw [hafter, ← hasExceptions_drop hput hputOrdered, hasExceptions, hasExceptions, list, list,
        drop, drop, entries_unindex]
    rw [hleft, hafter]
    by_cases hkind : old.counted.kind = .exception
    · refine (flags_unindex_of_exception (r := r.put old.counted) hkind).trans ?_
      rw [flags_put]
      cases (r.put old.counted).list.any fun other =>
          other.kind == .exception && other.id != old.counted.id with
      | true => simp
      | false => simp [hkind]
    · rw [if_neg fun hboth => hkind hboth.1]
      exact flags_unindex_of_ne hkind _

theorem lastId_le_after (r : Registry) (operation : Operation) :
    r.lastId ≤ (r.after operation).lastId := by
  rcases r.issued?_cases operation with ⟨_, hsame⟩ | ⟨_, _, hnext⟩
  · exact Nat.le_of_eq hsame.symm
  · rw [hnext]
    exact Nat.le_succ _

theorem lastId_le_run (r : Registry) (operations : List Operation) :
    r.lastId ≤ (r.run operations).lastId := by
  obtain ⟨count, _, hlast, _⟩ := r.issued_eq_range' operations
  rw [hlast]
  exact Nat.le_add_right _ _

theorem lt_of_mem_issued {r : Registry} {operations : List Operation} {id : Breakpoint.Id}
    (hmem : id ∈ r.issued operations) : r.lastId < id := by
  obtain ⟨count, _, _, hissued⟩ := r.issued_eq_range' operations
  rw [hissued] at hmem
  exact (List.mem_range'_1.mp hmem).1

theorem issued?_ne {r : Registry} {id : Breakpoint.Id} (hid : id ≤ r.lastId)
    (operation : Operation) : r.issued? operation ≠ some id := by
  intro hissued
  rcases r.issued?_cases operation with ⟨hnone, _⟩ | ⟨_, hnext, _⟩
  · cases hnone.symm.trans hissued
  · obtain rfl := Option.some.inj (hnext.symm.trans hissued)
    exact absurd hid (Nat.not_succ_le_self _)

theorem run_append (r : Registry) (first second : List Operation) :
    r.run (first ++ second) = (r.run first).run second :=
  List.foldl_append

theorem fired_append (r : Registry) (first second : List Operation) :
    r.fired (first ++ second) = r.fired first ++ (r.run first).fired second := by
  induction first generalizing r with
  | nil => rfl
  | cons operation rest ih =>
      rw [List.cons_append, fired, ih, fired, List.append_assoc]
      rfl

structure Spent (r : Registry) (id : Breakpoint.Id) : Prop where
  issued : id ≤ r.lastId
  gone : r.get? id = none

/-- An id was handed out, and what stands under it is temporary. -/
structure Fleeting (r : Registry) (id : Breakpoint.Id) : Prop where
  issued : id ≤ r.lastId
  temporary : ∀ b, r.get? id = some b → b.temporary = true

namespace Fleeting

variable {r : Registry} {id : Breakpoint.Id}

theorem after (hid : r.Fleeting id) (h : r.Consistent) (operation : Operation) :
    (r.after operation).Fleeting id where
  issued := Nat.le_trans hid.issued (r.lastId_le_after operation)
  temporary := by
    intro b hget
    cases Source.of_get? h hget with
    | added _ _ hissued _ => exact absurd hissued (issued?_ne hid.issued operation)
    | revised old u _ hold hb =>
        rw [hb]
        exact hid.temporary old hold
    | kept old hold hb =>
        rw [hb]
        split
        · exact hid.temporary old hold
        · exact hid.temporary old hold

theorem run (hid : r.Fleeting id) (h : r.Consistent) (operations : List Operation) :
    (r.run operations).Fleeting id := by
  induction operations generalizing r with
  | nil => exact hid
  | cons operation rest ih => exact ih (hid.after h operation) (h.after operation)

end Fleeting

namespace Spent

variable {r : Registry} {id : Breakpoint.Id}

theorem after (hid : r.Spent id) (h : r.Consistent) (operation : Operation) :
    (r.after operation).Spent id where
  issued := Nat.le_trans hid.issued (r.lastId_le_after operation)
  gone := by
    cases hget : (r.after operation).get? id with
    | none => rfl
    | some b =>
        cases Source.of_get? h hget with
        | added _ _ hissued _ => exact absurd hissued (issued?_ne hid.issued operation)
        | revised old _ _ hold _ => cases hid.gone.symm.trans hold
        | kept old hold _ => cases hid.gone.symm.trans hold

theorem run (hid : r.Spent id) (h : r.Consistent) (operations : List Operation) :
    (r.run operations).Spent id := by
  induction operations generalizing r with
  | nil => exact hid
  | cons operation rest ih => exact ih (hid.after h operation) (h.after operation)

theorem count_fired (hid : r.Spent id) (h : r.Consistent) (operations : List Operation) :
    ((r.fired operations).map Breakpoint.id).count id = 0 := by
  induction operations generalizing r with
  | nil => rfl
  | cons operation rest ih =>
      rw [fired, List.map_append, List.count_append, ih (hid.after h operation) (h.after operation)]
      cases hfired : r.fired? operation with
      | none => rfl
      | some b =>
          have hne : b.id ≠ id := by
            rintro rfl
            obtain ⟨_, old, hget, _⟩ := h.fired?_eq_some hfired
            cases hid.gone.symm.trans hget
          simp [hne]

end Spent

theorem Fleeting.spent {r : Registry} (h : r.Consistent) (hordered : r.Ordered)
    {operation : Operation} {b : Breakpoint} (hid : r.Fleeting b.id)
    (hfired : r.fired? operation = some b) :
    b.temporary = true ∧ (r.after operation).Spent b.id := by
  have htemporary : b.temporary = true := by
    obtain ⟨_, old, hget, _, _, hb⟩ := h.fired?_eq_some hfired
    rw [hb]
    exact hid.temporary old hget
  exact ⟨htemporary, (hid.after h operation).issued, (h.after_fired hordered hfired htemporary).1⟩

theorem Fleeting.count_fired_le_one {r : Registry} (h : r.Consistent) (hordered : r.Ordered)
    {id : Breakpoint.Id} (hid : r.Fleeting id) (operations : List Operation) :
    ((r.fired operations).map Breakpoint.id).count id ≤ 1 := by
  induction operations generalizing r with
  | nil => exact Nat.zero_le 1
  | cons operation rest ih =>
      have hrest := ih (h.after operation) (hordered.after h operation) (hid.after h operation)
      rw [fired, List.map_append, List.count_append]
      cases hfired : r.fired? operation with
      | none => simpa using hrest
      | some b =>
          by_cases hb : b.id = id
          · subst hb
            have hspent := (hid.spent h hordered hfired).2
            rw [hspent.count_fired (h.after operation)]
            simp
          · simpa [hb] using hrest

theorem Consistent.le_of_mem_fired {r : Registry} (h : r.Consistent)
    {operations : List Operation} {b : Breakpoint} (hmem : b ∈ r.fired operations) :
    b.id ≤ (r.run operations).lastId := by
  induction operations generalizing r with
  | nil => cases hmem
  | cons operation rest ih =>
      rcases List.mem_append.mp hmem with hnow | hlater
      · obtain ⟨_, old, hget, _⟩ := h.fired?_eq_some (Option.mem_toList.mp hnow)
        exact Nat.le_trans (h.id_le hget) (r.lastId_le_run (operation :: rest))
      · exact ih (h.after operation) hlater

theorem Consistent.count_fired_of_lt {r : Registry} (h : r.Consistent) {operations : List Operation}
    {id : Breakpoint.Id} (hid : (r.run operations).lastId < id) :
    ((r.fired operations).map Breakpoint.id).count id = 0 := by
  rw [List.count_eq_zero]
  intro hmem
  obtain ⟨b, hb, rfl⟩ := List.mem_map.mp hmem
  exact absurd (h.le_of_mem_fired hb) (Nat.not_le_of_lt hid)

theorem Consistent.fleeting_of_issued {r : Registry} (h : r.Consistent) {a : Breakpoint}
    {id : Breakpoint.Id} (hissued : r.issued? (.add a) = some id) (htemporary : a.temporary = true) :
    (r.after (.add a)).Fleeting id ∧ r.lastId < id := by
  rcases r.issued?_cases (.add a) with ⟨hnone, _⟩ | ⟨_, hnext, hlast⟩
  · cases hnone.symm.trans hissued
  · obtain rfl := Option.some.inj (hnext.symm.trans hissued)
    refine ⟨⟨Nat.le_of_eq hlast.symm, fun b hget => ?_⟩, Nat.lt_succ_self _⟩
    cases Source.of_get? h hget with
    | added other hoperation _ hb =>
        cases hoperation
        rw [hb]
        exact htemporary
    | revised _ _ hoperation _ _ => cases hoperation
    | kept old hold _ => exact absurd (h.id_le hold) (Nat.not_succ_le_self _)

/-- A temporary breakpoint is fired once at most.  The event that fires it changes no other
breakpoint, and turns the switch for exceptions off if it was the last breakpoint for them; from
then on the registry knows nothing of the breakpoint, whatever is done to it, and its id is not
handed out again. -/
theorem temporary_fires_once {before : List Operation} {a : Breakpoint} {id : Breakpoint.Id}
    (hissued : (empty.run before).issued? (.add a) = some id) (htemporary : a.temporary = true) :
    (∀ behind, ((empty.fired (before ++ .add a :: behind)).map Breakpoint.id).count id ≤ 1) ∧
    ∀ behind operation b,
      let r := empty.run (before ++ .add a :: behind)
      r.fired? operation = some b → b.id = id →
        (∀ other, other ≠ id → (r.after operation).get? other = r.get? other) ∧
        (r.after operation).flags =
          (if b.kind = .exception ∧ (r.after operation).hasExceptions = false then
            { r.flags with onException := false }
          else r.flags) ∧
        ∀ later, ((r.after operation).run later).Lacks id ∧
          id ∉ (r.after operation).issued later := by
  have hnil : empty.Ordered := List.Pairwise.nil
  have hconsistent := Consistent.empty.run before
  obtain ⟨hadded, hfresh⟩ := hconsistent.fleeting_of_issued hissued htemporary
  have hafter := hconsistent.after (.add a)
  constructor
  · intro behind
    rw [fired_append, List.map_append, List.count_append,
      Consistent.empty.count_fired_of_lt hfresh, Nat.zero_add]
    exact hadded.count_fired_le_one hafter ((hnil.run .empty before).after hconsistent _) behind
  · rintro behind operation b r hfired rfl
    have hr : r.Consistent := Consistent.empty.run _
    have hordered : r.Ordered := hnil.run .empty _
    have hrun : r = ((empty.run before).after (.add a)).run behind := run_append _ _ _
    have hfleeting : r.Fleeting b.id := hrun ▸ hadded.run hafter behind
    obtain ⟨hbTemporary, hspent⟩ := hfleeting.spent hr hordered hfired
    obtain ⟨_, hothers, hflags⟩ := hr.after_fired hordered hfired hbTemporary
    refine ⟨hothers, hflags, fun later => ⟨?_, fun hmem => ?_⟩⟩
    · have hgone := (hspent.run (hr.after operation) later).gone
      exact ((hr.after operation).run later).lacks
        ((hordered.after hr operation).run (hr.after operation) later) hgone
    · exact absurd hspent.issued (Nat.not_le_of_lt (lt_of_mem_issued hmem))

theorem temporary_fires_once_exception :
    let a : Breakpoint :=
      { kind := .exception, temporary := true, hitValue := 2, hitCondition := some .equal }
    let r := empty.run [.add { kind := .call, function := some "f" }, .add a, .hitException "E"]
    let event := Operation.hitException "F"
    (r.fired? event).isSome = true ∧ r.flags.onException = true ∧
      (r.after event).flags.onException = false ∧
        ((r.after event).run [.hitException "G", .add a]).Lacks 2 := by
  intro a r event
  have hfired : r.fired? event = some { a with id := 2, hitCount := 2 } := by decide +kernel
  have hissued :
      (empty.run [.add { kind := .call, function := some "f" }]).issued? (.add a) = some 2 := by
    decide +kernel
  have honce := temporary_fires_once hissued rfl
  obtain ⟨_, hflags, hlater⟩ := honce.2 [.hitException "E"] event _ hfired rfl
  refine ⟨by rw [hfired]; rfl, by decide +kernel, ?_, (hlater [.hitException "G", .add a]).1⟩
  exact (congrArg SuspendFlags.onException hflags).trans (by decide +kernel)

end ScriptDebugger.Registry
