import ScriptDebugger.Proofs.Registry.Silent

/-!
Disabled breakpoints.  Deleting them leaves the enabled ones in their order and under their keys,
so that an event which is a hit among the others is the same hit without them.  A hit leaves them
as they are.  They only count where the switch for exceptions asks whether there is any breakpoint
for exceptions at all.
-/

namespace ScriptDebugger

namespace Breakpoint

theorem bind_hit?_filter (selected : Option Breakpoint) :
    (selected.filter isEnabled).bind hit? = selected.bind hit? := by
  cases selected with
  | none => rfl
  | some b =>
      cases henabled : b.isEnabled with
      | true => simp [Option.filter, henabled]
      | false => simp [Option.filter, henabled, hit?]

end Breakpoint

namespace Registry

def disabled (r : Registry) : List Breakpoint :=
  r.list.filter fun b => !b.isEnabled

/-- The registry after its disabled breakpoints were deleted, with the switches as they are. -/
def withoutDisabled (r : Registry) : Registry :=
  { r.run (r.disabled.map fun b => .remove b.id) with flags := r.flags }

/-- Whether exceptions are to stop the debuggee and only disabled breakpoints keep them from it. -/
def mutesExceptions (r : Registry) : Bool :=
  r.flags.onException && r.hasExceptions &&
    !r.list.any fun b => b.isEnabled && b.kind == .exception

theorem after_remove (r : Registry) (id : Breakpoint.Id) :
    r.after (.remove id) = (r.get? id).elim r (r.drop id).unindex := by
  rw [after, Registry.remove]
  cases r.get? id with
  | none => rfl
  | some b => rfl

theorem entries_after_remove (r : Registry) (id : Breakpoint.Id) :
    (r.after (.remove id)).entries = r.entries.remove id := by
  rw [after_remove]
  cases hget : r.get? id with
  | none => exact (Table.remove_of_get? hget).symm
  | some b => exact entries_unindex (r.drop id) b

theorem entries_run_remove (r : Registry) (ids : List Breakpoint.Id) :
    (r.run (ids.map .remove)).entries = r.entries.filter fun entry => decide (entry.1 ∉ ids) := by
  induction ids generalizing r with
  | nil => exact (List.filter_eq_self.mpr fun _ _ => by simp).symm
  | cons id rest ih =>
      calc
        ((r.after (.remove id)).run (rest.map .remove)).entries =
            (r.entries.remove id).filter fun entry => decide (entry.1 ∉ rest) := by
          rw [ih, entries_after_remove]
        _ = r.entries.filter fun entry => decide (entry.1 ∉ id :: rest) := by
          rw [Table.remove, List.filter_filter]
          refine List.filter_congr fun entry _ => ?_
          by_cases hid : entry.1 = id
          · simp [hid]
          · simp [hid]

theorem get?_run_remove (r : Registry) (ids : List Breakpoint.Id) (id : Breakpoint.Id) :
    (r.run (ids.map .remove)).get? id = if id ∈ ids then none else r.get? id := by
  induction ids generalizing r with
  | nil => rfl
  | cons first rest ih =>
      have hfirst : (r.after (.remove first)).get? id =
          if first = id then none else r.get? id := by
        rw [get?, entries_after_remove]
        exact Table.get?_remove r.entries first id
      refine (ih _).trans ?_
      rw [hfirst]
      by_cases hid : first = id
      · simp [hid]
      · simp [Ne.symm hid, hid]

namespace Consistent

variable {r : Registry}

theorem watchers_after_remove (h : r.Consistent) (id : Breakpoint.Id) (property : String) :
    (r.after (.remove id)).watchers property = (r.watchers property).filter (· ≠ id) := by
  have hkept (hmem : id ∉ r.watchers property) :
      (r.watchers property).filter (· ≠ id) = r.watchers property :=
    List.filter_eq_self.mpr fun other hother => decide_eq_true (ne_of_mem_of_not_mem hother hmem)
  rw [after_remove]
  cases hget : r.get? id with
  | none => exact (hkept (h.not_mem_watchers hget property)).symm
  | some b =>
      rw [Option.elim_some, watchers_unindex, h.id_eq hget, watchers_drop]
      split
      · rfl
      · rename_i hother
        refine (hkept fun hmem => ?_).symm
        obtain ⟨c, hc, hwatched⟩ := h.mem_watchers_iff.mp hmem
        rw [hget] at hc
        cases hc
        exact hother hwatched

theorem watchers_run_remove (h : r.Consistent) (ids : List Breakpoint.Id) (property : String) :
    (r.run (ids.map .remove)).watchers property =
      (r.watchers property).filter fun id => decide (id ∉ ids) := by
  induction ids generalizing r with
  | nil => exact (List.filter_eq_self.mpr fun _ _ => by simp).symm
  | cons first rest ih =>
      refine (ih (h.after _)).trans ?_
      rw [h.watchers_after_remove, List.filter_filter]
      refine List.filter_congr fun id _ => ?_
      by_cases hid : id = first
      · simp [hid]
      · simp [hid]

theorem bind_lookup_eq_some_iff (h : r.Consistent) {k : Breakpoint.Key} {b : Breakpoint} :
    (r.lookup k).bind r.get? = some b ↔ r.get? b.id = some b ∧ b.key? = some k := by
  constructor
  · intro hselected
    obtain ⟨id, hlookup, hget⟩ := Option.bind_eq_some_iff.mp hselected
    obtain ⟨c, hc, hkey⟩ := h.lookup_iff.mp hlookup
    rw [hget] at hc
    cases hc
    exact ⟨by rw [h.id_eq hget, hget], hkey⟩
  · rintro ⟨hget, hkey⟩
    rw [h.lookup_iff.mpr ⟨b, hget, hkey⟩]
    exact hget

end Consistent

theorem Ordered.get?_of_mem {r : Registry} (h : r.Ordered)
    {entry : Breakpoint.Id × Breakpoint} (hmem : entry ∈ r.entries) :
    r.get? entry.1 = some entry.2 :=
  Table.get?_of_mem (h.imp Nat.ne_of_lt) hmem

section WithoutDisabled

variable {r : Registry} (h : r.Consistent) (hordered : r.Ordered)

theorem flags_withoutDisabled (r : Registry) : r.withoutDisabled.flags = r.flags := rfl

include h

theorem Consistent.withoutDisabled : r.withoutDisabled.Consistent :=
  (h.run _).withFlags fun _ => r.flags

include hordered

theorem mem_disabled_iff {id : Breakpoint.Id} :
    id ∈ r.disabled.map Breakpoint.id ↔ ∃ b, r.get? id = some b ∧ b.isEnabled = false := by
  constructor
  · intro hmem
    obtain ⟨b, hb, rfl⟩ := List.mem_map.mp hmem
    obtain ⟨hlist, hdisabled⟩ := List.mem_filter.mp hb
    obtain ⟨entry, hentry, rfl⟩ := List.mem_map.mp hlist
    have hget := hordered.get?_of_mem hentry
    rw [h.id_eq hget]
    exact ⟨entry.2, hget, by simpa using hdisabled⟩
  · rintro ⟨b, hget, hdisabled⟩
    refine List.mem_map.mpr ⟨b, List.mem_filter.mpr ⟨mem_list_of_get? hget, ?_⟩, h.id_eq hget⟩
    rw [hdisabled]
    rfl

theorem isEnabled_eq {id : Breakpoint.Id} {b : Breakpoint} (hget : r.get? id = some b) :
    b.isEnabled = decide (id ∉ r.disabled.map Breakpoint.id) := by
  rw [Bool.eq_iff_iff, decide_eq_true_eq, mem_disabled_iff h hordered, hget]
  simp

theorem filter_get? (id : Breakpoint.Id) :
    (r.get? id).filter Breakpoint.isEnabled =
      if id ∈ r.disabled.map Breakpoint.id then none else r.get? id := by
  cases hget : r.get? id with
  | none => exact (ite_self none).symm
  | some b =>
      rw [Option.filter_some, isEnabled_eq h hordered hget]
      by_cases hmem : id ∈ r.disabled.map Breakpoint.id
      · simp only [hmem, not_true, decide_false, Bool.false_eq_true, if_false, if_true]
      · simp only [hmem, not_false_eq_true, decide_true, if_false, if_true]

theorem get?_withoutDisabled (id : Breakpoint.Id) :
    r.withoutDisabled.get? id = (r.get? id).filter Breakpoint.isEnabled := by
  have hrun := r.get?_run_remove (r.disabled.map Breakpoint.id) id
  rw [List.map_map] at hrun
  exact hrun.trans (filter_get? h hordered id).symm

theorem list_withoutDisabled :
    r.withoutDisabled.list = r.list.filter Breakpoint.isEnabled := by
  have hrun := r.entries_run_remove (r.disabled.map Breakpoint.id)
  rw [List.map_map] at hrun
  have hentries : r.withoutDisabled.entries =
      r.entries.filter (Breakpoint.isEnabled ∘ Prod.snd) := by
    refine hrun.trans (List.filter_congr fun entry hmem => ?_)
    exact (isEnabled_eq h hordered (hordered.get?_of_mem hmem)).symm
  unfold list Table.values
  rw [hentries, List.filter_map]

theorem watchersOf_withoutDisabled (property : String) :
    r.withoutDisabled.watchersOf property =
      (r.watchersOf property).filter Breakpoint.isEnabled := by
  have hrun := h.watchers_run_remove (r.disabled.map Breakpoint.id) property
  rw [List.map_map] at hrun
  have hwatchers : r.withoutDisabled.watchersOf property =
      ((r.watchers property).filter fun id =>
        decide (id ∉ r.disabled.map Breakpoint.id)).filterMap r.withoutDisabled.get? :=
    congrArg (List.filterMap _) hrun
  rw [hwatchers, List.filterMap_filter]
  change _ = ((r.watchers property).filterMap r.get?).filter _
  rw [List.filter_filterMap]
  congr 1
  funext id
  rw [get?_withoutDisabled h hordered]
  split
  · rfl
  · rename_i hmem
    rw [filter_get? h hordered, if_pos (by simpa using hmem)]

theorem lookup_withoutDisabled (k : Breakpoint.Key) :
    (r.withoutDisabled.lookup k).bind r.withoutDisabled.get? =
      ((r.lookup k).bind r.get?).filter Breakpoint.isEnabled := by
  ext b
  rw [Option.filter_eq_some_iff, h.bind_lookup_eq_some_iff,
    h.withoutDisabled.bind_lookup_eq_some_iff, get?_withoutDisabled h hordered,
    Option.filter_eq_some_iff]
  exact and_right_comm

theorem ordered_withoutDisabled : r.withoutDisabled.Ordered :=
  hordered.run h _

theorem hasExceptions_withoutDisabled :
    r.withoutDisabled.hasExceptions =
      r.list.any fun b => b.isEnabled && b.kind == .exception := by
  rw [hasExceptions, list_withoutDisabled h hordered, List.any_filter]

theorem exceptionFor?_withoutDisabled (className : String) :
    r.withoutDisabled.exceptionFor? className = r.exceptionFor? className := by
  unfold exceptionFor?
  rw [list_withoutDisabled h hordered, List.find?_filter]
  congr 2
  funext b
  cases b.isEnabled with
  | true => simp only [true_and, Bool.and_true, Bool.decide_eq_true]
  | false => simp only [Bool.false_eq_true, false_and, decide_false, Bool.and_false, Bool.false_and]

end WithoutDisabled

def stopsAtException (r : Registry) (className : String) : Bool :=
  (r.hitException className).1.isSome ||
    ((r.hitException className).2.flags.onException &&
      !(r.hitException className).2.hasExceptions)

theorem hasExceptions_of_get? {r : Registry} {id : Breakpoint.Id} {b : Breakpoint}
    (hget : r.get? id = some b) (hkind : b.kind = .exception) : r.hasExceptions = true :=
  List.any_eq_true.mpr ⟨b, mem_list_of_get? hget, by rw [hkind]; rfl⟩

theorem disabled_put {r : Registry} {b old : Breakpoint} (hget : r.get? b.id = some old)
    (hold : old.isEnabled = true) (henabled : b.isEnabled = true) :
    (r.put b).disabled = r.disabled := by
  obtain ⟨before, behind, hentries, hset⟩ := Table.set_of_get? hget b
  unfold disabled list Table.values put
  rw [hset, hentries]
  simp [hold, henabled]

theorem disabled_drop {r : Registry} (hordered : r.Ordered) {id : Breakpoint.Id} {b : Breakpoint}
    (hget : r.get? id = some b) (henabled : b.isEnabled = true) :
    (r.drop id).disabled = r.disabled := by
  unfold disabled list Table.values drop Table.remove
  rw [List.filter_map, List.filter_map, List.filter_filter]
  congr 1
  refine List.filter_congr fun entry hmem => ?_
  by_cases hid : entry.1 = id
  · have hb := hordered.get?_of_mem hmem
    rw [hid, hget] at hb
    cases hb
    simp [henabled]
  · simp [hid]

theorem disabled_hit {r : Registry} (h : r.Consistent) (hordered : r.Ordered)
    (selected : Option Breakpoint.Id) : (r.hit selected).2.disabled = r.disabled := by
  rcases h.hit_cases selected with hsame | ⟨b, _, hget, henabled, hcounted | hdropped⟩
  · rw [hsame]
  · rw [hcounted]
    exact disabled_put (b := b.counted) hget henabled henabled
  · have hput := disabled_put (b := b.counted) hget henabled henabled
    have hgone := disabled_drop (hordered.put_of_stored (b := b.counted) hget)
      (get?_put_self r b.counted) henabled
    have hentries := entries_unindex (r.put b.counted) b.counted
    calc
      (r.hit selected).2.disabled = ((r.put b.counted).drop b.id).disabled := by
        rw [hdropped]
        unfold disabled list drop
        rw [hentries]
      _ = r.disabled := hgone.trans hput

theorem flags_hit (r : Registry) (selected : Option Breakpoint.Id) :
    (r.hit selected).2.flags.onEntry = r.flags.onEntry ∧
      (r.hit selected).2.flags.onExit = r.flags.onExit := by
  rcases r.hit_cases selected with hsame | ⟨id, b, _, _, _, hcounted | hdropped⟩
  · rw [hsame]
    exact ⟨rfl, rfl⟩
  · rw [hcounted]
    exact ⟨rfl, rfl⟩
  · rw [hdropped, drop]
    rcases (r.countHit id b).flags_unindex b.counted with hflags | hflags
    · rw [hflags]
      exact ⟨rfl, rfl⟩
    · rw [hflags]
      exact ⟨rfl, rfl⟩

section Events

variable {r : Registry} (h : r.Consistent) (hordered : r.Ordered)

include h hordered

theorem fst_hit_withoutDisabled (k : Breakpoint.Key) :
    (r.withoutDisabled.hit (r.withoutDisabled.lookup k)).1 = (r.hit (r.lookup k)).1 := by
  rw [fst_hit, fst_hit, lookup_withoutDisabled h hordered, Breakpoint.bind_hit?_filter]

theorem fst_hitException_withoutDisabled (className : String) :
    (r.withoutDisabled.hitException className).1 = (r.hitException className).1 := by
  unfold hitException
  rw [fst_hit, fst_hit, exceptionFor?_withoutDisabled h hordered]
  cases r.exceptionFor? className with
  | none => rfl
  | some id =>
      rw [Option.bind_some, Option.bind_some, get?_withoutDisabled h hordered,
        Breakpoint.bind_hit?_filter]

theorem exceptionFor?_eq_some {className : String} {id : Breakpoint.Id}
    (hselected : r.exceptionFor? className = some id) :
    ∃ b, r.get? id = some b ∧ b.isEnabled = true ∧ b.kind = .exception := by
  obtain ⟨b, hfind, rfl⟩ := Option.map_eq_some_iff.mp hselected
  obtain ⟨entry, hentry, rfl⟩ := List.mem_map.mp (List.mem_of_find?_eq_some hfind)
  have hget := hordered.get?_of_mem hentry
  have hconcerned := List.find?_some hfind
  simp only [Bool.and_eq_true, beq_iff_eq] at hconcerned
  exact ⟨entry.2, by rw [h.id_eq hget, hget], hconcerned.1.2, hconcerned.1.1⟩

/-- Whether an exception stops the debuggee.  The switch matters only while none of the enabled
breakpoints concerns it. -/
theorem stopsAtException_eq (className : String) :
    r.stopsAtException className =
      match r.exceptionFor? className with
      | none => r.flags.onException && !r.hasExceptions
      | some _ => (r.hitException className).1.isSome := by
  unfold stopsAtException
  cases hselected : r.exceptionFor? className with
  | none =>
      rw [hitException, hselected]
      rfl
  | some id =>
      obtain ⟨b, hget, _, hkind⟩ := exceptionFor?_eq_some h hordered hselected
      rw [hitException, hselected]
      rcases h.hit_cases (some id) with hsame | ⟨c, hc, hstored, _, hcounted | hdropped⟩
      · rw [hsame, hasExceptions_of_get? hget hkind]
        simp
      · cases hc
        cases hstored.symm.trans hget
        rw [hcounted, hasExceptions_of_get? (get?_put_self r b.counted) hkind]
        simp
      · rw [hdropped]
        rfl

theorem mutesExceptions_eq :
    r.mutesExceptions =
      (r.flags.onException && r.hasExceptions && !r.withoutDisabled.hasExceptions) := by
  rw [hasExceptions_withoutDisabled h hordered]
  rfl

theorem stopsAtException_withoutDisabled (hmutes : r.mutesExceptions = false)
    (className : String) :
    r.withoutDisabled.stopsAtException className = r.stopsAtException className := by
  have hleft : r.withoutDisabled.hasExceptions = true → r.hasExceptions = true := by
    rw [hasExceptions_withoutDisabled h hordered, hasExceptions, List.any_eq_true, List.any_eq_true]
    rintro ⟨b, hmem, hb⟩
    exact ⟨b, hmem, (Bool.and_eq_true_iff.mp hb).2⟩
  rw [stopsAtException_eq h hordered,
    stopsAtException_eq h.withoutDisabled (ordered_withoutDisabled h hordered),
    exceptionFor?_withoutDisabled h hordered, fst_hitException_withoutDisabled h hordered,
    flags_withoutDisabled]
  rw [mutesExceptions_eq h hordered] at hmutes
  cases r.exceptionFor? className with
  | some id => rfl
  | none =>
      cases hremain : r.withoutDisabled.hasExceptions with
      | true => rw [hleft hremain]
      | false =>
          cases hexceptions : r.hasExceptions with
          | false => rfl
          | true =>
              have hoff : r.flags.onException = false := by
                simpa [hremain, hexceptions] using hmutes
              rw [hoff]
              rfl

theorem stopsAtException_of_mutes (hmutes : r.mutesExceptions = true) (className : String) :
    r.stopsAtException className = false ∧
      r.withoutDisabled.stopsAtException className = true := by
  rw [mutesExceptions_eq h hordered] at hmutes
  simp only [Bool.and_eq_true, Bool.not_eq_true'] at hmutes
  obtain ⟨⟨honException, hexceptions⟩, hleft⟩ := hmutes
  have hselected : r.exceptionFor? className = none := by
    cases hselected : r.exceptionFor? className with
    | none => rfl
    | some id =>
        obtain ⟨b, hget, henabled, hkind⟩ := exceptionFor?_eq_some h hordered hselected
        have hstored : r.withoutDisabled.get? id = some b := by
          rw [get?_withoutDisabled h hordered, hget, Option.filter_some, henabled]
          rfl
        rw [hasExceptions_of_get? hstored hkind] at hleft
        cases hleft
  rw [stopsAtException_eq h hordered,
    stopsAtException_eq h.withoutDisabled (ordered_withoutDisabled h hordered),
    exceptionFor?_withoutDisabled h hordered, flags_withoutDisabled, hselected, honException,
    hexceptions, hleft]
  exact ⟨rfl, rfl⟩

end Events

end Registry

end ScriptDebugger
