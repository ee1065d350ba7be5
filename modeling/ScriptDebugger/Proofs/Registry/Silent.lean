import ScriptDebugger.Proofs.Registry.History

namespace ScriptDebugger.Registry

structure Silent (r : Registry) : Prop where
  disabled : ∀ b ∈ r.list, b.isEnabled = false
  flags : r.flags = {}

theorem mem_list_of_get? {r : Registry} {id : Breakpoint.Id} {b : Breakpoint}
    (h : r.get? id = some b) : b ∈ r.list :=
  List.mem_map_of_mem (Table.mem_of_get? h)

theorem flags_unindex (r : Registry) (b : Breakpoint) :
    (r.unindex b).flags = r.flags ∨
      (r.unindex b).flags = { r.flags with onException := false } := by
  by_cases hkind : b.kind = .exception
  · rw [flags_unindex_of_exception hkind]
    split
    · exact .inl rfl
    · exact .inr rfl
  · exact .inl (flags_unindex_of_ne hkind r)

namespace Silent

variable {r : Registry}

theorem clear : r.clear.Silent where
  disabled := by
    have hnil : r.clear.list = [] := rfl
    intro b hmem
    rw [hnil] at hmem
    cases hmem
  flags := rfl

theorem hit (h : r.Silent) (id : Option Breakpoint.Id) : r.hit id = (none, r) := by
  cases id with
  | none => rfl
  | some id => exact hitId_of_not_enabled fun b hget => h.disabled b (mem_list_of_get? hget)

theorem watchersOf (h : r.Silent) {property : String} {b : Breakpoint}
    (hmem : b ∈ r.watchersOf property) : b.isEnabled = false := by
  obtain ⟨id, _, hget⟩ := List.mem_filterMap.mp hmem
  exact h.disabled b (mem_list_of_get? hget)

theorem remove {after : Registry} (h : r.Silent) {id : Breakpoint.Id} {b : Breakpoint}
    (hremove : r.remove id = .ok (b, after)) : after.Silent := by
  obtain ⟨_, rfl⟩ := remove_eq_ok hremove
  constructor
  case disabled =>
    intro other hmem
    rw [list, entries_unindex] at hmem
    obtain ⟨entry, hentry, rfl⟩ := List.mem_map.mp hmem
    exact h.disabled _ (List.mem_map_of_mem (List.mem_filter.mp hentry).1)
  case flags =>
    rcases (r.drop id).flags_unindex b with hflags | hflags
    · exact hflags.trans h.flags
    · rw [hflags, drop, h.flags]

theorem run (h : r.Silent) {operations : List Operation}
    (hremove : ∀ operation ∈ operations, ∃ id, operation = .remove id) :
    (r.run operations).Silent := by
  induction operations generalizing r with
  | nil => exact h
  | cons operation rest ih =>
      obtain ⟨id, rfl⟩ := hremove operation List.mem_cons_self
      refine ih ?_ fun other hmem => hremove other (List.mem_cons_of_mem _ hmem)
      exact orElse_induction h h.remove

end Silent

end ScriptDebugger.Registry
