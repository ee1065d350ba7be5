import Mathlib.Data.List.Nodup
import ScriptDebugger.Property.Listed

namespace ScriptDebugger

namespace ChildRule

/-- Members found under a limit: together with the room left they make up the limit, and an id is
found once, for it is seen from then on. -/
structure Found.Sound (limit : Nat) (found : Found) : Prop where
  room : found.members.length + found.room = limit
  seen : ∀ m ∈ found.members, m.2 ∈ found.seen
  nodup : (found.members.map Prod.snd).Nodup

namespace Found.Sound

theorem start (limit : Nat) : Found.Sound limit { room := limit } where
  room := Nat.zero_add _
  seen := by simp
  nodup := List.nodup_nil

theorem pass {limit : Nat} {found : Found} (h : found.Sound limit) (id : PropertyId) :
    Found.Sound limit { found with seen := id :: found.seen } where
  room := h.room
  seen := fun m hm => List.mem_cons_of_mem _ (h.seen m hm)
  nodup := h.nodup

theorem take {limit room : Nat} {found : Found} (h : found.Sound limit)
    (hroom : found.room = room + 1) (owner : ObjectId) {id : PropertyId}
    (hid : id ∉ found.seen) :
    Found.Sound limit
      { members := (owner, id) :: found.members, seen := id :: found.seen, room := room } where
  room := by
    have := h.room
    simp only [List.length_cons]
    omega
  seen := by
    intro m hm
    rcases List.mem_cons.mp hm with rfl | hm
    · exact List.mem_cons_self
    · exact List.mem_cons_of_mem _ (h.seen m hm)
  nodup := by
    refine List.nodup_cons.mpr ⟨?_, h.nodup⟩
    intro hmem
    obtain ⟨m, hm, heq⟩ := List.mem_map.mp hmem
    have hseen := h.seen m hm
    rw [heq] at hseen
    exact hid hseen

theorem scan {limit : Nat} {found : Found} (h : found.Sound limit) (rule : ChildRule)
    (first : Bool) (owner : ObjectId) (ids : List PropertyId) :
    (rule.scan first owner ids found).1.Sound limit := by
  induction ids generalizing found with
  | nil => exact h
  | cons id rest ih =>
      unfold ChildRule.scan
      split
      · exact h
      · rename_i room hroom
        split
        · exact ih h
        · rename_i hseen
          split
          · exact ih (h.take hroom owner (by simpa using hseen))
          · exact ih (h.pass id)

theorem collect {limit : Nat} {found after : Found} (h : found.Sound limit) (rule : ChildRule)
    (heap : Heap) (first : Bool) (owners : List ObjectId)
    (hcollect : rule.collect heap first owners found = .ok after) : after.Sound limit := by
  induction owners generalizing first found with
  | nil =>
      cases hcollect
      exact h
  | cons owner rest ih =>
      obtain ⟨ids, _, hcollect⟩ := bind_eq_ok.mp hcollect
      have hscan := h.scan rule first owner ids
      generalize rule.scan first owner ids found = result at hcollect hscan
      obtain ⟨middle, full⟩ := result
      cases full with
      | true =>
          cases hcollect
          exact hscan
      | false => exact ih hscan false hcollect

end Found.Sound

variable {rule : ChildRule} {h : Heap} {limit : Nat} {id : ObjectId} {members : List Member}

theorem children_sound (hchildren : rule.children h limit id = .ok members) :
    ∃ found : Found, found.Sound limit ∧ members = found.members.reverse := by
  obtain ⟨found, hcollect, hmembers⟩ := bind_eq_ok.mp hchildren
  cases hmembers
  exact ⟨found, (Found.Sound.start limit).collect rule h true _ hcollect, rfl⟩

theorem length_children_le (hchildren : rule.children h limit id = .ok members) :
    members.length ≤ limit := by
  obtain ⟨found, hsound, rfl⟩ := children_sound hchildren
  have := hsound.room
  rw [List.length_reverse]
  omega

theorem nodup_children (hchildren : rule.children h limit id = .ok members) :
    (members.map Prod.snd).Nodup := by
  obtain ⟨found, hsound, rfl⟩ := children_sound hchildren
  rw [List.map_reverse]
  exact List.nodup_reverse.mpr hsound.nodup

theorem member_eq_of_id (hchildren : rule.children h limit id = .ok members) {m n : Member}
    (hm : m ∈ members) (hn : n ∈ members) (hid : m.2 = n.2) : m = n :=
  List.inj_on_of_nodup_map (nodup_children hchildren) hm hn hid

end ChildRule

namespace Heap

theorem childCount_le {h : Heap} {limit : Nat} {id : ObjectId} {count : Nat}
    (hcount : h.childCount limit id = .ok count) : count ≤ limit := by
  obtain ⟨members, hchildren, hlength⟩ := bind_eq_ok.mp hcount
  cases hlength
  exact ChildRule.length_children_le hchildren

end Heap

end ScriptDebugger
