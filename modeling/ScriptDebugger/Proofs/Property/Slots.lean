import ScriptDebugger.Heap

namespace ScriptDebugger

abbrev Slot := ObjectId × PropertyId

namespace Object

def bare (o : Object) : Object :=
  { o with slots := [] }

variable {o after : Object} {id other : PropertyId} {value : Value}

theorem lookup_cons_of_ne (h : other ≠ id) (slots : List (PropertyId × Value)) :
    ((id, value) :: slots).lookup other = slots.lookup other := by
  rw [List.lookup_cons, beq_false_of_ne h]

theorem lookup_writeSlot (slots : List (PropertyId × Value)) (id : PropertyId) (value : Value)
    (other : PropertyId) :
    (writeSlot slots id value).lookup other =
      if other = id then some value else slots.lookup other := by
  induction slots with
  | nil =>
      split
      · rename_i hother
        rw [hother, writeSlot, List.lookup_cons_self]
      · rename_i hother
        exact lookup_cons_of_ne hother []
  | cons slot rest ih =>
      obtain ⟨key, old⟩ := slot
      rw [writeSlot]
      dsimp only
      by_cases hkey : key = id
      · subst hkey
        rw [if_pos rfl]
        split
        · rename_i hother
          rw [hother, List.lookup_cons_self]
        · rename_i hother
          rw [lookup_cons_of_ne hother, lookup_cons_of_ne hother]
      · rw [if_neg hkey]
        by_cases hother : other = key
        · rw [hother, List.lookup_cons_self, List.lookup_cons_self, if_neg hkey]
        · rw [lookup_cons_of_ne hother, lookup_cons_of_ne hother, ih]

theorem set_eq_ok (h : o.set id value = .ok after) :
    after = { o with slots := writeSlot o.slots id value } := by
  unfold set at h
  split at h
  · cases h
  · exact (Except.ok.inj h).symm

theorem bare_set (h : o.set id value = .ok after) : after.bare = o.bare := by
  rw [set_eq_ok h]
  rfl

theorem get_set_of_ne (h : o.set id value = .ok after) (hne : other ≠ id) :
    after.get other = o.get other := by
  rw [set_eq_ok h]
  simp only [get, lookup_writeSlot, if_neg hne]

theorem get_set_self (h : o.set id value = .ok after) (hreadable : o.unreadable.lookup id = none) :
    after.get id = .ok value := by
  rw [set_eq_ok h]
  simp only [get, lookup_writeSlot, if_true, hreadable, Option.getD_some]

end Object

namespace Heap

variable {h after : Heap} {owner : ObjectId} {id : PropertyId} {value : Value}

theorem set_eq_ok (hset : h.set owner id value = .ok after) :
    ∃ o, (h.object owner).set id value = .ok o ∧
      after = { h with objects := h.objects.set owner o } := by
  obtain ⟨o, ho, hafter⟩ := bind_eq_ok.mp hset
  exact ⟨o, ho, (Except.ok.inj hafter).symm⟩

theorem get_set_of_ne (hset : h.set owner id value = .ok after) {slot : Slot}
    (hne : slot ≠ (owner, id)) : after.get slot.1 slot.2 = h.get slot.1 slot.2 := by
  obtain ⟨o, ho, rfl⟩ := set_eq_ok hset
  obtain ⟨other, key⟩ := slot
  by_cases hother : other = owner
  · subst hother
    by_cases hexists : other < h.objects.length
    · have hkey : key ≠ id := fun heq => hne (heq ▸ rfl)
      rw [get, object, List.getElem?_set_self hexists]
      exact Object.get_set_of_ne ho hkey
    · rw [List.set_eq_of_length_le (Nat.le_of_not_lt hexists)]
  · rw [get, object, List.getElem?_set_ne (Ne.symm hother)]
    rfl

/-- What is written to a slot is read from it. -/
def Recalls (h : Heap) (slot : Slot) : Prop :=
  ∀ value after, h.set slot.1 slot.2 value = .ok after → after.get slot.1 slot.2 = .ok value

theorem recalls_of_readable (howner : owner < h.objects.length)
    (hreadable : (h.object owner).unreadable.lookup id = none) : h.Recalls (owner, id) := by
  intro value after hset
  obtain ⟨o, ho, rfl⟩ := set_eq_ok hset
  rw [get, object, List.getElem?_set_self howner]
  exact Object.get_set_self ho hreadable

def slot? (h : Heap) (slot : Slot) : Option Value :=
  (h.object slot.1).slots.lookup slot.2

/-- One heap is the other with a value written to a slot, and nothing else done to it. -/
structure Writes (h : Heap) (slot : Slot) (value : Value) (after : Heap) : Prop where
  size : after.objects.length = h.objects.length
  elsewhere : ∀ other, other ≠ slot.1 → after.object other = h.object other
  bare : (after.object slot.1).bare = (h.object slot.1).bare
  others : ∀ other, other ≠ slot → after.slot? other = h.slot? other
  written : slot.1 < h.objects.length → after.slot? slot = some value

theorem writes_of_not_lt (hmissing : ¬ owner < h.objects.length) :
    h.Writes (owner, id) value h where
  size := rfl
  elsewhere _ _ := rfl
  bare := rfl
  others _ _ := rfl
  written hexists := absurd hexists hmissing

theorem writes_of_set (hset : h.set owner id value = .ok after) :
    h.Writes (owner, id) value after := by
  obtain ⟨o, ho, rfl⟩ := set_eq_ok hset
  by_cases hexists : owner < h.objects.length
  · have hself : Heap.object { objects := h.objects.set owner o } owner = o := by
      rw [object, List.getElem?_set_self hexists]
      rfl
    have hne : ∀ other, other ≠ owner →
        Heap.object { objects := h.objects.set owner o } other = h.object other := by
      intro other hother
      rw [object, List.getElem?_set_ne (Ne.symm hother)]
      rfl
    refine ⟨List.length_set, hne, ?_, ?_, fun _ => ?_⟩
    · rw [hself]
      exact Object.bare_set ho
    · rintro ⟨other, key⟩ hother
      by_cases howner : other = owner
      · subst howner
        have hkey : key ≠ id := fun heq => hother (heq ▸ rfl)
        rw [slot?, hself, Object.set_eq_ok ho, Object.lookup_writeSlot, if_neg hkey]
        rfl
      · rw [slot?, hne other howner]
        rfl
    · rw [slot?, hself, Object.set_eq_ok ho, Object.lookup_writeSlot, if_pos rfl]
  · rw [List.set_eq_of_length_le (Nat.le_of_not_lt hexists)]
    exact writes_of_not_lt hexists

end Heap

end ScriptDebugger
