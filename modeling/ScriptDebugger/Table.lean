namespace ScriptDebugger

abbrev Table (κ ν : Type) := List (κ × ν)

namespace Table

variable {κ ν : Type} [DecidableEq κ]

def get? : Table κ ν → κ → Option ν
  | [], _ => none
  | (key, value) :: rest, k => if key = k then some value else get? rest k

def set : Table κ ν → κ → ν → Table κ ν
  | [], k, v => [(k, v)]
  | (key, value) :: rest, k, v =>
      if key = k then (key, v) :: rest else (key, value) :: set rest k v

def remove (t : Table κ ν) (k : κ) : Table κ ν :=
  t.filter fun entry => !decide (entry.1 = k)

def keys (t : Table κ ν) : List κ :=
  t.map Prod.fst

def values (t : Table κ ν) : List ν :=
  t.map Prod.snd

@[simp] theorem get?_nil (k : κ) : get? ([] : Table κ ν) k = none := rfl

theorem get?_set (t : Table κ ν) (k : κ) (v : ν) (other : κ) :
    get? (set t k v) other = if k = other then some v else get? t other := by
  induction t with
  | nil => rfl
  | cons entry rest ih =>
      obtain ⟨key, value⟩ := entry
      by_cases hkey : key = k
      · subst hkey
        simp only [set, get?, if_true]
        split <;> simp_all
      · by_cases hother : key = other
        · subst hother
          simp [set, get?, hkey, Ne.symm hkey]
        · simp [set, get?, hkey, hother, ih]

@[simp] theorem get?_set_self (t : Table κ ν) (k : κ) (v : ν) :
    get? (set t k v) k = some v := by
  simp [get?_set]

theorem get?_set_other (t : Table κ ν) {k other : κ} (v : ν) (h : k ≠ other) :
    get? (set t k v) other = get? t other := by
  simp [get?_set, h]

theorem get?_remove (t : Table κ ν) (k other : κ) :
    get? (remove t k) other = if k = other then none else get? t other := by
  unfold remove
  induction t with
  | nil => simp
  | cons entry rest ih =>
      obtain ⟨key, value⟩ := entry
      by_cases hkey : key = k
      · subst hkey
        simp only [decide_true, Bool.not_true, Bool.false_eq_true, not_false_eq_true,
          List.filter_cons_of_neg, ih, get?]
        split <;> rfl
      · by_cases hother : key = other
        · subst hother
          simp [get?, hkey, Ne.symm hkey]
        · simp [get?, hkey, hother, ih]

theorem mem_keys_iff (t : Table κ ν) (k : κ) : k ∈ keys t ↔ ∃ v, get? t k = some v := by
  induction t with
  | nil => simp [keys]
  | cons entry rest ih =>
      obtain ⟨key, value⟩ := entry
      simp only [keys] at ih
      by_cases hkey : key = k
      · simp [keys, get?, hkey]
      · simp [keys, get?, hkey, Ne.symm hkey, ih]

theorem mem_of_get? {t : Table κ ν} {k : κ} {v : ν} (h : get? t k = some v) : (k, v) ∈ t := by
  induction t with
  | nil => simp at h
  | cons entry rest ih =>
      obtain ⟨key, value⟩ := entry
      rw [get?] at h
      split at h
      · rename_i hkey
        cases hkey
        cases h
        exact List.mem_cons_self
      · exact List.mem_cons_of_mem _ (ih h)

theorem get?_eq_filter (t : Table κ ν) (k : κ) :
    get? t k = (t.filter fun entry => decide (entry.1 = k)).head?.map Prod.snd := by
  induction t with
  | nil => rfl
  | cons entry rest ih =>
      obtain ⟨key, value⟩ := entry
      by_cases hkey : key = k
      · rw [get?, if_pos hkey, List.filter_cons_of_pos (by simpa using hkey)]
        rfl
      · rw [get?, if_neg hkey, ih, List.filter_cons_of_neg (by simpa using hkey)]

theorem get?_of_mem {t : Table κ ν} (hkeys : (keys t).Nodup) {k : κ} {v : ν}
    (hmem : (k, v) ∈ t) : get? t k = some v := by
  induction t with
  | nil => cases hmem
  | cons entry rest ih =>
      obtain ⟨key, value⟩ := entry
      obtain ⟨hfresh, hrest⟩ := List.nodup_cons.mp hkeys
      rcases List.mem_cons.mp hmem with heq | hbehind
      · cases heq
        exact if_pos rfl
      · have hne : key ≠ k := by
          rintro rfl
          exact hfresh (List.mem_map.mpr ⟨_, hbehind, rfl⟩)
        rw [get?, if_neg hne]
        exact ih hrest hbehind

theorem remove_of_get? {t : Table κ ν} {k : κ} (h : get? t k = none) : remove t k = t := by
  refine List.filter_eq_self.mpr fun entry hmem => ?_
  have hne : entry.1 ≠ k := by
    rintro rfl
    obtain ⟨v, hv⟩ := (mem_keys_iff t entry.1).mp (List.mem_map_of_mem hmem)
    rw [h] at hv
    cases hv
  simp [hne]

theorem set_of_get? {t : Table κ ν} {k : κ} {old : ν} (h : get? t k = some old) (v : ν) :
    ∃ before behind, t = before ++ (k, old) :: behind ∧ set t k v = before ++ (k, v) :: behind := by
  induction t with
  | nil => cases h
  | cons entry rest ih =>
      obtain ⟨key, value⟩ := entry
      by_cases hkey : key = k
      · subst hkey
        rw [get?, if_pos rfl, Option.some.injEq] at h
        exact ⟨[], rest, by rw [h]; rfl, by simp [set]⟩
      · rw [get?, if_neg hkey] at h
        obtain ⟨before, behind, hrest, hset⟩ := ih h
        exact ⟨(key, value) :: before, behind, by rw [hrest]; rfl, by simp [set, hkey, hset]⟩

theorem set_set (t : Table κ ν) (k : κ) (v w : ν) : set (set t k v) k w = set t k w := by
  induction t with
  | nil => simp [set]
  | cons entry rest ih =>
      obtain ⟨key, value⟩ := entry
      by_cases hkey : key = k
      · simp [set, hkey]
      · simp [set, hkey, ih]

theorem keys_set_of_mem (t : Table κ ν) {k : κ} (v : ν) (h : k ∈ keys t) :
    keys (set t k v) = keys t := by
  induction t with
  | nil => simp [keys] at h
  | cons entry rest ih =>
      obtain ⟨key, value⟩ := entry
      by_cases hkey : key = k
      · simp [set, keys, hkey]
      · have hrest : k ∈ keys rest := by
          simpa [keys, Ne.symm hkey] using h
        simpa [set, keys, hkey] using ih hrest

theorem keys_set_of_not_mem (t : Table κ ν) {k : κ} (v : ν) (h : k ∉ keys t) :
    keys (set t k v) = keys t ++ [k] := by
  induction t with
  | nil => rfl
  | cons entry rest ih =>
      obtain ⟨key, value⟩ := entry
      have hkey : key ≠ k := by
        intro heq
        simp [keys, heq] at h
      have hrest : k ∉ keys rest := by
        intro hmem
        exact h (List.mem_cons_of_mem _ hmem)
      simpa [set, keys, hkey] using ih hrest

end Table

end ScriptDebugger
