import ScriptDebugger.Proofs.Registry.Hit

/-!
Consistent registries.  The indexes of a registry say exactly what the stored breakpoints say: a
key selects the breakpoint that has it, and a property lists those that watch it, each once.
Every operation of the registry keeps this up, and keeps the breakpoints in the order of their
ids.
-/

namespace ScriptDebugger.Registry

open Breakpoint

structure Consistent (r : Registry) : Prop where
  lookup_iff : ∀ {k id}, r.lookup k = some id ↔ ∃ b, r.get? id = some b ∧ b.key? = some k
  mem_watchers_iff : ∀ {property id},
    id ∈ r.watchers property ↔ ∃ b, r.get? id = some b ∧ b.watched? = some property
  watchers_nodup : ∀ property, (r.watchers property).Nodup
  id_eq : ∀ {id b}, r.get? id = some b → b.id = id
  id_le : ∀ {id b}, r.get? id = some b → id ≤ r.lastId
  valid : ∀ {id b}, r.get? id = some b → b.validate = .ok ()

def Ordered (r : Registry) : Prop :=
  r.entries.keys.Pairwise (· < ·)

theorem add_eq_ok {r after : Registry} {b : Breakpoint} {id : Breakpoint.Id}
    (h : r.add b = .ok (id, after)) :
    b.validate = .ok () ∧ id = r.lastId + 1 ∧
      after = ({ r with lastId := id }.index { b with id := id, hitCount := 0 }).put
        { b with id := id, hitCount := 0 } := by
  obtain ⟨_, hvalid, hadded⟩ := bind_eq_ok.mp h
  cases hadded
  exact ⟨hvalid, rfl, rfl⟩

theorem remove_eq_ok {r after : Registry} {b : Breakpoint} {id : Breakpoint.Id}
    (h : r.remove id = .ok (b, after)) :
    r.get? id = some b ∧ after = (r.drop id).unindex b := by
  unfold Registry.remove at h
  cases hget : r.get? id with
  | none => simp [hget] at h
  | some stored =>
      simp only [hget, Except.ok.injEq, Prod.mk.injEq] at h
      obtain ⟨rfl, rfl⟩ := h
      exact ⟨rfl, rfl⟩

theorem withPolicy_eq_ok {b changed : Breakpoint} {u : BreakpointUpdate}
    (h : withPolicy b u = .ok changed) :
    changed.validate = .ok () ∧
      changed =
        { b with
          state := u.state.getD b.state
          hitValue := u.hitValue.getD b.hitValue
          hitCondition := u.hitCondition.or b.hitCondition } := by
  obtain ⟨_, hvalid, hchanged⟩ := bind_eq_ok.mp h
  cases hchanged
  exact ⟨hvalid, rfl⟩

theorem remove_line_eq_unindex {r : Registry} {b : Breakpoint} (hkind : b.kind.isLine = true)
    (hindexed : r.lines.get? b.location = some b.id) :
    { r with lines := r.lines.remove b.location } = r.unindex b := by
  have hkey : unindexKey r.lines b.location b.id = r.lines.remove b.location := if_pos hindexed
  rw [← hkey]
  cases hb : b.kind with
  | line | conditional =>
      rw [unindex, hb]
  | call | leave | exception | watch =>
      rw [hb] at hkind
      cases hkind

theorem updateLine_fst (r : Registry) (b : Breakpoint) (u : BreakpointUpdate) :
    ∃ line, (r.updateLine b u).1 = { b with line := line } := by
  unfold updateLine
  split
  · split
    · unfold moveLine
      split
      · exact ⟨_, rfl⟩
      · exact ⟨b.line, rfl⟩
    · exact ⟨b.line, rfl⟩
  · exact ⟨b.line, rfl⟩

theorem updateExpression_fst (r : Registry) (b : Breakpoint) (u : BreakpointUpdate) :
    ∃ expression access modification,
      (r.updateExpression b u).1 =
        { b with
          expression := expression
          onAccess := access
          onModification := modification } := by
  unfold updateExpression
  split
  · cases u.watchFlags <;> cases u.expression <;> simp only [moveWatch]
    all_goals first
      | exact ⟨_, _, _, rfl⟩
      | split <;> exact ⟨_, _, _, rfl⟩
  · exact ⟨u.expression.or b.expression, b.onAccess, b.onModification, rfl⟩

theorem get?_updateLine (r : Registry) (b : Breakpoint) (u : BreakpointUpdate) :
    (r.updateLine b u).2.get? b.id = r.get? b.id := by
  unfold updateLine
  split
  · split
    · unfold moveLine
      split
      · rename_i line _ _ _
        exact get?_index_self { r with lines := r.lines.remove b.location } { b with line := line }
      · rfl
    · rfl
  · rfl

theorem get?_moveWatch (r : Registry) (b : Breakpoint) (property : String) :
    (r.moveWatch b property).2.get? b.id = r.get? b.id := by
  unfold moveWatch
  split
  · rfl
  · rw [get?_index_self (r.unindex b) { b with expression := some property }, get?_unindex]

theorem get?_updateExpression (r : Registry) (b : Breakpoint) (u : BreakpointUpdate) :
    (r.updateExpression b u).2.get? b.id = r.get? b.id := by
  unfold updateExpression
  split
  · cases u.watchFlags <;> cases u.expression
    · rfl
    · exact get?_moveWatch _ _ _
    · rfl
    · exact get?_moveWatch r { b with onAccess := _, onModification := _ } _
  · rfl

theorem updateLine_id (r : Registry) (b : Breakpoint) (u : BreakpointUpdate) :
    (r.updateLine b u).1.id = b.id := by
  obtain ⟨line, hfields⟩ := r.updateLine_fst b u
  rw [hfields]

theorem updateExpression_id (r : Registry) (b : Breakpoint) (u : BreakpointUpdate) :
    (r.updateExpression b u).1.id = b.id := by
  obtain ⟨expression, access, modification, hfields⟩ := r.updateExpression_fst b u
  rw [hfields]

theorem update_eq_ok {r after : Registry} {b : Breakpoint} {id : Breakpoint.Id}
    {u : BreakpointUpdate} (h : r.update id u = .ok (b, after)) :
    ∃ old changed placed middle last,
      r.get? id = some old ∧ withPolicy old u = .ok changed ∧
        r.updateLine changed u = (placed, middle) ∧
        middle.updateExpression placed u = (b, last) ∧
        after = { last with entries := last.entries.set id b } := by
  unfold Registry.update at h
  cases hget : r.get? id with
  | none => simp [hget] at h
  | some old =>
      rw [hget] at h
      obtain ⟨changed, hpolicy, hrest⟩ := bind_eq_ok.mp h
      cases hrest
      exact ⟨old, changed, _, _, _, rfl, hpolicy, rfl, rfl, rfl⟩

namespace Consistent

/-- Consistency is a matter of the views alone. -/
theorem congr {r other : Registry} (h : r.Consistent) (hlookup : ∀ k, other.lookup k = r.lookup k)
    (hwatchers : ∀ property, other.watchers property = r.watchers property)
    (hget : ∀ id, other.get? id = r.get? id) (hlast : other.lastId = r.lastId) :
    other.Consistent where
  lookup_iff := by
    intro k id
    rw [hlookup, hget]
    exact h.lookup_iff
  mem_watchers_iff := by
    intro property id
    rw [hwatchers, hget]
    exact h.mem_watchers_iff
  watchers_nodup := by
    intro property
    rw [hwatchers]
    exact h.watchers_nodup property
  id_eq := by
    intro id b hb
    exact h.id_eq (hget id ▸ hb)
  id_le := by
    intro id b hb
    rw [hlast]
    exact h.id_le (hget id ▸ hb)
  valid := by
    intro id b hb
    exact h.valid (hget id ▸ hb)

theorem lookup_ne {r : Registry} (h : r.Consistent) {id : Breakpoint.Id} (hget : r.get? id = none)
    (k : Key) : r.lookup k ≠ some id := by
  intro hlookup
  obtain ⟨b, hb, _⟩ := h.lookup_iff.mp hlookup
  rw [hget] at hb
  contradiction

theorem not_mem_watchers {r : Registry} (h : r.Consistent) {id : Breakpoint.Id}
    (hget : r.get? id = none) (property : String) : id ∉ r.watchers property := by
  intro hmem
  obtain ⟨b, hb, _⟩ := h.mem_watchers_iff.mp hmem
  rw [hget] at hb
  contradiction

theorem put {r : Registry} (h : r.Consistent) {b old : Breakpoint} (hget : r.get? b.id = some old)
    (hkey : b.key? = old.key?) (hwatched : b.watched? = old.watched?)
    (hvalid : b.validate = .ok ()) : (r.put b).Consistent where
  lookup_iff := by
    intro k id
    rw [lookup_put, h.lookup_iff, get?_put]
    by_cases heq : b.id = id
    · subst heq
      simp [hget, hkey]
    · simp [heq]
  mem_watchers_iff := by
    intro property id
    rw [watchers_put, h.mem_watchers_iff, get?_put]
    by_cases heq : b.id = id
    · subst heq
      simp [hget, hwatched]
    · simp [heq]
  watchers_nodup := h.watchers_nodup
  id_eq := by
    intro id c hc
    rw [get?_put] at hc
    by_cases heq : b.id = id
    · simp only [heq, if_true, Option.some.injEq] at hc
      rw [← hc, heq]
    · exact h.id_eq (by simpa [heq] using hc)
  id_le := by
    intro id c hc
    rw [get?_put] at hc
    by_cases heq : b.id = id
    · exact heq ▸ h.id_le hget
    · exact h.id_le (by simpa [heq] using hc)
  valid := by
    intro id c hc
    rw [get?_put] at hc
    by_cases heq : b.id = id
    · simp only [heq, if_true, Option.some.injEq] at hc
      rw [← hc]
      exact hvalid
    · exact h.valid (by simpa [heq] using hc)

theorem displaced {r : Registry} (h : r.Consistent) {b : Breakpoint} {id : Breakpoint.Id}
    (hdisplaced : r.displaced? b = some id) :
    ∃ c k, r.get? id = some c ∧ c.key? = some k ∧ b.key? = some k := by
  obtain ⟨_, k, hk, hlookup⟩ := displaced?_eq_some_iff.mp hdisplaced
  obtain ⟨c, hc, hck⟩ := h.lookup_iff.mp hlookup
  exact ⟨c, k, hc, hck, hk⟩

theorem get?_index_put {r : Registry} {b c : Breakpoint} {id : Breakpoint.Id}
    (hne : b.id ≠ id) (hc : ((r.index b).put b).get? id = some c) :
    r.displaced? b ≠ some id ∧ r.get? id = some c := by
  rw [get?_put, if_neg hne, get?_index] at hc
  by_cases hdisplaced : r.displaced? b = some id
  · simp [hdisplaced] at hc
  · exact ⟨hdisplaced, by simpa [hdisplaced] using hc⟩

theorem index_put {r : Registry} (h : r.Consistent) {b : Breakpoint} (hfresh : r.get? b.id = none)
    (hle : b.id ≤ r.lastId) (hvalid : b.validate = .ok ()) :
    ((r.index b).put b).Consistent where
  lookup_iff := by
    intro k id
    rw [lookup_put, lookup_index]
    by_cases heq : b.id = id
    · subst heq
      simp [h.lookup_ne hfresh]
    constructor
    · intro hlookup
      by_cases hk : b.key? = some k
      · simp [hk, heq] at hlookup
      · rw [if_neg hk] at hlookup
        obtain ⟨c, hc, hck⟩ := h.lookup_iff.mp hlookup
        refine ⟨c, ?_, hck⟩
        rw [get?_put, if_neg heq, get?_index, if_neg, hc]
        intro hdisplaced
        obtain ⟨other, taken, hother, hkey, hb⟩ := h.displaced hdisplaced
        rw [hc] at hother
        cases hother
        exact hk (hb.trans (hkey.symm.trans hck))
    · rintro ⟨c, hc, hck⟩
      obtain ⟨hdisplaced, hc⟩ := get?_index_put heq hc
      have hlookup := h.lookup_iff.mpr ⟨c, hc, hck⟩
      rw [if_neg, hlookup]
      intro hk
      exact hdisplaced (displaced?_eq_some_iff.mpr ⟨Ne.symm heq, k, hk, hlookup⟩)
  mem_watchers_iff := by
    intro property id
    rw [watchers_put, watchers_index]
    by_cases heq : b.id = id
    · subst heq
      have hmem := h.not_mem_watchers hfresh property
      by_cases hproperty : b.watched? = some property
      · simp [hproperty]
      · simp [hproperty, hmem]
    have hlist : (id ∈ if b.watched? = some property then r.watchers property ++ [b.id]
        else r.watchers property) ↔ id ∈ r.watchers property := by
      split
      · simp [Ne.symm heq]
      · rfl
    rw [hlist, h.mem_watchers_iff]
    constructor
    · rintro ⟨c, hc, hproperty⟩
      refine ⟨c, ?_, hproperty⟩
      rw [get?_put, if_neg heq, get?_index, if_neg, hc]
      intro hdisplaced
      obtain ⟨other, taken, hother, hkey, _⟩ := h.displaced hdisplaced
      rw [hc] at hother
      cases hother
      rw [watched?_of_key? hkey] at hproperty
      contradiction
    · rintro ⟨c, hc, hproperty⟩
      exact ⟨c, (get?_index_put heq hc).2, hproperty⟩
  watchers_nodup := by
    intro property
    rw [watchers_put, watchers_index]
    split
    · refine List.nodup_append.mpr ⟨h.watchers_nodup property, by simp, ?_⟩
      intro id hid other hother heq
      cases List.mem_singleton.mp hother
      exact h.not_mem_watchers hfresh property (heq ▸ hid)
    · exact h.watchers_nodup property
  id_eq := by
    intro id c hc
    by_cases heq : b.id = id
    · subst heq
      rw [get?_put_self] at hc
      cases hc
      rfl
    · exact h.id_eq (get?_index_put heq hc).2
  id_le := by
    intro id c hc
    rw [lastId_put, lastId_index]
    by_cases heq : b.id = id
    · exact heq ▸ hle
    · exact h.id_le (get?_index_put heq hc).2
  valid := by
    intro id c hc
    by_cases heq : b.id = id
    · subst heq
      rw [get?_put_self] at hc
      cases hc
      exact hvalid
    · exact h.valid (get?_index_put heq hc).2

theorem unindex_drop {r : Registry} (h : r.Consistent) {b : Breakpoint}
    (hget : r.get? b.id = some b) : ((r.unindex b).drop b.id).Consistent where
  lookup_iff := by
    intro k id
    rw [lookup_drop, lookup_unindex, get?_drop, get?_unindex]
    by_cases heq : b.id = id
    · subst heq
      by_cases hk : b.key? = some k
      · simp [hk]
      · have hlookup : r.lookup k ≠ some b.id := by
          intro hlookup
          obtain ⟨c, hc, hck⟩ := h.lookup_iff.mp hlookup
          rw [hget] at hc
          cases hc
          exact hk hck
        simp [hk, hlookup]
    · rw [if_neg heq, ← h.lookup_iff]
      split
      · rename_i hk
        simp [hk.2, heq]
      · rfl
  mem_watchers_iff := by
    intro property id
    rw [watchers_drop, watchers_unindex, get?_drop, get?_unindex]
    by_cases heq : b.id = id
    · subst heq
      by_cases hproperty : b.watched? = some property
      · simp [hproperty]
      · simp [hproperty, h.mem_watchers_iff, hget]
    · rw [if_neg heq, ← h.mem_watchers_iff]
      split
      · simp [Ne.symm heq]
      · rfl
  watchers_nodup := by
    intro property
    rw [watchers_drop, watchers_unindex]
    split
    · exact (h.watchers_nodup property).filter _
    · exact h.watchers_nodup property
  id_eq := by
    intro id c hc
    rw [get?_drop, get?_unindex] at hc
    split at hc
    · contradiction
    · exact h.id_eq hc
  id_le := by
    intro id c hc
    rw [get?_drop, get?_unindex] at hc
    rw [lastId_drop, lastId_unindex]
    split at hc
    · contradiction
    · exact h.id_le hc
  valid := by
    intro id c hc
    rw [get?_drop, get?_unindex] at hc
    split at hc
    · contradiction
    · exact h.valid hc

theorem reindex {r : Registry} {b moved : Breakpoint} (h : (r.put b).Consistent)
    (hid : moved.id = b.id) (hvalid : moved.validate = .ok ()) :
    (((r.unindex b).index moved).put moved).Consistent := by
  have hempty := h.unindex_drop (get?_put_self r b)
  have hle : moved.id ≤ r.lastId := by
    rw [hid]
    exact h.id_le (get?_put_self r b)
  have hmoved := hempty.index_put (b := moved) (by simp [get?_drop, hid])
    (by simpa [lastId_unindex] using hle) hvalid
  have hlookup : ((r.put b).unindex b).lookup = (r.unindex b).lookup := by
    funext k
    rw [lookup_unindex, lookup_unindex]
    rfl
  have hdisplaced : (((r.put b).unindex b).drop b.id).displaced? moved =
      (r.unindex b).displaced? moved := by
    unfold displaced?
    rw [lookup_drop, hlookup]
  refine hmoved.congr ?_ ?_ ?_ ?_
  · intro k
    rw [lookup_put, lookup_put, lookup_index, lookup_index, lookup_drop, hlookup]
  · intro property
    rw [watchers_put, watchers_put, watchers_index, watchers_index, watchers_drop,
      watchers_unindex, watchers_unindex, watchers_put]
  · intro id
    rw [get?_put, get?_put, get?_index, get?_index, hdisplaced]
    by_cases heq : moved.id = id
    · simp [heq]
    · have hne : b.id ≠ id := hid ▸ heq
      rw [get?_drop, get?_unindex, get?_unindex, get?_put]
      simp [hne]
  · rw [lastId_put, lastId_put, lastId_index, lastId_index, lastId_drop, lastId_unindex,
      lastId_unindex, lastId_put]

/-! The operations of the registry. -/

theorem put_put {r : Registry} {b changed : Breakpoint} (h : (r.put b).Consistent)
    (hid : changed.id = b.id) (hkey : changed.key? = b.key?)
    (hwatched : changed.watched? = b.watched?) (hvalid : changed.validate = .ok ()) :
    (r.put changed).Consistent := by
  have hget : (r.put b).get? changed.id = some b := by rw [hid, get?_put_self]
  have hput := h.put hget hkey hwatched hvalid
  refine hput.congr (fun _ => rfl) (fun _ => rfl) ?_ rfl
  intro id
  rw [get?_put, get?_put, get?_put, hid]
  by_cases heq : b.id = id
  · simp [heq]
  · simp [heq]

theorem withFlags {r : Registry} (h : r.Consistent) (change : SuspendFlags → SuspendFlags) :
    (r.withFlags change).Consistent :=
  h.congr (fun k => by cases k <;> rfl) (fun _ => rfl) (fun _ => rfl) rfl

theorem clear {r : Registry} : r.clear.Consistent where
  lookup_iff := by
    intro k id
    cases k <;> simp [Registry.clear, lookup, Registry.get?]
  mem_watchers_iff := by
    intro property id
    simp [Registry.clear, watchers, Registry.get?]
  watchers_nodup := by
    intro property
    simp [Registry.clear, watchers]
  id_eq := by
    intro id b hb
    simp [Registry.clear, Registry.get?] at hb
  id_le := by
    intro id b hb
    simp [Registry.clear, Registry.get?] at hb
  valid := by
    intro id b hb
    simp [Registry.clear, Registry.get?] at hb

theorem empty : Registry.empty.Consistent :=
  clear (r := Registry.empty)

theorem add {r after : Registry} (h : r.Consistent) {b : Breakpoint} {id : Breakpoint.Id}
    (hadd : r.add b = .ok (id, after)) : after.Consistent := by
  obtain ⟨hvalid, rfl, rfl⟩ := add_eq_ok hadd
  have hfresh : r.get? (r.lastId + 1) = none := by
    cases hget : r.get? (r.lastId + 1) with
    | none => rfl
    | some stored => exact absurd (h.id_le hget) (Nat.not_succ_le_self _)
  have hnext : { r with lastId := r.lastId + 1 }.Consistent :=
    { lookup_iff := by
        intro k id
        have hlookup : { r with lastId := r.lastId + 1 }.lookup k = r.lookup k := by
          cases k <;> rfl
        rw [hlookup]
        exact h.lookup_iff
      mem_watchers_iff := h.mem_watchers_iff
      watchers_nodup := h.watchers_nodup
      id_eq := h.id_eq
      id_le := fun hget => Nat.le_succ_of_le (h.id_le hget)
      valid := h.valid }
  exact hnext.index_put hfresh (Nat.le_refl _) hvalid

theorem remove {r after : Registry} (h : r.Consistent) {b : Breakpoint} {id : Breakpoint.Id}
    (hremove : r.remove id = .ok (b, after)) : after.Consistent := by
  obtain ⟨hget, rfl⟩ := remove_eq_ok hremove
  have hid := h.id_eq hget
  subst hid
  refine (h.unindex_drop hget).congr ?_ ?_ ?_ ?_
  · intro k
    rw [lookup_unindex, lookup_drop, lookup_drop, lookup_unindex]
  · intro property
    rw [watchers_unindex, watchers_drop, watchers_drop, watchers_unindex]
  · intro id
    rw [get?_unindex, get?_drop, get?_drop, get?_unindex]
  · rw [lastId_unindex, lastId_drop, lastId_drop, lastId_unindex]

theorem moveLine {r : Registry} {b : Breakpoint} (h : (r.put b).Consistent)
    (hkind : b.kind.isLine = true) (line : Nat) :
    ((r.moveLine b line).2.put (r.moveLine b line).1).Consistent := by
  have hvalid := h.valid (get?_put_self r b)
  unfold Registry.moveLine
  split
  · rename_i hindexed
    rw [remove_line_eq_unindex hkind hindexed]
    exact h.reindex rfl hvalid
  · exact h

theorem moveWatch {r : Registry} {b : Breakpoint} (h : (r.put b).Consistent)
    (property : String) :
    ((r.moveWatch b property).2.put (r.moveWatch b property).1).Consistent := by
  have hvalid := h.valid (get?_put_self r b)
  unfold Registry.moveWatch
  split
  · exact h
  · exact h.reindex rfl hvalid

theorem updateLine {r : Registry} {b : Breakpoint} (h : (r.put b).Consistent)
    (u : BreakpointUpdate) : ((r.updateLine b u).2.put (r.updateLine b u).1).Consistent := by
  unfold Registry.updateLine
  split
  · split
    · rename_i line _ hkind
      exact h.moveLine hkind line
    · exact h
  · exact h

theorem updateExpression {r : Registry} {b : Breakpoint} (h : (r.put b).Consistent)
    (u : BreakpointUpdate) :
    ((r.updateExpression b u).2.put (r.updateExpression b u).1).Consistent := by
  have hvalid := h.valid (get?_put_self r b)
  unfold Registry.updateExpression
  split
  · rename_i hkind
    have hflagged : ∀ access modification,
        (r.put { b with onAccess := access, onModification := modification }).Consistent :=
      fun access modification => h.put_put rfl rfl rfl hvalid
    cases u.watchFlags with
    | none =>
        cases u.expression with
        | none => exact h
        | some property => exact h.moveWatch property
    | some flags =>
        cases u.expression with
        | none => exact hflagged flags.1 flags.2
        | some property => exact (hflagged flags.1 flags.2).moveWatch property
  · rename_i hkind
    exact h.put_put rfl rfl (by simp [watched?, hkind]) hvalid

/-- An update changes the policy, then the place, then the expression, and stores the outcome
under the id that the breakpoint had all along. -/
theorem update_stages {r after : Registry} (h : r.Consistent) {b : Breakpoint}
    {id : Breakpoint.Id} {u : BreakpointUpdate} (hupdate : r.update id u = .ok (b, after)) :
    ∃ old changed placed middle last,
      r.get? id = some old ∧ old.id = id ∧ withPolicy old u = .ok changed ∧ changed.id = id ∧
        r.updateLine changed u = (placed, middle) ∧ placed.id = id ∧
        middle.updateExpression placed u = (b, last) ∧ b.id = id ∧ after = last.put b := by
  obtain ⟨old, changed, placed, middle, last, hget, hpolicy, hline, hexpression, rfl⟩ :=
    update_eq_ok hupdate
  have hold : old.id = id := h.id_eq hget
  have hchanged : changed.id = id := by
    rw [(withPolicy_eq_ok hpolicy).2]
    exact hold
  have hplaced : placed.id = id := by
    have hkept := r.updateLine_id changed u
    rw [hline] at hkept
    exact hkept.trans hchanged
  have hb : b.id = id := by
    have hkept := middle.updateExpression_id placed u
    rw [hexpression] at hkept
    exact hkept.trans hplaced
  refine ⟨old, changed, placed, middle, last, hget, hold, hpolicy, hchanged, hline, hplaced,
    hexpression, hb, ?_⟩
  rw [Registry.put, hb]

theorem update {r after : Registry} (h : r.Consistent) {b : Breakpoint} {id : Breakpoint.Id}
    {u : BreakpointUpdate} (hupdate : r.update id u = .ok (b, after)) : after.Consistent := by
  obtain ⟨old, changed, placed, middle, last, hget, rfl, hpolicy, _, hline, _, hexpression, _,
    rfl⟩ := h.update_stages hupdate
  obtain ⟨hvalid, hchanged⟩ := withPolicy_eq_ok hpolicy
  have hstored : (r.put changed).Consistent := by
    subst hchanged
    exact h.put hget rfl rfl hvalid
  have hplaced := hstored.updateLine u
  rw [hline] at hplaced
  have hlast := hplaced.updateExpression u
  rw [hexpression] at hlast
  exact hlast

theorem hit_cases {r : Registry} (h : r.Consistent) (selected : Option Breakpoint.Id) :
    (r.hit selected).2 = r ∨
      ∃ b, selected = some b.id ∧ r.get? b.id = some b ∧ b.isEnabled = true ∧
        ((r.hit selected).2 = r.put b.counted ∨
          r.hit selected =
            (some b.counted, ((r.put b.counted).unindex b.counted).drop b.id)) := by
  rcases r.hit_cases selected with hsame | ⟨id, b, hselected, hget, henabled, hafter⟩
  · exact .inl hsame
  · obtain rfl := h.id_eq hget
    exact .inr ⟨b, hselected, hget, henabled, hafter⟩

theorem hit {r : Registry} (h : r.Consistent) (selected : Option Breakpoint.Id) :
    (r.hit selected).2.Consistent := by
  rcases h.hit_cases selected with hsame | ⟨b, _, hget, _, hafter⟩
  · rw [hsame]
    exact h
  · have hvalid := h.valid hget
    have hput : (r.put b.counted).Consistent := h.put (b := b.counted) hget rfl rfl hvalid
    rcases hafter with hcounted | hdropped
    · rw [hcounted]
      exact hput
    · rw [hdropped]
      exact hput.unindex_drop (get?_put_self r b.counted)

end Consistent

/-! The order of the breakpoints. -/

namespace Ordered

theorem drop {r : Registry} (h : r.Ordered) (id : Breakpoint.Id) : (r.drop id).Ordered :=
  List.Pairwise.sublist (List.filter_sublist.map Prod.fst) h

theorem index {r : Registry} (h : r.Ordered) (b : Breakpoint) : (r.index b).Ordered := by
  unfold Ordered
  rw [entries_index]
  cases r.displaced? b with
  | none => exact h
  | some old => exact h.drop old

theorem unindex {r : Registry} (h : r.Ordered) (b : Breakpoint) : (r.unindex b).Ordered := by
  unfold Ordered
  rw [entries_unindex]
  exact h

theorem put_of_stored {r : Registry} (h : r.Ordered) {b old : Breakpoint}
    (hget : r.get? b.id = some old) : (r.put b).Ordered := by
  have hmem : b.id ∈ r.entries.keys := (r.entries.mem_keys_iff b.id).mpr ⟨old, hget⟩
  unfold Ordered Registry.put
  rw [Table.keys_set_of_mem r.entries b hmem]
  exact h

theorem put_of_fresh {r : Registry} (h : r.Ordered) {b : Breakpoint}
    (hlast : ∀ id stored, r.get? id = some stored → id < b.id) : (r.put b).Ordered := by
  have hbelow : ∀ id ∈ r.entries.keys, id < b.id := by
    intro id hid
    obtain ⟨stored, hget⟩ := (r.entries.mem_keys_iff id).mp hid
    exact hlast id stored hget
  have hmem : b.id ∉ r.entries.keys := fun hid => Nat.lt_irrefl _ (hbelow b.id hid)
  unfold Ordered Registry.put
  rw [Table.keys_set_of_not_mem r.entries b hmem]
  refine List.pairwise_append.mpr ⟨h, by simp, ?_⟩
  intro id hid other hother
  cases List.mem_singleton.mp hother
  exact hbelow id hid

theorem add {r after : Registry} (h : r.Ordered) (hconsistent : r.Consistent) {b : Breakpoint}
    {id : Breakpoint.Id} (hadd : r.add b = .ok (id, after)) : after.Ordered := by
  obtain ⟨_, rfl, rfl⟩ := add_eq_ok hadd
  refine put_of_fresh (index (r := { r with lastId := r.lastId + 1 }) h _) ?_
  intro id stored hget
  rw [get?_index] at hget
  split at hget
  · contradiction
  · exact Nat.lt_succ_of_le (hconsistent.id_le hget)

theorem remove {r after : Registry} (h : r.Ordered) {b : Breakpoint} {id : Breakpoint.Id}
    (hremove : r.remove id = .ok (b, after)) : after.Ordered := by
  obtain ⟨_, rfl⟩ := remove_eq_ok hremove
  exact (h.drop id).unindex b

theorem updateLine {r : Registry} (h : r.Ordered) (b : Breakpoint) (u : BreakpointUpdate) :
    (r.updateLine b u).2.Ordered := by
  unfold Registry.updateLine
  split
  · split
    · unfold Registry.moveLine
      split
      · exact index (r := { r with lines := r.lines.remove b.location }) h _
      · exact h
    · exact h
  · exact h

theorem updateExpression {r : Registry} (h : r.Ordered) (b : Breakpoint) (u : BreakpointUpdate) :
    (r.updateExpression b u).2.Ordered := by
  have hmove : ∀ (c : Breakpoint) (property : String), (r.moveWatch c property).2.Ordered := by
    intro c property
    unfold moveWatch
    split
    · exact h
    · exact (h.unindex c).index _
  unfold Registry.updateExpression
  split
  · cases u.watchFlags <;> cases u.expression
    · exact h
    · exact hmove _ _
    · exact h
    · exact hmove _ _
  · exact h

theorem update {r after : Registry} (h : r.Ordered) (hconsistent : r.Consistent) {b : Breakpoint}
    {id : Breakpoint.Id} {u : BreakpointUpdate} (hupdate : r.update id u = .ok (b, after)) :
    after.Ordered := by
  obtain ⟨old, changed, placed, middle, last, hget, _, _, hchanged, hline, hplaced, hexpression,
    hb, rfl⟩ := hconsistent.update_stages hupdate
  have hmiddle : middle.get? id = some old := by
    have hkept := r.get?_updateLine changed u
    rwa [hline, hchanged, hget] at hkept
  have hlast : last.get? id = some old := by
    have hkept := middle.get?_updateExpression placed u
    rwa [hexpression, hplaced, hmiddle] at hkept
  have hordered := (h.updateLine changed u).updateExpression placed u
  rw [hline, hexpression] at hordered
  exact hordered.put_of_stored (hb ▸ hlast)

theorem hit {r : Registry} (h : r.Ordered) (hconsistent : r.Consistent)
    (selected : Option Breakpoint.Id) : (r.hit selected).2.Ordered := by
  rcases hconsistent.hit_cases selected with hsame | ⟨b, _, hget, _, hafter⟩
  · rw [hsame]
    exact h
  · have hput : (r.put b.counted).Ordered := h.put_of_stored (b := b.counted) hget
    rcases hafter with hcounted | hdropped
    · rw [hcounted]
      exact hput
    · rw [hdropped]
      exact (hput.unindex b.counted).drop b.id

end Ordered

end ScriptDebugger.Registry
