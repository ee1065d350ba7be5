import ScriptDebugger.Breakpoint.Registry

/-!
How the registry finds its breakpoints.  A key is what a line, a call or a return selects a
breakpoint by, so the three tables of keys are one look-up; watchpoints stand in a list for each
property.  Entering a breakpoint into its index, and taking it out, are described in these views.
-/

namespace ScriptDebugger

namespace Breakpoint

/-- What an event of the debuggee selects a breakpoint by. -/
inductive Key where
  | line (location : Location)
  | call (name : String)
  | leave (name : String)
  deriving DecidableEq

def key? (b : Breakpoint) : Option Key :=
  match b.kind with
  | .line | .conditional => some (.line b.location)
  | .call => b.function.map .call
  | .leave => b.function.map .leave
  | .exception | .watch => none

theorem key?_eq_line_iff {b : Breakpoint} {location : Location} :
    b.key? = some (.line location) ↔ b.kind.isLine = true ∧ b.location = location := by
  cases hkind : b.kind <;> simp [key?, hkind, Kind.isLine]

theorem key?_eq_call_iff {b : Breakpoint} {name : String} :
    b.key? = some (.call name) ↔ b.kind = .call ∧ b.function = some name := by
  cases hkind : b.kind <;> simp [key?, hkind]

theorem key?_eq_leave_iff {b : Breakpoint} {name : String} :
    b.key? = some (.leave name) ↔ b.kind = .leave ∧ b.function = some name := by
  cases hkind : b.kind <;> simp [key?, hkind]

theorem key?_of_isLine {b : Breakpoint} (h : b.kind.isLine = true) :
    b.key? = some (.line b.location) :=
  key?_eq_line_iff.mpr ⟨h, rfl⟩

theorem watched?_eq_some_iff {b : Breakpoint} {property : String} :
    b.watched? = some property ↔ b.kind = .watch ∧ b.expression = some property := by
  simp [watched?]

theorem watched?_of_key? {b : Breakpoint} {k : Key} (h : b.key? = some k) : b.watched? = none := by
  cases hkind : b.kind <;> simp_all [key?, watched?]

end Breakpoint

namespace Registry

open Breakpoint

def lookup (r : Registry) : Key → Option Breakpoint.Id
  | .line location => r.lines.get? location
  | .call name => r.calls.get? name
  | .leave name => r.leaves.get? name

def watchers (r : Registry) (property : String) : List Breakpoint.Id :=
  (r.watches.get? property).getD []

def put (r : Registry) (b : Breakpoint) : Registry :=
  { r with entries := r.entries.set b.id b }

def drop (r : Registry) (id : Breakpoint.Id) : Registry :=
  { r with entries := r.entries.remove id }

@[simp] theorem lookup_put (r : Registry) (b : Breakpoint) : (r.put b).lookup = r.lookup := rfl

@[simp] theorem watchers_put (r : Registry) (b : Breakpoint) :
    (r.put b).watchers = r.watchers := rfl

@[simp] theorem lastId_put (r : Registry) (b : Breakpoint) : (r.put b).lastId = r.lastId := rfl

theorem flags_put (r : Registry) (b : Breakpoint) : (r.put b).flags = r.flags := rfl

theorem get?_put (r : Registry) (b : Breakpoint) (id : Breakpoint.Id) :
    (r.put b).get? id = if b.id = id then some b else r.get? id :=
  Table.get?_set r.entries b.id b id

@[simp] theorem get?_put_self (r : Registry) (b : Breakpoint) :
    (r.put b).get? b.id = some b := by
  simp [get?_put]

@[simp] theorem lookup_drop (r : Registry) (id : Breakpoint.Id) :
    (r.drop id).lookup = r.lookup := rfl

@[simp] theorem watchers_drop (r : Registry) (id : Breakpoint.Id) :
    (r.drop id).watchers = r.watchers := rfl

@[simp] theorem lastId_drop (r : Registry) (id : Breakpoint.Id) :
    (r.drop id).lastId = r.lastId := rfl

theorem get?_drop (r : Registry) (id other : Breakpoint.Id) :
    (r.drop id).get? other = if id = other then none else r.get? other :=
  Table.get?_remove r.entries id other

/-- The breakpoint that another one displaces when it takes its key. -/
def displaced? (r : Registry) (b : Breakpoint) : Option Breakpoint.Id :=
  (b.key?.bind r.lookup).filter (· ≠ b.id)

theorem displaced?_eq_some_iff {r : Registry} {b : Breakpoint} {id : Breakpoint.Id} :
    r.displaced? b = some id ↔ id ≠ b.id ∧ ∃ k, b.key? = some k ∧ r.lookup k = some id := by
  simp [displaced?, Option.filter_eq_some_iff, Option.bind_eq_some_iff, and_comm]

theorem displace_eq (r : Registry) (old : Option Breakpoint.Id) (id : Breakpoint.Id) :
    r.displace old id = (old.filter (· ≠ id)).elim r r.drop := by
  cases old with
  | none => rfl
  | some previous =>
      by_cases h : previous = id
      · simp [displace, Option.filter, h]
      · simp [displace, Option.filter, h, drop]

theorem lookup_displace (r : Registry) (old : Option Breakpoint.Id) (id : Breakpoint.Id) :
    (r.displace old id).lookup = r.lookup := by
  rw [displace_eq]
  cases old.filter (· ≠ id) <;> rfl

theorem watchers_displace (r : Registry) (old : Option Breakpoint.Id) (id : Breakpoint.Id) :
    (r.displace old id).watchers = r.watchers := by
  rw [displace_eq]
  cases old.filter (· ≠ id) <;> rfl

theorem lastId_displace (r : Registry) (old : Option Breakpoint.Id) (id : Breakpoint.Id) :
    (r.displace old id).lastId = r.lastId := by
  rw [displace_eq]
  cases old.filter (· ≠ id) <;> rfl

theorem flags_displace (r : Registry) (old : Option Breakpoint.Id) (id : Breakpoint.Id) :
    (r.displace old id).flags = r.flags := by
  rw [displace_eq]
  cases old.filter (· ≠ id) <;> rfl

theorem entries_displace (r : Registry) (old : Option Breakpoint.Id) (id : Breakpoint.Id) :
    (r.displace old id).entries = (old.filter (· ≠ id)).elim r.entries r.entries.remove := by
  rw [displace_eq]
  cases old.filter (· ≠ id) <;> rfl

/-! Entering a breakpoint into its index. -/

def setKey (r : Registry) (k : Key) (id : Breakpoint.Id) : Registry :=
  match k with
  | .line location => { r with lines := r.lines.set location id }
  | .call name => { r with calls := r.calls.set name id }
  | .leave name => { r with leaves := r.leaves.set name id }

theorem lookup_setKey (r : Registry) (k : Key) (id : Breakpoint.Id) (other : Key) :
    (r.setKey k id).lookup other = if k = other then some id else r.lookup other := by
  cases k <;> cases other <;> simp [setKey, lookup, Table.get?_set]

theorem watchers_setKey (r : Registry) (k : Key) (id : Breakpoint.Id) :
    (r.setKey k id).watchers = r.watchers := by
  cases k <;> rfl

/-- A breakpoint is entered under its key, or in the list of its property; another one only
concerns the switches. -/
theorem index_cases (r : Registry) (b : Breakpoint) :
    (∃ k, b.key? = some k ∧
        r.index b = (r.setKey k b.id).displace (r.lookup k) b.id) ∨
      (∃ property, b.key? = none ∧ b.watched? = some property ∧
        r.index b =
          { r with watches := r.watches.set property (r.watchers property ++ [b.id]) }) ∨
      (b.key? = none ∧ b.watched? = none ∧ ∃ flags, r.index b = { r with flags := flags }) := by
  cases hkind : b.kind with
  | line | conditional =>
      exact .inl ⟨.line b.location, by simp [key?, hkind], by simp [index, hkind, setKey, lookup]⟩
  | call =>
      cases hname : b.function with
      | some name =>
          exact .inl ⟨.call name, by simp [key?, hkind, hname],
            by simp [index, hkind, hname, setKey, lookup]⟩
      | none =>
          exact .inr (.inr ⟨by simp [key?, hkind, hname], by simp [watched?, hkind], r.flags,
            by simp [index, hkind, hname]⟩)
  | leave =>
      cases hname : b.function with
      | some name =>
          exact .inl ⟨.leave name, by simp [key?, hkind, hname],
            by simp [index, hkind, hname, setKey, lookup]⟩
      | none =>
          exact .inr (.inr ⟨by simp [key?, hkind, hname], by simp [watched?, hkind], r.flags,
            by simp [index, hkind, hname]⟩)
  | exception =>
      exact .inr (.inr ⟨by simp [key?, hkind], by simp [watched?, hkind],
        { r.flags with onException := true }, by simp [index, hkind]⟩)
  | watch =>
      cases hwatched : b.watched? with
      | some property =>
          exact .inr (.inl ⟨property, by simp [key?, hkind], rfl,
            by simp [index, hkind, hwatched, watchers]⟩)
      | none =>
          exact .inr (.inr ⟨by simp [key?, hkind], rfl, r.flags,
            by simp [index, hkind, hwatched]⟩)

theorem lookup_index (r : Registry) (b : Breakpoint) (k : Key) :
    (r.index b).lookup k = if b.key? = some k then some b.id else r.lookup k := by
  rcases r.index_cases b with ⟨own, hkey, hindex⟩ | ⟨_, hkey, _, hindex⟩ | ⟨hkey, _, _, hindex⟩
  · rw [hindex, hkey, lookup_displace, lookup_setKey]
    simp
  · rw [hindex, hkey]
    rfl
  · rw [hindex, hkey]
    rfl

theorem watchers_index (r : Registry) (b : Breakpoint) (property : String) :
    (r.index b).watchers property =
      if b.watched? = some property then r.watchers property ++ [b.id]
      else r.watchers property := by
  rcases r.index_cases b with ⟨_, hkey, hindex⟩ | ⟨own, _, hown, hindex⟩ | ⟨_, hown, _, hindex⟩
  · rw [hindex, watched?_of_key? hkey, watchers_displace, watchers_setKey]
    rfl
  · rw [hindex, hown]
    by_cases heq : own = property
    · simp [watchers, heq]
    · simp [watchers, Table.get?_set, heq]
  · rw [hindex, hown]
    rfl

theorem entries_index (r : Registry) (b : Breakpoint) :
    (r.index b).entries = (r.displaced? b).elim r.entries r.entries.remove := by
  rcases r.index_cases b with ⟨own, hkey, hindex⟩ | ⟨_, hkey, _, hindex⟩ | ⟨hkey, _, _, hindex⟩
  · rw [hindex, entries_displace]
    simp only [displaced?, hkey, Option.bind_some]
    cases own <;> rfl
  · simp [hindex, displaced?, hkey]
  · simp [hindex, displaced?, hkey]

theorem lastId_index (r : Registry) (b : Breakpoint) : (r.index b).lastId = r.lastId := by
  rcases r.index_cases b with ⟨own, _, hindex⟩ | ⟨_, _, _, hindex⟩ | ⟨_, _, _, hindex⟩
  · rw [hindex, lastId_displace]
    cases own <;> rfl
  · rw [hindex]
  · rw [hindex]

theorem flags_index {b : Breakpoint} (h : b.kind ≠ .exception) (r : Registry) :
    (r.index b).flags = r.flags := by
  unfold index
  cases hkind : b.kind with
  | line | conditional => exact flags_displace _ _ _
  | call | leave =>
      cases b.function with
      | none => rfl
      | some name => exact flags_displace _ _ _
  | watch => cases b.watched? <;> rfl
  | exception => exact absurd hkind h

theorem get?_index (r : Registry) (b : Breakpoint) (id : Breakpoint.Id) :
    (r.index b).get? id = if r.displaced? b = some id then none else r.get? id := by
  unfold get?
  rw [entries_index]
  cases h : r.displaced? b with
  | none => simp
  | some old => simp [Table.get?_remove]

theorem get?_index_self (r : Registry) (b : Breakpoint) : (r.index b).get? b.id = r.get? b.id := by
  rw [get?_index, if_neg]
  intro hdisplaced
  exact (displaced?_eq_some_iff.mp hdisplaced).1 rfl

/-! Taking a breakpoint out of its index. -/

def unsetKey (r : Registry) (k : Key) (id : Breakpoint.Id) : Registry :=
  match k with
  | .line location => { r with lines := unindexKey r.lines location id }
  | .call name => { r with calls := unindexKey r.calls name id }
  | .leave name => { r with leaves := unindexKey r.leaves name id }

theorem get?_unindexKey {κ : Type} [DecidableEq κ] (t : Table κ Breakpoint.Id) (key : κ)
    (id : Breakpoint.Id) (other : κ) :
    (unindexKey t key id).get? other =
      if key = other ∧ t.get? key = some id then none else t.get? other := by
  unfold unindexKey
  by_cases hid : t.get? key = some id
  · simp [hid, Table.get?_remove]
  · simp [hid]

theorem lookup_unsetKey (r : Registry) (k : Key) (id : Breakpoint.Id) (other : Key) :
    (r.unsetKey k id).lookup other =
      if k = other ∧ r.lookup k = some id then none else r.lookup other := by
  cases k <;> cases other <;> simp [unsetKey, lookup, get?_unindexKey]

def setWatchers (r : Registry) (property : String) (ids : List Breakpoint.Id) : Registry :=
  if ids.isEmpty then { r with watches := r.watches.remove property }
  else { r with watches := r.watches.set property ids }

theorem watchers_setWatchers (r : Registry) (property : String) (ids : List Breakpoint.Id)
    (other : String) :
    (r.setWatchers property ids).watchers other =
      if property = other then ids else r.watchers other := by
  unfold setWatchers
  cases ids with
  | nil =>
      by_cases heq : property = other
      · simp [watchers, Table.get?_remove, heq]
      · simp [watchers, Table.get?_remove, heq]
  | cons id rest =>
      by_cases heq : property = other
      · simp [watchers, heq]
      · simp [watchers, Table.get?_set, heq]

/-- A breakpoint loses its key, if it still holds it, or its place in the list of its property;
another one only concerns the switches. -/
theorem unindex_cases (r : Registry) (b : Breakpoint) :
    (∃ k, b.key? = some k ∧ r.unindex b = r.unsetKey k b.id) ∨
      (∃ property, b.key? = none ∧ b.watched? = some property ∧
        (r.unindex b = r.setWatchers property ((r.watchers property).filter (· ≠ b.id)) ∨
          r.unindex b = r ∧ r.watchers property = [])) ∨
      (b.key? = none ∧ b.watched? = none ∧ ∃ flags, r.unindex b = { r with flags := flags }) := by
  cases hkind : b.kind with
  | line | conditional =>
      exact .inl ⟨.line b.location, by simp [key?, hkind], by simp [unindex, hkind, unsetKey]⟩
  | call =>
      cases hname : b.function with
      | some name =>
          exact .inl ⟨.call name, by simp [key?, hkind, hname],
            by simp [unindex, hkind, hname, unsetKey]⟩
      | none =>
          exact .inr (.inr ⟨by simp [key?, hkind, hname], by simp [watched?, hkind], r.flags,
            by simp [unindex, hkind, hname]⟩)
  | leave =>
      cases hname : b.function with
      | some name =>
          exact .inl ⟨.leave name, by simp [key?, hkind, hname],
            by simp [unindex, hkind, hname, unsetKey]⟩
      | none =>
          exact .inr (.inr ⟨by simp [key?, hkind, hname], by simp [watched?, hkind], r.flags,
            by simp [unindex, hkind, hname]⟩)
  | exception =>
      refine .inr (.inr ⟨by simp [key?, hkind], by simp [watched?, hkind], ?_⟩)
      by_cases hothers : r.list.any fun other => other.kind == .exception && other.id != b.id
      · exact ⟨r.flags, by simp [unindex, hkind, hothers]⟩
      · exact ⟨{ r.flags with onException := false }, by simp [unindex, hkind, hothers]⟩
  | watch =>
      cases hwatched : b.watched? with
      | some property =>
          refine .inr (.inl ⟨property, by simp [key?, hkind], rfl, ?_⟩)
          cases hids : r.watches.get? property with
          | some ids =>
              exact .inl (by simp [unindex, hkind, hwatched, hids, setWatchers, watchers])
          | none => exact .inr ⟨by simp [unindex, hkind, hwatched, hids], by simp [watchers, hids]⟩
      | none =>
          exact .inr (.inr ⟨by simp [key?, hkind], rfl, r.flags,
            by simp [unindex, hkind, hwatched]⟩)

theorem lookup_unindex (r : Registry) (b : Breakpoint) (k : Key) :
    (r.unindex b).lookup k =
      if b.key? = some k ∧ r.lookup k = some b.id then none else r.lookup k := by
  rcases r.unindex_cases b with ⟨own, hkey, hunindex⟩ | ⟨property, hkey, _, hunindex⟩ |
    ⟨hkey, _, _, hunindex⟩
  · rw [hunindex, hkey, lookup_unsetKey]
    by_cases heq : own = k
    · simp [heq]
    · simp [heq]
  · rcases hunindex with hunindex | ⟨hunindex, _⟩
    · rw [hunindex, hkey]
      unfold setWatchers
      split <;> rfl
    · rw [hunindex, hkey]
      rfl
  · rw [hunindex, hkey]
    rfl

theorem watchers_unindex (r : Registry) (b : Breakpoint) (property : String) :
    (r.unindex b).watchers property =
      if b.watched? = some property then (r.watchers property).filter (· ≠ b.id)
      else r.watchers property := by
  rcases r.unindex_cases b with ⟨own, hkey, hunindex⟩ | ⟨own, _, hown, hunindex⟩ |
    ⟨_, hown, _, hunindex⟩
  · rw [hunindex, watched?_of_key? hkey]
    cases own <;> rfl
  · rw [hown]
    rcases hunindex with hunindex | ⟨hunindex, hempty⟩
    · rw [hunindex, watchers_setWatchers]
      by_cases heq : own = property
      · simp [heq]
      · simp [heq]
    · rw [hunindex]
      by_cases heq : own = property
      · subst heq
        simp [hempty]
      · simp [heq]
  · rw [hunindex, hown]
    rfl

theorem entries_unindex (r : Registry) (b : Breakpoint) : (r.unindex b).entries = r.entries := by
  rcases r.unindex_cases b with ⟨own, _, hunindex⟩ | ⟨_, _, _, hunindex⟩ | ⟨_, _, _, hunindex⟩
  · rw [hunindex]
    cases own <;> rfl
  · rcases hunindex with hunindex | ⟨hunindex, _⟩
    · rw [hunindex]
      unfold setWatchers
      split <;> rfl
    · rw [hunindex]
  · rw [hunindex]

theorem lastId_unindex (r : Registry) (b : Breakpoint) : (r.unindex b).lastId = r.lastId := by
  rcases r.unindex_cases b with ⟨own, _, hunindex⟩ | ⟨_, _, _, hunindex⟩ | ⟨_, _, _, hunindex⟩
  · rw [hunindex]
    cases own <;> rfl
  · rcases hunindex with hunindex | ⟨hunindex, _⟩
    · rw [hunindex]
      unfold setWatchers
      split <;> rfl
    · rw [hunindex]
  · rw [hunindex]

theorem flags_unindex_of_ne {b : Breakpoint} (h : b.kind ≠ .exception) (r : Registry) :
    (r.unindex b).flags = r.flags := by
  unfold unindex
  cases hkind : b.kind with
  | line | conditional => rfl
  | call | leave => cases b.function <;> rfl
  | watch =>
      dsimp only
      split
      · split
        · split <;> rfl
        · rfl
      · rfl
  | exception => exact absurd hkind h

theorem flags_unindex_of_exception {r : Registry} {b : Breakpoint} (h : b.kind = .exception) :
    (r.unindex b).flags =
      if r.list.any fun other => other.kind == .exception && other.id != b.id then r.flags
      else { r.flags with onException := false } := by
  unfold unindex
  rw [h]
  dsimp only
  split <;> rfl

theorem get?_unindex (r : Registry) (b : Breakpoint) : (r.unindex b).get? = r.get? := by
  unfold get?
  rw [entries_unindex]

end Registry

end ScriptDebugger
