import ScriptDebugger.Proofs.Registry.Consistent

namespace ScriptDebugger.Registry

inductive Operation where
  | add (b : Breakpoint)
  | remove (id : Breakpoint.Id)
  | update (id : Breakpoint.Id) (u : BreakpointUpdate)
  | hitLine (file : String) (line : Nat)
  | hitCall (name : String)
  | hitLeave (name : String)
  | hitException (className : String)
  | switch (change : SuspendFlags → SuspendFlags)
  | clear

def Operation.isAdd : Operation → Bool
  | .add _ => true
  | _ => false

def orElse {α : Type} (r : Registry) : Except Error (α × Registry) → Registry
  | .ok (_, after) => after
  | .error _ => r

def after (r : Registry) : Operation → Registry
  | .add b => r.orElse (r.add b)
  | .remove id => r.orElse (r.remove id)
  | .update id u => r.orElse (r.update id u)
  | .hitLine file line => (r.hitLine file line).2
  | .hitCall name => (r.hitCall name).2
  | .hitLeave name => (r.hitLeave name).2
  | .hitException className => (r.hitException className).2
  | .switch change => r.withFlags change
  | .clear => r.clear

def run (r : Registry) (operations : List Operation) : Registry :=
  operations.foldl after r

def issued? (r : Registry) : Operation → Option Breakpoint.Id
  | .add b =>
      match r.add b with
      | .ok (id, _) => some id
      | .error _ => none
  | _ => none

/-- The ids that operations hand out, one after the other. -/
def issued (r : Registry) : List Operation → List Breakpoint.Id
  | [] => []
  | operation :: rest => (r.issued? operation).toList ++ (r.after operation).issued rest

theorem orElse_induction {α : Type} {r : Registry} {outcome : Except Error (α × Registry)}
    {motive : Registry → Prop} (hsame : motive r)
    (hdone : ∀ {value after}, outcome = .ok (value, after) → motive after) :
    motive (r.orElse outcome) := by
  cases outcome with
  | error e => exact hsame
  | ok result => exact hdone rfl

theorem Consistent.after {r : Registry} (h : r.Consistent) (operation : Operation) :
    (r.after operation).Consistent := by
  cases operation with
  | add b => exact orElse_induction h h.add
  | remove id => exact orElse_induction h h.remove
  | update id u => exact orElse_induction h h.update
  | hitLine file line => exact h.hit _
  | hitCall name => exact h.hit _
  | hitLeave name => exact h.hit _
  | hitException className => exact h.hit _
  | switch change => exact h.withFlags change
  | clear => exact .clear

theorem Ordered.after {r : Registry} (h : r.Ordered) (hconsistent : r.Consistent)
    (operation : Operation) : (r.after operation).Ordered := by
  cases operation with
  | add b => exact orElse_induction h (h.add hconsistent)
  | remove id => exact orElse_induction h h.remove
  | update id u => exact orElse_induction h (h.update hconsistent)
  | hitLine file line => exact h.hit hconsistent _
  | hitCall name => exact h.hit hconsistent _
  | hitLeave name => exact h.hit hconsistent _
  | hitException className => exact h.hit hconsistent _
  | switch change => exact h
  | clear => exact List.Pairwise.nil

theorem Consistent.run {r : Registry} (h : r.Consistent) (operations : List Operation) :
    (r.run operations).Consistent := by
  induction operations generalizing r with
  | nil => exact h
  | cons operation rest ih => exact ih (h.after operation)

theorem Ordered.run {r : Registry} (h : r.Ordered) (hconsistent : r.Consistent)
    (operations : List Operation) : (r.run operations).Ordered := by
  induction operations generalizing r with
  | nil => exact h
  | cons operation rest ih => exact ih (h.after hconsistent operation) (hconsistent.after operation)

theorem lastId_moveLine (r : Registry) (b : Breakpoint) (line : Nat) :
    (r.moveLine b line).2.lastId = r.lastId := by
  unfold moveLine
  split
  · rw [lastId_index]
  · rfl

theorem lastId_moveWatch (r : Registry) (b : Breakpoint) (property : String) :
    (r.moveWatch b property).2.lastId = r.lastId := by
  unfold moveWatch
  split
  · rfl
  · rw [lastId_index, lastId_unindex]

theorem lastId_hit (r : Registry) (selected : Option Breakpoint.Id) :
    (r.hit selected).2.lastId = r.lastId := by
  rcases r.hit_cases selected with hsame | ⟨id, b, _, _, _, hcounted | hdropped⟩
  · rw [hsame]
  · rw [hcounted]
    rfl
  · rw [hdropped, lastId_drop, lastId_unindex]
    rfl

theorem lastId_updateLine (r : Registry) (b : Breakpoint) (u : BreakpointUpdate) :
    (r.updateLine b u).2.lastId = r.lastId := by
  unfold updateLine
  split
  · split
    · exact lastId_moveLine _ _ _
    · rfl
  · rfl

theorem lastId_updateExpression (r : Registry) (b : Breakpoint) (u : BreakpointUpdate) :
    (r.updateExpression b u).2.lastId = r.lastId := by
  unfold updateExpression
  split
  · cases u.watchFlags <;> cases u.expression
    · rfl
    · exact lastId_moveWatch _ _ _
    · rfl
    · exact lastId_moveWatch _ _ _
  · rfl

theorem lastId_update {r after : Registry} {b : Breakpoint} {id : Breakpoint.Id}
    {u : BreakpointUpdate} (h : r.update id u = .ok (b, after)) : after.lastId = r.lastId := by
  obtain ⟨old, changed, placed, middle, last, _, _, hline, hexpression, rfl⟩ := update_eq_ok h
  calc
    last.lastId = (middle.updateExpression placed u).2.lastId := by rw [hexpression]
    _ = (r.updateLine changed u).2.lastId := by rw [lastId_updateExpression, hline]
    _ = r.lastId := lastId_updateLine r changed u

theorem issued?_cases (r : Registry) (operation : Operation) :
    r.issued? operation = none ∧ (r.after operation).lastId = r.lastId ∨
      operation.isAdd = true ∧ r.issued? operation = some (r.lastId + 1) ∧
        (r.after operation).lastId = r.lastId + 1 := by
  cases operation with
  | add b =>
      cases hadd : r.add b with
      | error e => exact .inl ⟨by simp [issued?, hadd], by simp [after, hadd, orElse]⟩
      | ok result =>
          obtain ⟨id, added⟩ := result
          obtain ⟨_, hid, hadded⟩ := add_eq_ok hadd
          have hlast : added.lastId = id := by
            rw [hadded, lastId_put, lastId_index]
          exact .inr ⟨rfl, by simp [issued?, hadd, hid], by simp [after, hadd, orElse, hlast, hid]⟩
  | remove id =>
      refine .inl ⟨rfl, orElse_induction (motive := (·.lastId = r.lastId)) rfl ?_⟩
      intro b removed hremove
      obtain ⟨_, rfl⟩ := remove_eq_ok hremove
      rw [lastId_unindex, lastId_drop]
  | update id u =>
      exact .inl ⟨rfl, orElse_induction (motive := (·.lastId = r.lastId)) rfl lastId_update⟩
  | hitLine file line => exact .inl ⟨rfl, lastId_hit _ _⟩
  | hitCall name => exact .inl ⟨rfl, lastId_hit _ _⟩
  | hitLeave name => exact .inl ⟨rfl, lastId_hit _ _⟩
  | hitException className => exact .inl ⟨rfl, lastId_hit _ _⟩
  | switch change => exact .inl ⟨rfl, rfl⟩
  | clear => exact .inl ⟨rfl, rfl⟩

theorem issued_eq_range' (r : Registry) (operations : List Operation) :
    ∃ count : Nat, count ≤ operations.countP Operation.isAdd ∧
      (r.run operations).lastId = r.lastId + count ∧
        r.issued operations = List.range' (r.lastId + 1) count := by
  induction operations generalizing r with
  | nil => exact ⟨0, Nat.le_refl 0, rfl, rfl⟩
  | cons operation rest ih =>
      obtain ⟨count, hcount, hlast, hissued⟩ := ih (r.after operation)
      rcases r.issued?_cases operation with ⟨hnone, hsame⟩ | ⟨hadd, hsome, hnext⟩
      · refine ⟨count, ?_, ?_, ?_⟩
        · rw [List.countP_cons]
          exact Nat.le_add_right_of_le hcount
        · rw [← hsame]
          exact hlast
        · rw [issued, hnone, hissued, hsame]
          rfl
      · refine ⟨count + 1, ?_, ?_, ?_⟩
        · rw [List.countP_cons, if_pos hadd]
          exact Nat.succ_le_succ hcount
        · have hrun : (r.run (operation :: rest)).lastId = r.lastId + 1 + count := by
            rw [← hnext]
            exact hlast
          rw [hrun, Nat.add_assoc, Nat.add_comm 1]
        · rw [issued, hsome, hissued, hnext, List.range'_succ]
          rfl

/-! What a client of the registry relies on. -/

/-- The tables of a registry and its breakpoints fit each other. -/
structure WellIndexed (r : Registry) : Prop where
  line_stored : ∀ {location id}, r.lines.get? location = some id →
    ∃ b, r.get? id = some b ∧ b.kind.isLine = true ∧ b.location = location
  call_stored : ∀ {name id}, r.calls.get? name = some id →
    ∃ b, r.get? id = some b ∧ b.kind = .call ∧ b.function = some name
  leave_stored : ∀ {name id}, r.leaves.get? name = some id →
    ∃ b, r.get? id = some b ∧ b.kind = .leave ∧ b.function = some name
  line_indexed : ∀ {id b}, r.get? id = some b → b.kind.isLine = true →
    r.lines.get? b.location = some id
  call_indexed : ∀ {id b name}, r.get? id = some b → b.kind = .call → b.function = some name →
    r.calls.get? name = some id
  leave_indexed : ∀ {id b name}, r.get? id = some b → b.kind = .leave → b.function = some name →
    r.leaves.get? name = some id
  watch_stored : ∀ {property ids id}, r.watches.get? property = some ids → id ∈ ids →
    ∃ b, r.get? id = some b ∧ b.kind = .watch ∧ b.expression = some property
  watch_count : ∀ {id b}, r.get? id = some b → b.kind = .watch → ∀ property,
    ((r.watches.get? property).getD []).count id =
      if b.expression = some property then 1 else 0
  id_eq : ∀ {id b}, r.get? id = some b → b.id = id
  id_le : ∀ {id b}, r.get? id = some b → id ≤ r.lastId
  policy_valid : ∀ {id b}, r.get? id = some b →
    ¬(b.hitCondition = some .multiple ∧ b.hitValue = 0)
  ordered : r.entries.keys.Pairwise (· < ·)

theorem Consistent.wellIndexed {r : Registry} (h : r.Consistent) (hordered : r.Ordered) :
    r.WellIndexed where
  line_stored := by
    intro location id hid
    obtain ⟨b, hb, hkey⟩ := h.lookup_iff (k := .line location).mp hid
    exact ⟨b, hb, Breakpoint.key?_eq_line_iff.mp hkey⟩
  call_stored := by
    intro name id hid
    obtain ⟨b, hb, hkey⟩ := h.lookup_iff (k := .call name).mp hid
    exact ⟨b, hb, Breakpoint.key?_eq_call_iff.mp hkey⟩
  leave_stored := by
    intro name id hid
    obtain ⟨b, hb, hkey⟩ := h.lookup_iff (k := .leave name).mp hid
    exact ⟨b, hb, Breakpoint.key?_eq_leave_iff.mp hkey⟩
  line_indexed := by
    intro id b hb hkind
    exact h.lookup_iff (k := .line b.location).mpr ⟨b, hb, Breakpoint.key?_of_isLine hkind⟩
  call_indexed := by
    intro id b name hb hkind hname
    exact h.lookup_iff (k := .call name).mpr
      ⟨b, hb, Breakpoint.key?_eq_call_iff.mpr ⟨hkind, hname⟩⟩
  leave_indexed := by
    intro id b name hb hkind hname
    exact h.lookup_iff (k := .leave name).mpr
      ⟨b, hb, Breakpoint.key?_eq_leave_iff.mpr ⟨hkind, hname⟩⟩
  watch_stored := by
    intro property ids id hids hid
    have hmem : id ∈ r.watchers property := by
      unfold watchers
      rw [hids]
      exact hid
    obtain ⟨b, hb, hwatched⟩ := h.mem_watchers_iff.mp hmem
    exact ⟨b, hb, Breakpoint.watched?_eq_some_iff.mp hwatched⟩
  watch_count := by
    intro id b hb hkind property
    have hmem : id ∈ r.watchers property ↔ b.expression = some property := by
      rw [h.mem_watchers_iff, hb]
      simp [Breakpoint.watched?_eq_some_iff, hkind]
    change (r.watchers property).count id = _
    rw [(h.watchers_nodup property).count]
    simp only [hmem]
  id_eq := h.id_eq
  id_le := h.id_le
  policy_valid := by
    intro id b hb hbad
    have hvalid := h.valid hb
    rw [Breakpoint.validate, if_pos hbad] at hvalid
    contradiction
  ordered := hordered

theorem Consistent.update_line {r after : Registry} (h : r.Consistent) {b : Breakpoint}
    {id : Breakpoint.Id} {u : BreakpointUpdate} {line : Nat}
    (hupdate : r.update id u = .ok (b, after)) (hline : u.line = some line)
    (hkind : b.kind.isLine = true) : b.line = line := by
  obtain ⟨old, changed, placed, middle, last, hget, rfl, hpolicy, _, hplace, _, hexpression, _,
    rfl⟩ := h.update_stages hupdate
  obtain ⟨_, hchanged⟩ := withPolicy_eq_ok hpolicy
  obtain ⟨_, hplaced⟩ := r.updateLine_fst changed u
  obtain ⟨_, _, _, hb⟩ := middle.updateExpression_fst placed u
  rw [hplace] at hplaced
  rw [hexpression] at hb
  have hbKind : b.kind = placed.kind := by rw [show b = _ from hb]
  have hplacedKind : placed.kind = changed.kind := by rw [show placed = _ from hplaced]
  have hchangedKind : changed.kind.isLine = true := hplacedKind ▸ hbKind ▸ hkind
  have hindexed : r.lines.get? changed.location = some changed.id := by
    rw [hchanged] at hchangedKind ⊢
    exact h.lookup_iff (k := .line old.location).mpr
      ⟨old, hget, Breakpoint.key?_of_isLine hchangedKind⟩
  have hmoved : (r.updateLine changed u).1.line = line := by
    simp [Registry.updateLine, Registry.moveLine, hline, hindexed, hchangedKind]
  rw [hplace] at hmoved
  rw [show b = _ from hb]
  exact hmoved

theorem run_empty_wellIndexed (operations : List Operation) :
    (empty.run operations).WellIndexed ∧
      (empty.issued operations).Nodup ∧
      (∀ id ∈ empty.issued operations, id ≤ (empty.run operations).lastId) ∧
      (empty.run operations).lastId ≤ operations.countP Operation.isAdd ∧
      ∀ {id u b after line}, (empty.run operations).update id u = .ok (b, after) →
        u.line = some line → b.kind.isLine = true → b.line = line := by
  have hconsistent := Consistent.empty.run operations
  have hordered := Ordered.run (r := empty) List.Pairwise.nil .empty operations
  obtain ⟨count, hcount, hlast, hissued⟩ := empty.issued_eq_range' operations
  have hlast : (empty.run operations).lastId = count := hlast.trans (Nat.zero_add count)
  refine ⟨hconsistent.wellIndexed hordered, ?_, ?_, ?_, hconsistent.update_line⟩
  · rw [hissued]
    exact List.nodup_range'
  · intro id hid
    rw [hissued] at hid
    have hlt : id < 1 + count := (List.mem_range'_1.mp hid).2
    rw [Nat.add_comm] at hlt
    rw [hlast]
    exact Nat.le_of_lt_succ hlt
  · rw [hlast]
    exact hcount

end ScriptDebugger.Registry
