import ScriptDebugger.Proofs.Session.Assignment

namespace ScriptDebugger

theorem Value.eq_notFound {value : Value} (h : ¬value.isFound = true) : value = .notFound := by
  simpa [Value.isFound] using h

namespace Session

section Scopes

variable {h : Heap} {id : PropertyId}

theorem ownerAmong_eq_some_iff {scopes : List ObjectId} {owner : ObjectId} :
    ownerAmong h id scopes = .ok (some owner) ↔
      ∃ before outer value, scopes = before ++ owner :: outer ∧
        (∀ other ∈ before, h.get other id = .ok .notFound) ∧
        h.get owner id = .ok value ∧ value.isFound = true := by
  constructor
  · intro howner
    induction scopes with
    | nil => cases howner
    | cons scope outer ih =>
        obtain ⟨value, hvalue, hrest⟩ := bind_eq_ok.mp howner
        split at hrest
        · rename_i hfound
          cases hrest
          exact ⟨[], outer, value, rfl, by simp, hvalue, hfound⟩
        · rename_i hmissing
          obtain ⟨before, behind, found, rfl, hbefore, hfound⟩ := ih hrest
          rw [Value.eq_notFound hmissing] at hvalue
          exact ⟨scope :: before, behind, found, rfl,
            List.forall_mem_cons.mpr ⟨hvalue, hbefore⟩, hfound⟩
  · rintro ⟨before, outer, value, rfl, hbefore, hvalue, hfound⟩
    induction before with
    | nil =>
        refine bind_eq_ok.mpr ⟨value, hvalue, ?_⟩
        rw [if_pos hfound]
        rfl
    | cons scope rest ih =>
        rw [List.forall_mem_cons] at hbefore
        exact bind_eq_ok.mpr ⟨.notFound, hbefore.1, ih hbefore.2⟩

theorem ownerAmong_eq_none_iff {scopes : List ObjectId} :
    ownerAmong h id scopes = .ok none ↔ ∀ other ∈ scopes, h.get other id = .ok .notFound := by
  induction scopes with
  | nil => exact ⟨fun _ => by simp, fun _ => rfl⟩
  | cons scope outer ih =>
      rw [List.forall_mem_cons, ← ih]
      constructor
      · intro howner
        obtain ⟨value, hvalue, hrest⟩ := bind_eq_ok.mp howner
        split at hrest
        · cases hrest
        · rename_i hmissing
          exact ⟨Value.eq_notFound hmissing ▸ hvalue, hrest⟩
      · rintro ⟨hscope, houter⟩
        exact bind_eq_ok.mpr ⟨.notFound, hscope, houter⟩

end Scopes

/-- The slot that a path assigns to in a frame. -/
inductive AssignsTo (s : Session) (frame : Option Frame) (scope : Nat) (path : String) :
    Slot → Prop where
  | held {id : PropertyId} {before outer : List ObjectId} {owner : ObjectId} {value : Value}
      (hread : Path.read? path = some [id])
      (hscopes : s.rootScopes frame scope = .ok (before ++ owner :: outer))
      (hbefore : ∀ other ∈ before, s.heap.get other id = .ok .notFound)
      (howner : s.heap.get owner id = .ok value) (hfound : value.isFound = true) :
      AssignsTo s frame scope path (owner, id)
  | innermost {id : PropertyId} {owner : ObjectId} {outer : List ObjectId}
      (hread : Path.read? path = some [id])
      (hscopes : s.rootScopes frame scope = .ok (owner :: outer))
      (hmissing : ∀ other ∈ owner :: outer, s.heap.get other id = .ok .notFound) :
      AssignsTo s frame scope path (owner, id)
  | member {parents : List PropertyId} {id : PropertyId} {owner : ObjectId}
      (hread : Path.read? path = some (parents ++ [id]))
      (hparents : s.walk frame scope parents = .ok (some (.object owner))) :
      AssignsTo s frame scope path (owner, id)

section Slots

variable {s : Session} {frame : Option Frame} {scope : Nat} {path : String}

theorem assignsTo_of_target {slot : Slot} (h : s.target frame scope path = .ok slot) :
    s.AssignsTo frame scope path slot := by
  obtain ⟨owner, id⟩ := slot
  obtain ⟨parents, hread, howns⟩ := target_eq_ok h
  cases howns with
  | member hparents => exact .member hread hparents
  | @scope _ scopes holder _ hscopes hholder howner =>
      cases holder with
      | some holder =>
          cases howner
          obtain ⟨before, outer, value, rfl, hbefore, hvalue, hfound⟩ :=
            ownerAmong_eq_some_iff.mp hholder
          exact .held hread hscopes hbefore hvalue hfound
      | none =>
          obtain ⟨outer, rfl⟩ := List.head?_eq_some_iff.mp howner
          exact .innermost hread hscopes (ownerAmong_eq_none_iff.mp hholder)

theorem assignmentOf_eq_ok {a : Assignment} {after : Heap} (h : s.assignmentOf a = .ok after) :
    ∃ frame value slot, s.frameAt a.depth = .ok frame ∧
      s.evaluate a.expression frame = .ok value ∧ s.AssignsTo frame a.scope a.path slot ∧
      s.heap.Writes slot value after := by
  obtain ⟨frame, hframe, h⟩ := bind_eq_ok.mp h
  obtain ⟨value, hvalue, h⟩ := bind_eq_ok.mp h
  obtain ⟨slot, htarget, hset⟩ := bind_eq_ok.mp h
  exact ⟨frame, value, slot, hframe, hvalue, assignsTo_of_target htarget,
    Heap.writes_of_set (mapError_eq_ok.mp hset)⟩

end Slots

/-- What a command that assigns leads to.  It may be none that can be carried out, as when it names
no path. -/
inductive Assigned (s : Session) (c : Command) : Session → Prop where
  | unread (h : ∀ a, ¬c.Assigns a) : Assigned s c s
  | refused {a : Assignment} {e : Error} (hassigns : c.Assigns a)
      (hrefused : s.assignmentOf a = .error e) :
      Assigned s c (s.answer (c.answer.attr "success" "0"))
  | written {a : Assignment} {frame : Option Frame} {value : Value} {slot : Slot} {after : Heap}
      (hassigns : c.Assigns a) (hframe : s.frameAt a.depth = .ok frame)
      (hvalue : s.evaluate a.expression frame = .ok value)
      (hslot : s.AssignsTo frame a.scope a.path slot) (hwrites : s.heap.Writes slot value after) :
      Assigned s c ({ s with heap := after }.answer (c.answer.attr "success" "1"))

section Commands

variable {s : Session} {line : String} {c : Command}

theorem assigned_of_assigns {a : Assignment} (hparse : Command.parse line = .ok c)
    (h : c.Assigns a) : s.Assigned c (s.dispatch line) := by
  rw [dispatch_of_parse hparse (execute_of_assigns s h)]
  cases hassigned : s.assignmentOf a with
  | error e => exact .refused h hassigned
  | ok after =>
      obtain ⟨frame, value, slot, hframe, hvalue, hslot, hwrites⟩ := assignmentOf_eq_ok hassigned
      exact .written h hframe hvalue hslot hwrites

theorem dispatch_of_not_assigns (hparse : Command.parse line = .ok c)
    (hname : c.name = "property_set") (h : ∀ a, ¬c.Assigns a) : s.dispatch line = s := by
  have hends : Action.Ends (obey c) s fun _ _ => False := by
    rw [obey_of_name hname rfl]
    refine .read fun path hpath => .read fun depth hdepth => .read fun scope hscope =>
      .read fun expression hexpression => (h ⟨depth, scope, path, expression⟩ ?_).elim
    exact ⟨hname, Command.option?_of_required hpath, hdepth, hscope, hexpression⟩
  exact (dispatch_of_ends hparse hends).resolve_right id

/-- A command that assigns writes to the slot of its path or to none, and changes nothing of the
session besides.  While the client is there, only a success has written. -/
theorem assignment_writes_one_slot (hparse : Command.parse line = .ok c)
    (hname : c.name = "property_set") :
    s.Assigned c (s.dispatch line) ∧
      (s.outbox.isOpen = true → s.succeeds line = false → (s.dispatch line).heap = s.heap) := by
  by_cases hassigns : ∃ a, c.Assigns a
  · obtain ⟨a, hassigns⟩ := hassigns
    refine ⟨assigned_of_assigns hparse hassigns, fun hopen hfails => ?_⟩
    have hdispatch := dispatch_of_parse hparse (execute_of_assigns s hassigns)
    rw [succeeds_of_dispatch hdispatch rfl, hopen, attribute?_success_attr] at hfails
    rw [hdispatch]
    cases hassigned : s.assignmentOf a with
    | error e => rfl
    | ok after =>
        rw [hassigned] at hfails
        cases hfails
  · have hunread : ∀ a, ¬c.Assigns a := fun a h => hassigns ⟨a, h⟩
    have hsame := dispatch_of_not_assigns (s := s) hparse hname hunread
    rw [hsame]
    exact ⟨.unread hunread, fun _ _ => rfl⟩

theorem assignment_writes_one_slot_member :
    let line := "property_set -i 1 -n o.n -- dg=="
    let c : Command := ⟨"property_set", [("n", "o.n"), ("i", "1")], some "dg=="⟩
    let refused := "property_set -i 1 -n o.p.n -- dg=="
    Command.parse line = .ok c ∧ c.name = "property_set" ∧
      inMethod.Assigned c (inMethod.dispatch line) ∧
      inMethod.heap.slot? (1, .name "n") = some (.string "old") ∧
      (inMethod.dispatch line).heap.slot? (1, .name "n") = some (.string "new") ∧
      inMethod.outbox.isOpen = true ∧ inMethod.succeeds refused = false ∧
      (inMethod.dispatch refused).heap = inMethod.heap := by
  intro line c refused
  have hparse : Command.parse line = .ok c := Command.parse_eq_ok (by decide +kernel)
  have hrefused : Command.parse refused =
      .ok ⟨"property_set", [("n", "o.p.n"), ("i", "1")], some "dg=="⟩ :=
    Command.parse_eq_ok (by decide +kernel)
  have hfails : inMethod.succeeds refused = false := by decide +kernel
  exact ⟨hparse, rfl, (assignment_writes_one_slot hparse rfl).1, by decide +kernel,
    by decide +kernel, rfl, hfails, (assignment_writes_one_slot hrefused rfl).2 rfl hfails⟩

/-- A command is carried out when the client has gone, too, and then nothing tells of what it has
written. -/
theorem assignment_unheard :
    let s := inMethod.dropClient
    let line := "property_set -i 1 -n o.n -- dg=="
    (∃ c, Command.parse line = .ok c ∧ c.name = "property_set") ∧
      s.sent (.command line) = [] ∧
      (s.dispatch line).heap.slot? (1, .name "n") ≠ s.heap.slot? (1, .name "n") := by
  intro s line
  refine ⟨⟨⟨"property_set", [("n", "o.n"), ("i", "1")], some "dg=="⟩,
    Command.parse_eq_ok (by decide +kernel), rfl⟩, ?_, by decide +kernel⟩
  exact List.eq_nil_of_length_eq_zero (by decide +kernel)

end Commands

end Session

end ScriptDebugger
