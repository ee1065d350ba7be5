import ScriptDebugger.Proofs.Property.AccessPath
import ScriptDebugger.Proofs.Property.Slots
import ScriptDebugger.Proofs.Session.Addresses
import ScriptDebugger.Proofs.Session.Replies

namespace ScriptDebugger

/-- The value of an expression is to be assigned to a path. -/
structure Assignment where
  depth : Nat
  scope : Nat
  path : String
  expression : String
  deriving DecidableEq, Repr

def Assignment.query (a : Assignment) : Query where
  depth := a.depth
  scope := a.scope
  path := some a.path

structure Command.Assigns (c : Command) (a : Assignment) : Prop where
  name : c.name = "property_set"
  path : c.option? "n" = some a.path
  depth : Session.depthOf c = .ok a.depth
  scope : Session.scopeOf c = .ok a.scope
  expression : c.requiredData = .ok a.expression

namespace Session

def lookupSlots (h : Heap) (id : PropertyId) : List ObjectId → List Slot
  | [] => []
  | scope :: outer =>
      (scope, id) ::
        match h.get scope id with
        | .ok value => if value.isFound then [] else lookupSlots h id outer
        | .error _ => []

def followSlots (h : Heap) : Value → List PropertyId → List Slot
  | .object owner, id :: rest =>
      (owner, id) ::
        match h.get owner id with
        | .ok next => if next.isFound then followSlots h next rest else []
        | .error _ => []
  | _, _ => []

/-- The slots that are read when a path is walked. -/
def walkSlots (s : Session) (frame : Option Frame) (scope : Nat) : List PropertyId → List Slot
  | [] => []
  | first :: rest =>
      (match receiver? frame first, s.rootScopes frame scope with
        | none, .ok scopes => lookupSlots s.heap first scopes
        | _, _ => []) ++
      match s.lookupRoot frame scope first with
      | .ok (some value) => followSlots s.heap value rest
      | _ => []

section Reading

variable {h after : Heap}

theorem lookup_cons_of_get {scope : ObjectId} {id : PropertyId} {value : Value}
    (hget : h.get scope id = .ok value) (outer : List ObjectId) :
    Host.lookup h id (scope :: outer) =
      if value.isFound then .ok (some value) else Host.lookup h id outer := by
  rw [Host.lookup, hget]
  rfl

theorem lookup_congr {id : PropertyId} {scopes : List ObjectId}
    (hsame : ∀ slot ∈ lookupSlots h id scopes, after.get slot.1 slot.2 = h.get slot.1 slot.2) :
    Host.lookup after id scopes = Host.lookup h id scopes := by
  induction scopes with
  | nil => rfl
  | cons scope outer ih =>
      rw [lookupSlots, List.forall_mem_cons] at hsame
      obtain ⟨hfirst, hrest⟩ := hsame
      cases hget : h.get scope id with
      | error e =>
          rw [Host.lookup, Host.lookup, hfirst, hget]
          rfl
      | ok value =>
          rw [hget] at hrest
          dsimp only at hrest
          rw [lookup_cons_of_get (hfirst.trans hget), lookup_cons_of_get hget]
          split
          · rfl
          · rename_i hmissing
            rw [if_neg hmissing] at hrest
            exact ih hrest

theorem follow_congr {value : Value} {ids : List PropertyId}
    (hsame : ∀ slot ∈ followSlots h value ids, after.get slot.1 slot.2 = h.get slot.1 slot.2) :
    follow after value ids = follow h value ids := by
  induction ids generalizing value with
  | nil => cases value <;> rfl
  | cons id rest ih =>
      cases value with
      | scalar s => rfl
      | object owner =>
          rw [followSlots, List.forall_mem_cons] at hsame
          obtain ⟨hfirst, hrest⟩ := hsame
          cases hget : h.get owner id with
          | error e =>
              rw [follow, follow, hfirst, hget]
              rfl
          | ok next =>
              rw [hget] at hrest
              dsimp only at hrest
              rw [follow_cons_of_get (hfirst.trans hget), follow_cons_of_get hget]
              split
              · rename_i hfound
                rw [if_pos hfound] at hrest
                exact ih hrest
              · rfl

end Reading

section Writing

variable {h after : Heap} {owner : ObjectId} {id : PropertyId} {value : Value}

theorem lookup_of_get {scope : ObjectId} {outer : List ObjectId}
    (hget : h.get scope id = .ok value) (hfound : value.isFound = true) :
    Host.lookup h id (scope :: outer) = .ok (some value) := by
  rw [lookup_cons_of_get hget, if_pos hfound]

theorem lookup_set (hset : h.set owner id value = .ok after)
    (hget : after.get owner id = .ok value) (hfound : value.isFound = true)
    {scopes : List ObjectId} (howner : ownerAmong h id scopes = .ok (some owner)) :
    Host.lookup after id scopes = .ok (some value) := by
  induction scopes with
  | nil => cases howner
  | cons scope outer ih =>
      by_cases hscope : scope = owner
      · exact lookup_of_get (hscope ▸ hget) hfound
      · obtain ⟨old, hold, hothers⟩ := bind_eq_ok.mp howner
        split at hothers
        · cases hothers
          exact absurd rfl hscope
        · rename_i hmissing
          have hother : ((scope, id) : Slot) ≠ (owner, id) := fun heq =>
            hscope (congrArg Prod.fst heq)
          have hsame : after.get scope id = .ok old := (Heap.get_set_of_ne hset hother).trans hold
          rw [lookup_cons_of_get hsame, if_neg hmissing]
          exact ih hothers

theorem lookup_set_or_head (hset : h.set owner id value = .ok after)
    (hget : after.get owner id = .ok value) (hfound : value.isFound = true)
    {scopes : List ObjectId} {holder : Option ObjectId}
    (hholder : ownerAmong h id scopes = .ok holder) (howner : holder.or scopes.head? = some owner) :
    Host.lookup after id scopes = .ok (some value) := by
  cases holder with
  | some holder =>
      cases howner
      exact lookup_set hset hget hfound hholder
  | none =>
      obtain ⟨outer, rfl⟩ := List.head?_eq_some_iff.mp howner
      exact lookup_of_get hget hfound

end Writing

section Walking

variable {s t : Session} {frame : Option Frame} {scope : Nat}

theorem rootScopes_congr (hhost : t.host = s.host) (frame : Option Frame) (scope : Nat) :
    t.rootScopes frame scope = s.rootScopes frame scope := by
  rw [rootScopes, rootScopes, hhost]

theorem walk_congr (hhost : t.host = s.host) {ids : List PropertyId}
    (hsame : ∀ slot ∈ s.walkSlots frame scope ids,
      t.heap.get slot.1 slot.2 = s.heap.get slot.1 slot.2) :
    t.walk frame scope ids = s.walk frame scope ids := by
  cases ids with
  | nil => rfl
  | cons first rest =>
      rw [walkSlots, List.forall_mem_append] at hsame
      obtain ⟨hfirst, hrest⟩ := hsame
      have hroot : t.lookupRoot frame scope first = s.lookupRoot frame scope first := by
        unfold lookupRoot
        cases hreceiver : receiver? frame first with
        | some receiver => rfl
        | none =>
            dsimp only
            rw [rootScopes_congr hhost]
            cases hscopes : s.rootScopes frame scope with
            | error e => rfl
            | ok scopes =>
                rw [hreceiver, hscopes] at hfirst
                exact congrArg (Except.mapError Error.host) (lookup_congr hfirst)
      rw [walk, walk, hroot]
      cases hlookup : s.lookupRoot frame scope first with
      | error e => rfl
      | ok found =>
          cases found with
          | none => rfl
          | some value =>
              rw [hlookup] at hrest
              exact congrArg (Except.mapError Error.host) (follow_congr hrest)

/-- The object that a path assigns to, given its last id and those before it: the first scope that
has a single id, or else the innermost one, and the object that the ids before the last lead to. -/
inductive Owns (s : Session) (frame : Option Frame) (scope : Nat) :
    List PropertyId → PropertyId → ObjectId → Prop where
  | scope {id : PropertyId} {scopes : List ObjectId} {holder : Option ObjectId} {owner : ObjectId}
      (hscopes : s.rootScopes frame scope = .ok scopes)
      (hholder : ownerAmong s.heap id scopes = .ok holder)
      (howner : holder.or scopes.head? = some owner) : Owns s frame scope [] id owner
  | member {parents : List PropertyId} {id : PropertyId} {owner : ObjectId}
      (hparents : s.walk frame scope parents = .ok (some (.object owner))) :
      Owns s frame scope parents id owner

theorem target_eq_ok {path : String} {owner : ObjectId} {id : PropertyId}
    (h : s.target frame scope path = .ok (owner, id)) :
    ∃ parents, Path.read? path = some (parents ++ [id]) ∧
      s.Owns frame scope parents id owner := by
  unfold target at h
  cases hread : Path.read? path with
  | none =>
      rw [hread] at h
      cases h
  | some ids =>
      rw [hread, Option.map_some] at h
      rcases List.eq_nil_or_concat ids with rfl | ⟨parents, last, rfl⟩
      · cases h
      rw [List.concat_eq_append, List.reverse_append, List.reverse_singleton,
        List.singleton_append] at h
      cases hparents : parents.reverse with
      | nil =>
          obtain rfl := List.reverse_eq_nil_iff.mp hparents
          obtain ⟨scopes, hscopes, h⟩ := bind_eq_ok.mp h
          obtain ⟨found, hfound, h⟩ := bind_eq_ok.mp h
          split at h
          · rename_i howner
            cases h
            exact ⟨[], rfl, .scope hscopes (mapError_eq_ok.mp hfound) howner⟩
          · cases h
      | cons parent others =>
          rw [hparents] at h
          obtain ⟨found, hfound, h⟩ := bind_eq_ok.mp h
          rw [← hparents, List.reverse_reverse] at hfound
          split at h
          · cases h
            exact ⟨parents, by rw [List.concat_eq_append], .member hfound⟩
          · cases h

/-- What was written under a path is what the path leads to, provided that its slot does not stand
on the way to the object that has it, and that no receiver is read in its place. -/
theorem walk_set {parents : List PropertyId} {id : PropertyId} {owner : ObjectId} {value : Value}
    (howns : s.Owns frame scope parents id owner)
    (haside : (owner, id) ∉ s.walkSlots frame scope parents)
    (hreceiver : parents = [] → receiver? frame id = none) (hhost : t.host = s.host)
    (hset : s.heap.set owner id value = .ok t.heap) (hget : t.heap.get owner id = .ok value)
    (hfound : value.isFound = true) :
    t.walk frame scope (parents ++ [id]) = .ok (some value) := by
  cases howns with
  | scope hscopes hholder howner =>
      refine walk_eq_some.mpr ⟨value, ?_, rfl⟩
      rw [lookupRoot, hreceiver rfl]
      dsimp only
      rw [rootScopes_congr hhost, hscopes]
      exact mapError_eq_ok.mpr (lookup_set_or_head hset hget hfound hholder howner)
  | member hparents =>
      have hsame : t.walk frame scope parents = .ok (some (.object owner)) :=
        (walk_congr hhost fun slot hslot =>
          Heap.get_set_of_ne hset fun heq => haside (heq ▸ hslot)).trans hparents
      refine (walk_append hsame).mpr ?_
      rw [follow_cons_of_get hget, if_pos hfound]
      rfl

theorem resolve_set {path : String} {owner : ObjectId} {id : PropertyId} {value : Value}
    (htarget : s.target frame scope path = .ok (owner, id))
    (haside : ∀ ids, Path.read? path = some ids →
      (owner, id) ∉ s.walkSlots frame scope ids.dropLast)
    (hreceiver : ∀ id, Path.read? path = some [id] → receiver? frame id = none)
    (hhost : t.host = s.host) (hset : s.heap.set owner id value = .ok t.heap)
    (hget : t.heap.get owner id = .ok value) (hfound : value.isFound = true) :
    t.resolve frame scope path = .ok value := by
  obtain ⟨parents, hread, howns⟩ := target_eq_ok htarget
  have hparents := haside _ hread
  rw [List.dropLast_concat] at hparents
  have hsingle : parents = [] → receiver? frame id = none := by
    rintro rfl
    exact hreceiver id hread
  exact resolve_eq_ok.mpr <| .inl <| walkPath_eq_some.mpr
    ⟨_, hread, walk_set howns hparents hsingle hhost hset hget hfound⟩

end Walking

def assignmentOf (s : Session) (a : Assignment) : Except Error Heap :=
  s.assignExpression a.depth a.scope a.path a.expression

section Commands

variable {s : Session} {c : Command} {a : Assignment}

theorem execute_of_assigns (s : Session) (h : c.Assigns a) :
    s.execute c = .ok
      ({ s with heap := (s.assignmentOf a).toOption.getD s.heap }.answer
        (c.answer.attr "success" (if (s.assignmentOf a).isOk then "1" else "0"))) := by
  rw [execute, obey_of_name h.name rfl, propertySetCommand, Command.required, h.path, Action.on_read_ok,
    h.depth, Action.on_read_ok, h.scope, Action.on_read_ok, h.expression, Action.on_read_ok,
    Action.on_get]
  rfl

theorem assigned_of_succeeds {line : String} (hparse : Command.parse line = .ok c)
    (hassigns : c.Assigns a) (hsuccess : s.succeeds line = true) :
    s.outbox.isOpen = true ∧ ∃ after, s.assignmentOf a = .ok after ∧
      s.dispatch line = { s with heap := after }.answer (c.answer.attr "success" "1") := by
  have hdispatch := dispatch_of_parse hparse (execute_of_assigns s hassigns)
  rw [succeeds_of_dispatch hdispatch rfl, Bool.and_eq_true, attribute?_success_attr] at hsuccess
  obtain ⟨hopen, htold⟩ := hsuccess
  refine ⟨hopen, ?_⟩
  cases hassigned : s.assignmentOf a with
  | ok after =>
      rw [hassigned] at hdispatch
      exact ⟨after, rfl, hdispatch⟩
  | error e =>
      rw [hassigned] at htold
      cases htold

theorem execute_of_asks_of_read?_eq_none (s : Session) {depth scope : Nat} {path : String}
    (h : c.Asks ⟨depth, scope, some path⟩) (hread : Path.read? path = none) :
    s.execute c = .ok (s.answerOutcome c do
      let frame ← s.frameAt depth
      let value ← s.orEvaluated frame path none
      return Query.answer ⟨depth, scope, some path⟩ c [s.rootNode path value]) := by
  rw [execute_of_asks s h, treesFor]
  refine congrArg (fun outcome => Except.ok (s.answerOutcome c outcome)) ?_
  cases s.frameAt depth with
  | error e => rfl
  | ok frame =>
      have hresolve : s.resolve frame scope path = s.orEvaluated frame path none := by
        rw [resolve_eq, walkPath, hread]
        rfl
      change Except.map _ (s.resolve frame scope path >>= _) = _
      rw [hresolve]
      change _ = s.orEvaluated frame path none >>= _
      cases s.orEvaluated frame path none <;> rfl

theorem execute_of_assigns_of_read?_eq_none (s : Session) (h : c.Assigns a)
    (hread : Path.read? a.path = none) :
    s.execute c = .ok (s.answer (c.answer.attr "success" "0")) := by
  have hrefused : ∃ e, s.assignmentOf a = .error e := by
    cases hassigned : s.assignmentOf a with
    | error e => exact ⟨e, rfl⟩
    | ok after =>
        obtain ⟨frame, _, hassigned⟩ := bind_eq_ok.mp hassigned
        obtain ⟨value, _, hassigned⟩ := bind_eq_ok.mp hassigned
        obtain ⟨⟨owner, id⟩, htarget, _⟩ := bind_eq_ok.mp hassigned
        obtain ⟨parents, hsome, _⟩ := target_eq_ok htarget
        cases hread.symm.trans hsome
  obtain ⟨e, hrefused⟩ := hrefused
  rw [execute_of_assigns s h, hrefused]
  rfl

end Commands

/-- The texts that are read as paths are those that consist of names and brackets, and they are
access paths unless they are loose somewhere.  Any other text is left to the interpreter if it is
asked for, and nothing can be assigned to it. -/
theorem only_pieces_are_walked (path : String) :
    (∀ ids, Path.read? path = some ids ↔
      ∃ pieces, Path.Consists (Text.trimChars path.toList) pieces ∧
        pieces.map Path.Piece.propertyId = ids) ∧
    (∀ ids, Path.read? path = some ids →
      Path.IsAccessPath (Text.trimChars path.toList) ∨
        Path.IsLoose (Text.trimChars path.toList)) ∧
    (Path.read? path = none → ∀ (s : Session) (c : Command),
      (∀ depth scope, c.Asks ⟨depth, scope, some path⟩ →
        s.execute c = .ok (s.answerOutcome c do
          let frame ← s.frameAt depth
          let value ← s.orEvaluated frame path none
          return Query.answer ⟨depth, scope, some path⟩ c [s.rootNode path value])) ∧
      ∀ a, c.Assigns a → a.path = path →
        s.execute c = .ok (s.answer (c.answer.attr "success" "0"))) := by
  refine ⟨fun ids => Path.read?_eq_some_iff, fun ids hread => ?_, fun hread s c => ⟨?_, ?_⟩⟩
  · obtain ⟨pieces, hpieces, _⟩ := Path.read?_eq_some_iff.mp hread
    exact hpieces.isAccessPath_or
  · intro depth scope hasks
    exact execute_of_asks_of_read?_eq_none s hasks hread
  · rintro a hassigns rfl
    exact execute_of_assigns_of_read?_eq_none s hassigns hread

def inMethod : Session :=
  (opened {} (Host.ofTable none [("v", .ok (.string "new"))])
    { objects := [{ slots := [(.name "o", .object 1)] }, { slots := [(.name "n", .string "old")] },
        {}] }).run
    [.enterContext,
      .hook (.enter { file := "/a.js", line := 1, scope := some 0, receiver := some 2 })]

/-- A computed subscript is no access path, and assigns to the member that has its name. -/
theorem computed_subscript_is_walked :
    Path.read? "o[n]" = some [.name "o", .name "n"] ∧
      ¬ Path.IsAccessPath (Text.trimChars "o[n]".toList) ∧
      inMethod.target (some { file := "/a.js", line := 1, scope := some 0, receiver := some 2 })
        localScope "o[n]" = .ok (1, .name "n") := by
  refine ⟨by decide +kernel, fun h => ?_, by decide +kernel⟩
  have hsubscript : Path.IsSubscript ['n'] :=
    @Path.isSubscript_of_isAccessPath ['o'] ['n']
      (List.forall_mem_singleton.mpr (by decide +kernel))
      (List.forall_mem_singleton.mpr (by decide +kernel)) h
  rcases hsubscript with ⟨_, hdigits⟩ | ⟨quote, text, hquote, _, htext⟩
  · exact absurd (hdigits 'n' (by decide +kernel)) (by decide +kernel)
  · have hlength := congrArg List.length htext
    simp [show Text.trimChars ['n'] = ['n'] by decide +kernel] at hlength

/-- An assignment that the client is told to be a success.  The value is there, its slot recalls
what is written to it, and does not stand on the way to the object that has it. -/
structure Accepts (s : Session) (line : String) (a : Assignment) (frame : Option Frame)
    (value : Value) : Prop where
  parses : ∃ c, Command.parse line = .ok c ∧ c.Assigns a
  frameAt : s.frameAt a.depth = .ok frame
  evaluates : s.evaluate a.expression frame = .ok value
  succeeds : s.succeeds line = true
  isFound : value.isFound = true
  recalls : ∀ slot, s.target frame a.scope a.path = .ok slot → s.heap.Recalls slot
  aside : ∀ slot ids, s.target frame a.scope a.path = .ok slot → Path.read? a.path = some ids →
    slot ∉ s.walkSlots frame a.scope ids.dropLast

theorem Accepts.of_target {s : Session} {line : String} {a : Assignment} {frame : Option Frame}
    {value : Value} {c : Command} {owner : ObjectId} {id : PropertyId} {ids : List PropertyId}
    (hparse : Command.parse line = .ok c) (hassigns : c.Assigns a)
    (hframe : s.frameAt a.depth = .ok frame) (hvalue : s.evaluate a.expression frame = .ok value)
    (hsuccess : s.succeeds line = true) (hfound : value.isFound = true)
    (htarget : s.target frame a.scope a.path = .ok (owner, id))
    (hrecalls : s.heap.Recalls (owner, id)) (hread : Path.read? a.path = some ids)
    (haside : (owner, id) ∉ s.walkSlots frame a.scope ids.dropLast) :
    s.Accepts line a frame value where
  parses := ⟨c, hparse, hassigns⟩
  frameAt := hframe
  evaluates := hvalue
  succeeds := hsuccess
  isFound := hfound
  recalls slot hslot := by
    cases htarget.symm.trans hslot
    exact hrecalls
  aside slot ids' hslot hids := by
    cases htarget.symm.trans hslot
    cases hread.symm.trans hids
    exact haside

/-- Whoever asks for a path that was assigned to is shown the value, unless the path is a single id
and a receiver is read in its place. -/
theorem assigned_is_read {s : Session} {line asked : String} {a : Assignment}
    {frame : Option Frame} {value : Value} {c : Command} (h : s.Accepts line a frame value)
    (hreceiver : ∀ id, Path.read? a.path = some [id] → receiver? frame id = none)
    (hparse : Command.parse asked = .ok c) (hasks : c.Asks a.query) :
    (s.dispatch line).sent (.command asked) =
      [.answer (a.query.answer c [(s.dispatch line).rootNode a.path value])] := by
  obtain ⟨setting, hsetting, hassigns⟩ := h.parses
  obtain ⟨hopen, after, hassigned, hdispatch⟩ :=
    assigned_of_succeeds hsetting hassigns h.succeeds
  obtain ⟨frame', hframe, hassigned⟩ := bind_eq_ok.mp hassigned
  obtain ⟨value', hvalue, hassigned⟩ := bind_eq_ok.mp hassigned
  cases h.frameAt.symm.trans hframe
  cases h.evaluates.symm.trans hvalue
  obtain ⟨⟨owner, id⟩, htarget, hset⟩ := bind_eq_ok.mp hassigned
  have hset := mapError_eq_ok.mp hset
  rw [hdispatch]
  generalize ht : { s with heap := after }.answer (setting.answer.attr "success" "1") = t
  have hheap : t.heap = after := ht ▸ rfl
  have hhost : t.host = s.host := ht ▸ rfl
  have hframe' : t.frameAt a.depth = .ok frame := ht ▸ hframe
  have hresolve : t.resolve frame a.scope a.path = .ok value :=
    resolve_set htarget (fun ids => h.aside _ ids htarget) hreceiver hhost (hheap ▸ hset)
      (hheap ▸ h.recalls _ htarget value after hset) h.isFound
  have htrees : t.treesFor a.query = .ok [t.rootNode a.path value] := by
    change (t.frameAt a.depth >>= fun frame => t.resolve frame a.scope a.path >>= _) = _
    rw [hframe']
    change (t.resolve frame a.scope a.path >>= _) = _
    rw [hresolve]
    rfl
  have hexecute := execute_of_asks t hasks
  rw [htrees] at hexecute
  have hheard : t.outbox.isOpen = true := ht ▸ (s.outbox.isOpen_send _).trans hopen
  rw [sent_of_dispatch (dispatch_of_parse hparse hexecute) rfl, if_pos hheard]

theorem assigned_is_read_member :
    let frame : Frame := { file := "/a.js", line := 1, scope := some 0, receiver := some 2 }
    let a : Assignment := { depth := 0, scope := localScope, path := "o.n", expression := "v" }
    let line := "property_set -i 1 -n o.n -- dg=="
    let c : Command := ⟨"property_get", [("n", "o.n"), ("i", "2")], none⟩
    inMethod.Accepts line a (some frame) (.string "new") ∧
      (inMethod.dispatch line).sent (.command "property_get -i 2 -n o.n") =
        [.answer (a.query.answer c [(inMethod.dispatch line).rootNode "o.n" (.string "new")])] := by
  intro frame a line c
  have hparse : Command.parse line =
      .ok ⟨"property_set", [("n", "o.n"), ("i", "1")], some "dg=="⟩ :=
    Command.parse_eq_ok (by decide +kernel)
  have hread : Path.read? "o.n" = some [.name "o", .name "n"] := by decide +kernel
  have htarget : inMethod.target (some frame) localScope "o.n" = .ok (1, .name "n") := by
    decide +kernel
  have h : inMethod.Accepts line a (some frame) (.string "new") :=
    .of_target hparse
      ⟨rfl, by decide +kernel, by decide +kernel, by decide +kernel, by decide +kernel⟩
      (by decide +kernel) (by decide +kernel) (by decide +kernel) (by decide) htarget
      (Heap.recalls_of_readable (by decide +kernel) (by decide +kernel)) hread (by decide +kernel)
  refine ⟨h, assigned_is_read h (fun id hid => ?_) (Command.parse_eq_ok (by decide +kernel))
    ⟨by decide +kernel, by decide +kernel, rfl, by decide +kernel⟩⟩
  cases hread.symm.trans hid

/-- An assignment to `this` goes to a scope, and the client hears of a success.  Whoever asks for
`this` is shown the receiver all the same. -/
theorem receiver_hides_assigned :
    let frame : Frame := { file := "/a.js", line := 1, scope := some 0, receiver := some 2 }
    let a : Assignment := { depth := 0, scope := localScope, path := "this", expression := "v" }
    let line := "property_set -i 1 -n this -- dg=="
    let asked := "property_get -i 2 -n this"
    ∃ c, inMethod.Accepts line a (some frame) (.string "new") ∧
      Command.parse asked = .ok c ∧ c.Asks a.query ∧
      (inMethod.dispatch line).sent (.command asked) ≠
        [.answer (a.query.answer c [(inMethod.dispatch line).rootNode a.path (.string "new")])] := by
  intro frame a line asked
  have hparse : Command.parse line =
      .ok ⟨"property_set", [("n", "this"), ("i", "1")], some "dg=="⟩ :=
    Command.parse_eq_ok (by decide +kernel)
  have hread : Path.read? "this" = some [.name "this"] := by decide +kernel
  have htarget : inMethod.target (some frame) localScope "this" = .ok (0, .name "this") := by
    decide +kernel
  refine ⟨⟨"property_get", [("n", "this"), ("i", "2")], none⟩, ?_,
    Command.parse_eq_ok (by decide +kernel),
    ⟨by decide +kernel, by decide +kernel, rfl, by decide +kernel⟩, fun heq => ?_⟩
  · exact .of_target hparse
      ⟨rfl, by decide +kernel, by decide +kernel, by decide +kernel, by decide +kernel⟩
      (by decide +kernel) (by decide +kernel) (by decide +kernel) (by decide) htarget
      (Heap.recalls_of_readable (by decide +kernel) (by decide +kernel)) hread (by decide +kernel)
  · have hmarkup := congrArg
      (List.map fun m => (Markup.renderContent m.toElement.content).take 60) heq
    exact absurd hmarkup (by decide +kernel)

end Session

end ScriptDebugger
