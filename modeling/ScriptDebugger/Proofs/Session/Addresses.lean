import ScriptDebugger.Proofs.Session.Follow
import ScriptDebugger.Proofs.Session.Operation

/-!
What the path of a shown property leads to.  The client is shown trees of properties, that of a path
or those of a scope, and may ask for any of them by its path.  The path is read again, and names the
same property again if the names in it are plain and nothing stands in front of the property: a
receiver in front of a name `this`, another scope in front of a name that its own scope lists and
does not have, a property of an object in front of one that the object lists from a prototype.  A
path that leads nowhere is left to the interpreter, which may make anything of it.
-/

namespace ScriptDebugger

/-- What a client wants to see: a property, or else those of a scope. -/
structure Query where
  depth : Nat
  scope : Nat
  path : Option String
  deriving DecidableEq, Repr

def Query.answer (q : Query) (c : Command) (trees : List Node) : Element :=
  match q.path with
  | some _ => { c.answer with content := Node.toParts trees }
  | none =>
      { c.answer.attr "context" (Text.numeral q.scope) with content := Node.toParts trees }

theorem Query.content_answer (q : Query) (c : Command) (trees : List Node) :
    (q.answer c trees).content = Node.toParts trees := by
  unfold answer
  split <;> rfl

namespace Command

def Asks (c : Command) (q : Query) : Prop :=
  Session.depthOf c = .ok q.depth ∧ Session.scopeOf c = .ok q.scope ∧
    match q.path with
    | some path => c.name = "property_get" ∧ c.option? "n" = some path
    | none => c.name = "context_get"

theorem content_answer (c : Command) : c.answer.content = [] := by
  unfold answer Element.response
  split <;> rfl

theorem option?_of_required {c : Command} {key value : String}
    (h : c.required key = .ok value) : c.option? key = some value := by
  unfold required at h
  split at h
  · rename_i hoption
    exact Except.ok.inj h ▸ hoption
  · cases h

end Command

namespace Session

def treesFor (s : Session) (q : Query) : Except Error (List Node) :=
  match q.path with
  | some path => do
      let frame ← s.frameAt q.depth
      let value ← s.resolve frame q.scope path
      return [s.rootNode path value]
  | none => s.listNodes q.depth q.scope

theorem execute_of_asks (s : Session) {c : Command} {q : Query} (h : c.Asks q) :
    s.execute c = .ok (s.answerOutcome c ((s.treesFor q).map (q.answer c))) := by
  obtain ⟨depth, scope, path⟩ := q
  obtain ⟨hdepth, hscope, hpath⟩ := h
  cases path with
  | none =>
      have hobey : obey c = contextGetCommand c := by
        rw [obey, hpath]
        rfl
      rw [execute, hobey, contextGetCommand, hdepth, hscope]
      refine congrArg (fun outcome => Except.ok (s.answerOutcome c outcome)) ?_
      rw [treesFor]
      cases s.listNodes depth scope <;> rfl
  | some path =>
      have hobey : obey c = propertyGetCommand c := by
        rw [obey, hpath.1]
        rfl
      rw [execute, hobey, propertyGetCommand, Command.required, hpath.2, hdepth, hscope]
      refine congrArg (fun outcome => Except.ok (s.answerOutcome c outcome)) ?_
      rw [treesFor]
      cases s.frameAt depth with
      | error e => rfl
      | ok frame =>
          change (s.resolve frame scope path >>= _) = Except.map _ (s.resolve frame scope path >>= _)
          cases s.resolve frame scope path with
          | error e => rfl
          | ok value =>
              refine congrArg Except.ok ?_
              rw [Element.child, Element.add, Node.toPart_toElement, Command.content_answer]
              rfl

/-- What stands at the top of a tree. -/
inductive Origin where
  | asked (path : String)
  | listed (owner : ObjectId) (id : PropertyId)
  | receiver (id : ObjectId)
  deriving DecidableEq, Repr

def Origin.path : Origin → String
  | asked path => path
  | listed _ id => id.text
  | receiver _ => "this"

def listedValue (h : Heap) (owner : ObjectId) (id : PropertyId) : Value :=
  match h.get owner id with
  | .ok value => value
  | .error e => .string e.readingText

/-- A tree of a query, with the value that its root shows. -/
inductive Starts (s : Session) (q : Query) : Origin → Value → Node → Prop where
  | asked {path : String} {frame : Option Frame} {value : Value} (hpath : q.path = some path)
      (hframe : s.frameAt q.depth = .ok frame) (hvalue : s.resolve frame q.scope path = .ok value) :
      Starts s q (.asked path) value (s.rootNode path value)
  | listed {owner : ObjectId} {receiver : Option ObjectId} {ids : List PropertyId}
      {id : PropertyId} {root : Node} (hpath : q.path = none)
      (hscope : s.listedScope q.depth q.scope = .ok (some owner, receiver))
      (hids : (s.heap.object owner).presentIds = .ok ids) (hid : id ∈ ids)
      (hroot : scopeNode? s.settings.limits s.heap owner id = some root) :
      Starts s q (.listed owner id) (listedValue s.heap owner id) root
  | receiver {owner : Option ObjectId} {id : ObjectId} (hpath : q.path = none)
      (hscope : s.listedScope q.depth q.scope = .ok (owner, some id)) :
      Starts s q (.receiver id) (.object id) (receiverNode s.settings.limits s.heap id)

/-- A node of the answer to a query, with the way to it and the value that it shows. -/
inductive Displays (s : Session) (q : Query) : Origin → List Member → Node → Value → Prop where
  | intro {origin : Origin} {value shown : Value} {root n : Node} {way : List Member} {level : Nat}
      {expanded : Bool} {label : String} (hstarts : s.Starts q origin value root)
      (hbelow : root.Below way.length n)
      (htrail : s.heap.Trail s.settings.limits.maxChildren value way shown)
      (hnode : n = Node.encode s.settings.limits s.heap level expanded label
        (Path.ofIds origin.path (way.map Prod.snd)) shown) :
      Displays s q origin way n shown

/-- Nothing stands in front of the property at the end of a way. -/
def IsClear (s : Session) (q : Query) : Origin → List Member → Prop
  | .asked path, way =>
      ∃ frame value, s.frameAt q.depth = .ok frame ∧
        s.walkPath frame q.scope path = .ok (some value) ∧ s.heap.Clear value way
  | .listed owner (.name name), way =>
      (PropertyId.name name).IsPlain ∧
      (∀ frame, s.frameAt q.depth = .ok frame → receiver? frame (.name name) = none) ∧
      (s.heap.get owner (.name name) = .ok .notFound → ∀ value,
        Host.lookup s.heap (.name name) s.host.globals.toList ≠ .ok (some value)) ∧
      s.heap.Clear (listedValue s.heap owner (.name name)) way
  | .listed _ (.index _), _ => False
  | .receiver id, way => s.heap.Clear (.object id) way

theorem exists_name_of_isClear {s : Session} {q : Query} {owner : ObjectId} {id : PropertyId}
    {way : List Member} (hclear : s.IsClear q (.listed owner id) way) :
    ∃ name, id = .name name := by
  cases id with
  | name name => exact ⟨name, rfl⟩
  | index i => cases hclear

theorem scopeNode?_eq_some {l : Limits} {h : Heap} {owner : ObjectId} {id : PropertyId} {root : Node}
    (hroot : scopeNode? l h owner id = some root) :
    root = listedNode l h id.text (listedValue h owner id) := by
  unfold scopeNode? at hroot
  unfold listedValue
  cases hget : h.get owner id with
  | error e =>
      rw [hget] at hroot
      cases hroot
      exact (Node.encode_scalar ..).symm
  | ok value =>
      rw [hget] at hroot
      simp only [Option.ite_none_right_eq_some, Option.some.injEq] at hroot
      exact hroot.2.symm

namespace Starts

variable {s : Session} {q : Query} {origin : Origin} {value : Value} {root : Node}

theorem exists_encode (h : s.Starts q origin value root) :
    ∃ level expanded, root = Node.encode s.settings.limits s.heap level expanded origin.path
      origin.path value := by
  cases h with
  | asked => exact ⟨_, _, rfl⟩
  | listed _ _ _ _ hroot => exact ⟨_, _, scopeNode?_eq_some hroot⟩
  | receiver => exact ⟨_, _, rfl⟩

theorem value_unique {value' : Value} {root' : Node} (h : s.Starts q origin value root)
    (h' : s.Starts q origin value' root') : value = value' := by
  cases h with
  | asked _ hframe hvalue =>
      cases h' with
      | asked _ hframe' hvalue' =>
          cases hframe.symm.trans hframe'
          exact Except.ok.inj (hvalue.symm.trans hvalue')
  | listed => cases h'; rfl
  | receiver => cases h'; rfl

theorem eq_asked {path : String} (h : s.Starts q origin value root) (hpath : q.path = some path) :
    origin = .asked path := by
  cases h with
  | asked hpath' =>
      cases hpath.symm.trans hpath'
      rfl
  | listed hpath' => cases hpath.symm.trans hpath'
  | receiver hpath' => cases hpath.symm.trans hpath'

theorem clear {way : List Member} (h : s.Starts q origin value root)
    (hclear : s.IsClear q origin way) : s.heap.Clear value way := by
  cases h with
  | asked _ hframe hvalue =>
      obtain ⟨frame, found, hframe', hwalk, hclear⟩ := hclear
      cases hframe.symm.trans hframe'
      cases hvalue.symm.trans (resolve_eq_ok.mpr (.inl hwalk))
      exact hclear
  | listed =>
      obtain ⟨name, rfl⟩ := exists_name_of_isClear hclear
      exact hclear.2.2.2
  | receiver => exact hclear

theorem of_mem {trees : List Node} (htrees : s.treesFor q = .ok trees) (hroot : root ∈ trees) :
    ∃ origin value, s.Starts q origin value root := by
  obtain ⟨depth, scope, path⟩ := q
  cases path with
  | some path =>
      obtain ⟨frame, hframe, htrees⟩ := bind_eq_ok.mp htrees
      obtain ⟨value, hvalue, htrees⟩ := bind_eq_ok.mp htrees
      cases htrees
      cases List.mem_singleton.mp hroot
      exact ⟨_, _, .asked rfl hframe hvalue⟩
  | none =>
      obtain ⟨⟨owner, receiver⟩, hscope, htrees⟩ := bind_eq_ok.mp htrees
      cases htrees
      rcases List.mem_append.mp hroot with hroot | hroot
      · cases owner with
        | none => cases hroot
        | some owner =>
            change root ∈ scopeNodes s.settings.limits s.heap owner at hroot
            unfold scopeNodes at hroot
            split at hroot
            · rename_i ids hids
              obtain ⟨id, hid, hroot⟩ := List.mem_filterMap.mp hroot
              exact ⟨_, _, .listed rfl hscope hids hid hroot⟩
            · cases hroot
      · cases receiver with
        | none => cases hroot
        | some receiver =>
            cases List.mem_singleton.mp hroot
            exact ⟨_, _, .receiver rfl hscope⟩

end Starts

theorem rootScopes_of_listedScope {s : Session} {depth scope : Nat} {frame : Option Frame}
    {owner : ObjectId} {receiver : Option ObjectId} (hframe : s.frameAt depth = .ok frame)
    (hscope : s.listedScope depth scope = .ok (some owner, receiver)) :
    ∃ outer, s.rootScopes frame scope = .ok (owner :: outer) ∧
      (outer = [] ∨ outer = s.host.globals.toList) := by
  unfold listedScope at hscope
  unfold rootScopes
  by_cases hlocal : scope = localScope
  · rw [if_pos hlocal, hframe] at hscope
    obtain ⟨hlisted, _⟩ := Prod.mk.inj (Except.ok.inj hscope)
    refine ⟨s.host.globals.toList, ?_, .inr rfl⟩
    rw [if_pos hlocal, Host.scopes, hlisted]
    rfl
  · rw [if_neg hlocal] at hscope ⊢
    by_cases hglobal : scope = globalScope
    · rw [if_pos hglobal] at hscope ⊢
      obtain ⟨hlisted, _⟩ := Prod.mk.inj (Except.ok.inj hscope)
      refine ⟨[], ?_, .inl rfl⟩
      rw [Host.scopes, hlisted]
      rfl
    · rw [if_neg hglobal] at hscope
      cases hscope

theorem receiver?_of_listedScope {s : Session} {depth scope : Nat} {owner : Option ObjectId}
    {id : ObjectId} (hscope : s.listedScope depth scope = .ok (owner, some id)) :
    ∃ frame, s.frameAt depth = .ok frame ∧ receiver? frame (.name "this") = some id := by
  unfold listedScope at hscope
  split at hscope
  · obtain ⟨frame', hframe', hlisted⟩ := bind_eq_ok.mp hscope
    obtain ⟨_, hreceiver⟩ := Prod.mk.inj (Except.ok.inj hlisted)
    exact ⟨frame', hframe', by rw [receiver?, if_pos rfl, hreceiver]⟩
  · split at hscope
    · cases hscope
    · cases hscope

theorem eq_of_lookupRoot {s : Session} {q : Query} {frame : Option Frame} {owner : ObjectId}
    {receiver : Option ObjectId} {name : String} {way : List Member} {value : Value}
    (hframe : s.frameAt q.depth = .ok frame)
    (hscope : s.listedScope q.depth q.scope = .ok (some owner, receiver))
    (hclear : s.IsClear q (.listed owner (.name name)) way)
    (hfound : s.lookupRoot frame q.scope (.name name) = .ok (some value)) :
    value = listedValue s.heap owner (.name name) := by
  obtain ⟨_, hreceiver, hother, _⟩ := hclear
  obtain ⟨outer, hscopes, houter⟩ := rootScopes_of_listedScope hframe hscope
  rw [lookupRoot, hreceiver frame hframe, hscopes] at hfound
  have hlookup : Host.lookup s.heap (.name name) (owner :: outer) = .ok (some value) :=
    mapError_eq_ok.mp hfound
  obtain ⟨own, hown, hlookup⟩ := bind_eq_ok.mp hlookup
  rw [listedValue, hown]
  split at hlookup
  · cases hlookup
    rfl
  · rename_i hmissing
    have hnotFound : own = .notFound := by simpa [Value.isFound] using hmissing
    rcases houter with rfl | rfl
    · cases hlookup
    · exact absurd hlookup (hother (hnotFound ▸ hown) value)

theorem plain_this : (PropertyId.name "this").IsPlain := by
  decide

theorem Starts.follow_of_walkPath {s : Session} {q : Query} {origin : Origin} {root : Node}
    {way : List Member} {top value : Value} {frame : Option Frame}
    (h : s.Starts q origin top root) (hclear : s.IsClear q origin way)
    (hplain : ∀ id ∈ way.map Prod.snd, id.IsPlain) (hframe : s.frameAt q.depth = .ok frame)
    (hwalk : s.walkPath frame q.scope (Path.ofIds origin.path (way.map Prod.snd)) =
      .ok (some value)) :
    follow s.heap top (way.map Prod.snd) = .ok (some value) := by
  obtain ⟨all, hread, hfollowed⟩ := walkPath_eq_some.mp hwalk
  cases h with
  | asked _ hframe' hvalue =>
      obtain ⟨frame', found, hframe'', hfound, _⟩ := hclear
      cases hframe.symm.trans hframe'
      cases hframe.symm.trans hframe''
      cases hvalue.symm.trans (resolve_eq_ok.mpr (.inl hfound))
      obtain ⟨first, hfirst, hfound⟩ := walkPath_eq_some.mp hfound
      rw [Path.eq_append_of_read?_ofIds hfirst hplain hread] at hfollowed
      exact (walk_append hfound).mp hfollowed
  | listed _ hscope =>
      obtain ⟨name, rfl⟩ := exists_name_of_isClear hclear
      rw [Path.eq_cons_of_read?_ofIds (List.forall_mem_cons.mpr ⟨hclear.1, hplain⟩) hread]
        at hfollowed
      obtain ⟨root, hroot, hrest⟩ := walk_eq_some.mp hfollowed
      rwa [eq_of_lookupRoot hframe hscope hclear hroot] at hrest
  | receiver _ hscope =>
      rw [Path.eq_cons_of_read?_ofIds (List.forall_mem_cons.mpr ⟨plain_this, hplain⟩) hread]
        at hfollowed
      obtain ⟨root, hroot, hrest⟩ := walk_eq_some.mp hfollowed
      obtain ⟨frame', hframe', hreceiver⟩ := receiver?_of_listedScope hscope
      cases hframe.symm.trans hframe'
      rw [lookupRoot, hreceiver] at hroot
      cases hroot
      exact hrest

theorem Starts.plain_path {s : Session} {q : Query} {origin : Origin} {root : Node} {value : Value}
    {way : List Member} (h : s.Starts q origin value root) (hclear : s.IsClear q origin way)
    (hpath : q.path = none) : (PropertyId.name origin.path).IsPlain := by
  cases h with
  | asked hpath' => cases hpath.symm.trans hpath'
  | listed =>
      obtain ⟨name, rfl⟩ := exists_name_of_isClear hclear
      exact hclear.1
  | receiver => exact plain_this

theorem Starts.origin_unique {s : Session} {q : Query} {origin origin' : Origin} {root root' : Node}
    {value value' : Value} {way way' : List Member} (h : s.Starts q origin value root)
    (h' : s.Starts q origin' value' root') (hclear : s.IsClear q origin way)
    (hclear' : s.IsClear q origin' way') (hpath : origin.path = origin'.path) :
    origin = origin' := by
  have hreceiver {owner : ObjectId} {name : String} {way : List Member} {listed : Option ObjectId}
      {id : ObjectId} (hclear : s.IsClear q (.listed owner (.name name)) way)
      (hscope : s.listedScope q.depth q.scope = .ok (listed, some id)) : name ≠ "this" := by
    rintro rfl
    obtain ⟨frame, hframe, hreceiver⟩ := receiver?_of_listedScope hscope
    rw [hclear.2.1 frame hframe] at hreceiver
    cases hreceiver
  cases h with
  | asked hq =>
      cases h' with
      | asked => exact congrArg Origin.asked hpath
      | listed hq' => cases hq.symm.trans hq'
      | receiver hq' => cases hq.symm.trans hq'
  | listed hq hscope =>
      obtain ⟨name, rfl⟩ := exists_name_of_isClear hclear
      cases h' with
      | asked hq' => cases hq.symm.trans hq'
      | listed _ hscope' =>
          obtain ⟨name', rfl⟩ := exists_name_of_isClear hclear'
          cases hscope.symm.trans hscope'
          exact congrArg (Origin.listed _ ∘ PropertyId.name) hpath
      | receiver _ hscope' => exact absurd hpath (hreceiver hclear hscope')
  | receiver hq hscope =>
      cases h' with
      | asked hq' => cases hq.symm.trans hq'
      | listed =>
          obtain ⟨name, rfl⟩ := exists_name_of_isClear hclear'
          exact absurd hpath.symm (hreceiver hclear' hscope)
      | receiver _ hscope' =>
          cases hscope.symm.trans hscope'
          rfl

namespace Displays

variable {s : Session} {q : Query} {origin : Origin} {way : List Member} {n : Node} {shown : Value}

theorem path_eq (h : s.Displays q origin way n shown) :
    n.path = Path.ofIds origin.path (way.map Prod.snd) := by
  obtain ⟨_, _, _, rfl⟩ := h
  exact Node.path_encode ..

theorem face_eq (h : s.Displays q origin way n shown)
    (hlistable : shown.IsListable s.settings.limits s.heap) :
    n.face = shown.face s.settings.limits s.heap := by
  obtain ⟨_, _, _, rfl⟩ := h
  exact Node.face_encode hlistable ..

theorem plain (h : s.Displays q origin way n shown) (hclear : s.IsClear q origin way) :
    ∀ id ∈ way.map Prod.snd, id.IsPlain := by
  obtain ⟨hstarts, _, htrail, _⟩ := h
  exact htrail.plain (hstarts.clear hclear)

theorem of_below {trees : List Node} {root : Node} {depth : Nat} (htrees : s.treesFor q = .ok trees)
    (hroot : root ∈ trees) (hbelow : root.Below depth n) :
    ∃ origin way shown, s.Displays q origin way n shown := by
  obtain ⟨origin, value, hstarts⟩ := Starts.of_mem htrees hroot
  obtain ⟨level, expanded, rfl⟩ := hstarts.exists_encode
  obtain ⟨way, shown, label, hlength, htrail, hnode⟩ := Node.below_encode hbelow
  exact ⟨origin, way, shown, .intro hstarts (hlength ▸ hbelow) htrail hnode⟩

theorem eq_shown (h : s.Displays q origin way n shown) (hclear : s.IsClear q origin way)
    {frame : Option Frame} (hframe : s.frameAt q.depth = .ok frame) {value : Value}
    (hwalk : s.walkPath frame q.scope n.path = .ok (some value)) : value = shown := by
  have hplain := h.plain hclear
  rw [h.path_eq] at hwalk
  obtain ⟨hstarts, _, htrail, _⟩ := h
  exact follow_trail htrail (hstarts.clear hclear)
    (hstarts.follow_of_walkPath hclear hplain hframe hwalk)

theorem unique {origin' : Origin} {way' : List Member} {n' : Node} {shown' : Value}
    (h : s.Displays q origin way n shown) (hclear : s.IsClear q origin way)
    (h' : s.Displays q origin' way' n' shown') (hclear' : s.IsClear q origin' way')
    (hpath : n.path = n'.path) : origin = origin' ∧ way = way' := by
  have hplain := h.plain hclear
  have hplain' := h'.plain hclear'
  rw [h.path_eq, h'.path_eq] at hpath
  obtain ⟨hstarts, _, htrail, _⟩ := h
  obtain ⟨hstarts', _, htrail', _⟩ := h'
  -- In a scope the first names tell the trees apart.  The path of a property may be any text, but
  -- all nodes stand behind it then.
  have hsame : origin.path = origin'.path ∧ way.map Prod.snd = way'.map Prod.snd := by
    cases hq : q.path with
    | none =>
        exact Path.ofIds_injective_of_names
          (List.forall_mem_cons.mpr ⟨hstarts.plain_path hclear hq, hplain⟩)
          (List.forall_mem_cons.mpr ⟨hstarts'.plain_path hclear' hq, hplain'⟩) hpath
    | some path =>
        have horigin := (hstarts.eq_asked hq).trans (hstarts'.eq_asked hq).symm
        rw [horigin] at hpath ⊢
        exact ⟨rfl, Path.ofIds_injective hplain hplain' hpath⟩
  obtain rfl := hstarts.origin_unique hstarts' hclear hclear' hsame.1
  obtain rfl := hstarts.value_unique hstarts'
  exact ⟨rfl, (htrail.unique htrail' hsame.2).1⟩

end Displays

/-- A path leads nowhere, and the interpreter makes a value of it. -/
def Evaluates (s : Session) (q : Query) (path : String) (value : Value) : Prop :=
  ∃ frame, s.frameAt q.depth = .ok frame ∧ s.walkPath frame q.scope path = .ok none ∧
    s.host.evaluate s.heap path frame = .ok value

/-- The path of a shown property is answered with an error, with the value that is shown, or, if it
leads nowhere, with what the interpreter makes of it; and no other property is shown under it. -/
theorem shown_paths_lead_back {s : Session} {q : Query} {trees : List Node}
    (htrees : s.treesFor q = .ok trees) :
    (∀ q c, Command.Asks c q →
      s.execute c = .ok (s.answerOutcome c ((s.treesFor q).map (q.answer c)))) ∧
    (∀ root ∈ trees, ∀ depth n, root.Below depth n →
      ∃ origin way shown, s.Displays q origin way n shown) ∧
    ∀ origin way n shown, s.Displays q origin way n shown → s.IsClear q origin way →
      ((∃ e, s.treesFor { q with path := some n.path } = .error e) ∨
        ∃ value, s.treesFor { q with path := some n.path } = .ok [s.rootNode n.path value] ∧
          (value = shown ∧ (shown.IsListable s.settings.limits s.heap →
              (s.rootNode n.path value).face = n.face) ∨
            s.Evaluates q n.path value)) ∧
      ∀ origin' way' n' shown', s.Displays q origin' way' n' shown' → s.IsClear q origin' way' →
        n.path = n'.path → origin = origin' ∧ way = way' := by
  refine ⟨fun q c => s.execute_of_asks, fun root hroot depth n => Displays.of_below htrees hroot, ?_⟩
  intro origin way n shown hshown hclear
  refine ⟨?_, fun origin' way' n' shown' hshown' hclear' => hshown.unique hclear hshown' hclear'⟩
  cases hanswer : s.treesFor { q with path := some n.path } with
  | error e => exact .inl ⟨e, rfl⟩
  | ok trees =>
      right
      obtain ⟨frame, hframe, hanswer⟩ := bind_eq_ok.mp hanswer
      obtain ⟨value, hvalue, hanswer⟩ := bind_eq_ok.mp hanswer
      cases hanswer
      refine ⟨value, rfl, ?_⟩
      rcases resolve_eq_ok.mp hvalue with hwalk | ⟨hwalk, hhost⟩
      · obtain rfl := hshown.eq_shown hclear hframe hwalk
        exact .inl ⟨rfl, fun hlistable =>
          (Node.face_encode hlistable _ _ _ _).trans (hshown.face_eq hlistable).symm⟩
      · exact .inr ⟨frame, hframe, hwalk, hhost⟩

def withMember : Session :=
  opened {} (Host.ofTable (some 0) [])
    { objects := [{ slots := [(.name "o", .object 1)] }, { slots := [(.name "a", .string "b")] }] }

theorem shown_paths_lead_back_member :
    let q : Query := { depth := 0, scope := globalScope, path := none }
    ∃ trees n, withMember.treesFor q = .ok trees ∧ (∃ root ∈ trees, root.Below 1 n) ∧
      n.path = "o.a" ∧
      ∃ r, withMember.treesFor { q with path := some n.path } = .ok [r] ∧ r.face = n.face := by
  intro q
  have hids : (withMember.heap.object 0).presentIds = .ok [.name "o"] := by decide +kernel
  have hmembers : withMember.heap.expandedRule.children withMember.heap
      withMember.settings.limits.maxChildren 1 = .ok [(1, .name "a")] := by decide +kernel
  have hstarts : withMember.Starts q (.listed 0 (.name "o")) (.object 1)
      (listedNode withMember.settings.limits withMember.heap "o" (.object 1)) :=
    .listed rfl rfl hids (by decide) rfl
  have hbelow : (listedNode withMember.settings.limits withMember.heap "o" (.object 1)).Below 1
      (Node.encode withMember.settings.limits withMember.heap 2 false "a" "o.a" (.string "b")) := by
    refine .child ?_ (.here _)
    change _ ∈ (Node.encode _ _ 1 true "o" "o" (.object 1)).children
    rw [Node.encode_expanded, hmembers]
    exact List.mem_cons_self
  have hdisplays : withMember.Displays q (.listed 0 (.name "o")) [(1, .name "a")]
      (Node.encode withMember.settings.limits withMember.heap 2 false "a" "o.a" (.string "b"))
      (.string "b") :=
    .intro hstarts hbelow (.member hmembers List.mem_cons_self (.here _)) rfl
  have hclear : withMember.IsClear q (.listed 0 (.name "o")) [(1, .name "a")] :=
    ⟨by decide, fun _ _ => rfl, nofun, by decide, Heap.readsAs_own _ _ _, trivial⟩
  refine ⟨_, _, rfl, ⟨_, List.mem_cons_self, hbelow⟩, Node.path_encode .., ?_⟩
  rcases (shown_paths_lead_back rfl).2.2 _ _ _ _ hdisplays hclear |>.1 with
    ⟨e, herror⟩ | ⟨value, hanswer, ⟨rfl, hface⟩ | ⟨frame, hframe, hnowhere, _⟩⟩
  · have hanswered : (withMember.treesFor { q with path := some "o.a" }).toOption.isSome = true := by
      decide +kernel
    rw [Node.path_encode] at herror
    rw [herror] at hanswered
    cases hanswered
  · exact ⟨_, hanswer, hface trivial⟩
  · have hfound : withMember.walkPath none globalScope "o.a" = .ok (some (.string "b")) := by
      decide +kernel
    cases hframe
    rw [Node.path_encode] at hnowhere
    cases hfound.symm.trans hnowhere

/-- A path in the answer to a query is answered with something else than what it shows. -/
def Misleads (s : Session) (q : Query) : Prop :=
  ∃ trees root depth n r, s.treesFor q = .ok trees ∧ root ∈ trees ∧ root.Below depth n ∧
    s.treesFor { q with path := some n.path } = .ok [r] ∧ r.face ≠ n.face

def misleadsNearTop (s : Session) (q : Query) : Bool :=
  match s.treesFor q with
  | .error _ => false
  | .ok trees => trees.any fun root => (root :: root.children).any fun n =>
      match s.treesFor { q with path := some n.path } with
      | .ok [r] => r.face != n.face
      | _ => false

theorem misleads_of_nearTop {s : Session} {q : Query} (h : s.misleadsNearTop q = true) :
    s.Misleads q := by
  unfold misleadsNearTop at h
  split at h
  · cases h
  · rename_i trees htrees
    obtain ⟨root, hroot, h⟩ := List.any_eq_true.mp h
    obtain ⟨n, hn, h⟩ := List.any_eq_true.mp h
    split at h
    · rename_i r hanswer
      have hbelow : ∃ depth, root.Below depth n := by
        rcases List.mem_cons.mp hn with rfl | hn
        · exact ⟨0, .here n⟩
        · exact ⟨1, .child hn (.here n)⟩
      obtain ⟨depth, hbelow⟩ := hbelow
      exact ⟨trees, root, depth, n, r, htrees, hroot, hbelow, hanswer, bne_iff_ne.mp h⟩
    · cases h

def withReceiver : Session :=
  (opened {} (Host.ofTable none [])
    { objects := [{ slots := [(.name "this", .string "local")] }, {}] }).run
    [.enterContext,
      .hook (.enter { file := "/a.js", line := 1, scope := some 0, receiver := some 1 })]

def withExpression : Session :=
  opened {}
    (Host.ofTable none [("f()", .ok (.object 0)), ("f().a", .ok (.string "evaluated"))])
    { objects := [{ slots := [(.name "a", .string "member")] }] }

def withGap : Session :=
  (opened {} (Host.ofTable (some 1) [])
    { objects := [{ listing := some (.ok [.name "x"]) },
        { slots := [(.name "x", .string "global")] }] }).run
    [.enterContext, .hook (.enter { file := "/a.js", line := 1, scope := some 0 })]

def withHiddenProperty : Session :=
  opened {} (Host.ofTable (some 0) [])
    { objects := [{ slots := [(.name "o", .object 1)] },
        { kind := .array, listing := some (.ok []), slots := [(.name "x", .string "own")],
          prototype := some 2 },
        { slots := [(.name "x", .string "inherited")] }] }

def withPrototype : Session :=
  opened {} (Host.ofTable (some 0) [("o.x", .ok (.string "evaluated"))])
    { objects := [{ slots := [(.name "o", .object 1)] }, { prototype := some 2 },
        { slots := [(.name "x", .string "inherited")] }] }

def withRefusal : Session :=
  opened { maxDepth := 1 } (Host.ofTable (some 0) [])
    { objects := [{ slots := [(.name "o", .object 1)] }, { slots := [(.name "a", .object 2)] },
        { fullListing := some (.error { className := "Error", message := "no" }) }] }

/-- Paths mislead where something stands in front of the property, where they are left to the
interpreter, and where the members of a value can be counted and not be listed. -/
theorem paths_may_mislead :
    withReceiver.Misleads { depth := 0, scope := localScope, path := none } ∧
      withExpression.Misleads { depth := 0, scope := localScope, path := some "f()" } ∧
      withGap.Misleads { depth := 0, scope := localScope, path := none } ∧
      withHiddenProperty.Misleads { depth := 0, scope := globalScope, path := some "o" } ∧
      withPrototype.Misleads { depth := 0, scope := globalScope, path := some "o" } ∧
      withRefusal.Misleads { depth := 0, scope := globalScope, path := some "o" } := by
  refine ⟨?_, ?_, ?_, ?_, ?_, ?_⟩
  all_goals
    refine misleads_of_nearTop ?_
    decide +kernel

end Session

end ScriptDebugger
