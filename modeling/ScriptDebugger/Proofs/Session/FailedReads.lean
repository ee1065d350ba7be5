import ScriptDebugger.Proofs.Session.Limits

namespace ScriptDebugger

namespace HostError

theorem toList_foldl_messages (faults : List Fault) (start : String) :
    (faults.foldl (fun text fault => text ++ fault.message ++ "\n") start).toList =
      start.toList ++ faults.flatMap fun fault => fault.message.toList ++ ['\n'] := by
  induction faults generalizing start with
  | nil => simp
  | cons fault rest ih =>
      rw [List.foldl_cons, ih]
      simp

theorem message_infix_chainText {e : HostError} {fault : Fault} (h : fault ∈ e.toFault :: e.causes) :
    fault.message.toList <:+: e.chainText.toList := by
  have hline : fault.message.toList ++ ['\n'] <:+:
      (e.toFault :: e.causes).flatMap fun fault => fault.message.toList ++ ['\n'] :=
    List.infix_of_mem_flatten (List.mem_map_of_mem h)
  rw [chainText, toList_foldl_messages]
  exact (List.prefix_append _ _).isInfix.trans (hline.trans (List.suffix_append _ _).isInfix)

theorem infix_append_left {text longer : String} (h : text.toList <:+: longer.toList)
    (after : String) : text.toList <:+: (longer ++ after).toList := by
  rw [String.toList_append]
  exact h.trans (List.prefix_append _ _).isInfix

theorem infix_append_right (before text : String) : text.toList <:+: (before ++ text).toList := by
  rw [String.toList_append]
  exact (List.suffix_append _ _).isInfix

theorem className_infix_readingText (e : HostError) :
    e.className.toList <:+: e.readingText.toList := by
  have hclass := infix_append_right "<error reading property in debugger:\nException: " e.className
  have hmessage := infix_append_left (infix_append_left (infix_append_left hclass ": ") e.message) "\n"
  exact infix_append_left (infix_append_left hmessage e.chainText) ">"

theorem chainText_infix_readingText (e : HostError) :
    e.chainText.toList <:+: e.readingText.toList :=
  infix_append_left (infix_append_right _ _) _

end HostError

namespace Node

variable {l : Limits} {h : Heap} {n : Node} {e : HostError}

/-- A node without children, whose payload tells of an error and of everything that caused it. -/
structure Tells (e : HostError) (n : Node) : Prop where
  type : n.type = .string
  hasChildren : n.hasChildren = false
  childCount : n.childCount = 0
  children : n.children = []
  payload : ∃ text, Payload.decode (Payload.encode n.text) = .ok text ∧
    e.className.toList <:+: text.toList ∧
    ∀ fault ∈ e.toFault :: e.causes, fault.message.toList <:+: text.toList

/-- A node as a property has it whose value is null. -/
structure ShowsNull (n : Node) : Prop where
  type : n.type = .undefined
  text : n.text = "null"
  hasChildren : n.hasChildren = false
  children : n.children = []

theorem tells_ofReadError (hl : l.maxData = 0) (name path : String) (e : HostError) :
    (ofReadError l name path e).Tells e where
  type := rfl
  hasChildren := rfl
  childCount := rfl
  children := rfl
  payload := by
    have htext : (ofReadError l name path e).text = e.readingText := by
      change l.cut e.readingText = _
      rw [Limits.cut, if_neg (by omega)]
    refine ⟨e.readingText, ?_, e.className_infix_readingText, fun fault hfault => ?_⟩
    · rw [htext, Payload.decode_encode]
    · exact (HostError.message_infix_chainText hfault).trans e.chainText_infix_readingText

theorem showsNull_ofScalar (hl : l.maxData = 0) (name path : String) :
    (ofScalar l name path .null).ShowsNull where
  type := rfl
  text := by
    change l.cut "null" = _
    rw [Limits.cut, if_neg (by omega)]
  hasChildren := rfl
  children := rfl

/-- The node of a property, in a place where a failure to read it is shown in some way. -/
inductive OfProperty (l : Limits) (h : Heap) (failed : HostError → Node → Prop) (m : Member) :
    Node → Prop where
  | read {level : Nat} {expanded : Bool} {path : String} {value : Value}
      (hget : h.get m.1 m.2 = .ok value) :
      OfProperty l h failed m (encode l h level expanded m.2.text path value)
  | unread {e : HostError} {n : Node} (hget : h.get m.1 m.2 = .error e) (hname : n.name = m.2.text)
      (hfailed : failed e n) : OfProperty l h failed m n

theorem children_encode (hl : l.maxData = 0) (level : Nat) (expanded : Bool) (name path : String)
    (value : Value) :
    (encode l h level expanded name path value).children = [] ∨
      ∃ id members, value = .object id ∧
        h.expandedRule.children h l.maxChildren id = .ok members ∧
        List.Forall₂ (OfProperty l h fun _ => ShowsNull) members
          (encode l h level expanded name path value).children := by
  cases value with
  | scalar s =>
      rw [encode_scalar]
      exact .inl rfl
  | object id =>
      cases expanded with
      | false =>
          rw [encode_lazy]
          refine .inl (List.eq_nil_iff_forall_not_mem.mpr fun child hchild => ?_)
          obtain ⟨count, children, hcontent, hmem⟩ := mem_children_ofObject hchild
          obtain ⟨number, _, hpair⟩ := map_eq_ok.mp hcontent
          cases hpair
          cases hmem
      | true =>
          rw [encode_expanded]
          rcases ofObject_cases l name path (h.object id) _ with
            ⟨e, hfailure⟩ | ⟨type, label, count, children, _, hcontent, hnode⟩
          · rw [hfailure]
            exact .inl rfl
          · rw [hnode]
            obtain ⟨members, hmembers, hpair⟩ := map_eq_ok.mp hcontent
            cases hpair
            refine .inr ⟨id, members, rfl, hmembers, ?_⟩
            rw [Node.children, List.forall₂_map_right_iff, List.forall₂_same]
            intro m _
            unfold Heap.childValue
            cases hget : h.get m.1 m.2 with
            | ok value => exact .read hget
            | error e =>
                rw [encode_scalar]
                exact .unread hget rfl (showsNull_ofScalar hl _ _)

theorem children_of_below (hl : l.maxData = 0) {level : Nat} {expanded : Bool}
    {name path : String} {value : Value} {depth : Nat}
    (hbelow : (encode l h level expanded name path value).Below depth n) :
    n.children = [] ∨ ∃ id members, h.expandedRule.children h l.maxChildren id = .ok members ∧
      List.Forall₂ (OfProperty l h fun _ => ShowsNull) members n.children := by
  obtain ⟨way, shown, label, _, _, rfl⟩ := below_encode hbelow
  rcases children_encode hl (h := h) (level + depth) (l.expands level expanded depth) label
    (Path.ofIds path (way.map Prod.snd)) shown with hnone | ⟨id, members, _, hmembers, hnodes⟩
  · exact .inl hnone
  · exact .inr ⟨id, members, hmembers, hnodes⟩

end Node

namespace Session

open ScriptDebugger.Action

variable {s : Session} {c : Command}

def isShown (h : Heap) (owner : ObjectId) (id : PropertyId) : Bool :=
  match h.get owner id with
  | .ok (.object member) => !(h.object member).internal
  | _ => true

theorem isShown_of_get_error {h : Heap} {owner : ObjectId} {id : PropertyId} {e : HostError}
    (hget : h.get owner id = .error e) : isShown h owner id = true := by
  rw [isShown, hget]

theorem scopeNodes_ofProperty {l : Limits} (hl : l.maxData = 0) {h : Heap} {owner : ObjectId}
    (ids : List PropertyId) :
    List.Forall₂ (fun id => Node.OfProperty l h Node.Tells (owner, id))
      (ids.filter (isShown h owner)) (ids.filterMap (scopeNode? l h owner)) := by
  induction ids with
  | nil => exact .nil
  | cons id rest ih =>
      cases hget : h.get owner id with
      | error e =>
          have hnode : scopeNode? l h owner id = some (Node.ofReadError l id.text id.text e) := by
            rw [scopeNode?, hget]
          rw [List.filter_cons_of_pos (isShown_of_get_error hget), List.filterMap_cons_some hnode]
          exact .cons (.unread hget rfl (Node.tells_ofReadError hl _ _ e)) ih
      | ok value =>
          have hnode : scopeNode? l h owner id =
              if isShown h owner id then some (listedNode l h id.text value) else none := by
            rw [scopeNode?, isShown, hget]
            cases value <;> rfl
          cases hshown : isShown h owner id with
          | true =>
              rw [hshown, if_pos rfl] at hnode
              rw [List.filter_cons_of_pos hshown, List.filterMap_cons_some hnode]
              exact .cons (.read hget) ih
          | false =>
              rw [hshown] at hnode
              rw [List.filter_cons_of_neg (by rw [hshown]; decide), List.filterMap_cons_none hnode]
              exact ih

def Inspects (c : Command) : Prop :=
  c.name = "context_get" ∨ c.name = "property_get" ∨ c.name = "eval"

def treesOf (s : Session) (depth : Nat) (expression : String) : Except Error (List Node) := do
  let frame ← s.frameAt depth
  let value ← s.evaluate expression frame
  return [s.rootNode expression value]

def treesAsked (s : Session) (c : Command) : Except Error (Except Error (List Node)) :=
  if c.name = "eval" then do
    let depth ← depthOf c
    let expression ← c.requiredData
    return s.treesOf depth expression
  else do
    let path ← if c.name = "property_get" then (c.required "n").map some else .ok none
    let depth ← depthOf c
    let scope ← scopeOf c
    return s.treesFor ⟨depth, scope, path⟩

theorem treesAsked_eq_ok {outcome : Except Error (List Node)} (hname : Inspects c)
    (h : s.treesAsked c = .ok outcome) :
    (∃ q, c.Asks q ∧ outcome = s.treesFor q) ∨
      c.name = "eval" ∧ ∃ depth expression, depthOf c = .ok depth ∧
        c.requiredData = .ok expression ∧ outcome = s.treesOf depth expression := by
  rcases hname with hname | hname | hname <;> rw [treesAsked, hname] at h
  · rw [if_neg (by decide), if_neg (by decide)] at h
    obtain ⟨_, hpath, h⟩ := bind_eq_ok.mp h
    obtain ⟨depth, hdepth, h⟩ := bind_eq_ok.mp h
    obtain ⟨scope, hscope, h⟩ := bind_eq_ok.mp h
    cases hpath
    exact .inl ⟨⟨depth, scope, none⟩, ⟨hdepth, hscope, hname⟩, (Except.ok.inj h).symm⟩
  · rw [if_neg (by decide), if_pos rfl] at h
    obtain ⟨_, hpath, h⟩ := bind_eq_ok.mp h
    obtain ⟨depth, hdepth, h⟩ := bind_eq_ok.mp h
    obtain ⟨scope, hscope, h⟩ := bind_eq_ok.mp h
    obtain ⟨path, hrequired, rfl⟩ := map_eq_ok.mp hpath
    have hoption := Command.option?_of_required hrequired
    exact .inl ⟨⟨depth, scope, some path⟩, ⟨hdepth, hscope, hname, hoption⟩,
      (Except.ok.inj h).symm⟩
  · rw [if_pos rfl] at h
    obtain ⟨depth, hdepth, h⟩ := bind_eq_ok.mp h
    obtain ⟨expression, hexpression, h⟩ := bind_eq_ok.mp h
    exact .inr ⟨hname, depth, expression, hdepth, hexpression, (Except.ok.inj h).symm⟩

theorem execute_of_eval {depth : Nat} {expression : String} (hname : c.name = "eval")
    (hdepth : depthOf c = .ok depth) (hexpression : c.requiredData = .ok expression) :
    s.execute c = .ok (s.answerOutcome c
      ((s.treesOf depth expression).map fun trees =>
        { c.answer with content := Node.toParts trees })) := by
  rw [execute, obey_of_name hname rfl, evalCommand, hdepth, hexpression]
  refine congrArg (fun outcome => Except.ok (s.answerOutcome c outcome)) ?_
  rw [treesOf]
  cases s.frameAt depth with
  | error e => rfl
  | ok frame =>
      change (s.evaluate expression frame >>= _) = Except.map _ (s.evaluate expression frame >>= _)
      cases s.evaluate expression frame with
      | error e => rfl
      | ok value =>
          refine congrArg Except.ok ?_
          rw [Element.child, Element.add, Node.toPart_toElement, Command.content_answer]
          rfl

theorem execute_of_treesAsked {outcome : Except Error (List Node)} (hname : Inspects c)
    (h : s.treesAsked c = .ok outcome) :
    ∃ shown : List Node → Element, (∀ roots, (shown roots).content = Node.toParts roots) ∧
      s.execute c = .ok (s.answerOutcome c (outcome.map shown)) := by
  rcases treesAsked_eq_ok hname h with
    ⟨q, hasks, rfl⟩ | ⟨hname, depth, expression, hdepth, hexpression, rfl⟩
  · exact ⟨_, q.content_answer c, execute_of_asks s hasks⟩
  · exact ⟨_, fun _ => rfl, execute_of_eval hname hdepth hexpression⟩

theorem dispatch_of_unasked {line : String} (hparse : Command.parse line = .ok c)
    (hname : Inspects c) {e : Error} (h : s.treesAsked c = .error e) : s.dispatch line = s := by
  have hends : Ends (obey c) s fun _ _ => False := by
    rcases hname with hname | hname | hname <;> rw [obey_of_name hname rfl]
    · refine .read fun depth hdepth => .read fun scope hscope => ?_
      have hasked : s.treesAsked c = .ok (s.treesFor ⟨depth, scope, none⟩) := by
        rw [treesAsked, hname, hdepth, hscope]
        rfl
      cases h.symm.trans hasked
    · refine .read fun path hpath => .read fun depth hdepth => .read fun scope hscope => ?_
      have hasked : s.treesAsked c = .ok (s.treesFor ⟨depth, scope, some path⟩) := by
        rw [treesAsked, hname, hpath, hdepth, hscope]
        rfl
      cases h.symm.trans hasked
    · refine .read fun depth hdepth => .read fun expression hexpression => ?_
      have hasked : s.treesAsked c = .ok (s.treesOf depth expression) := by
        rw [treesAsked, hname, hdepth, hexpression]
        rfl
      cases h.symm.trans hasked
  exact (dispatch_of_ends hparse hends).resolve_right id

/-- What trees show of the properties that cannot be read. -/
structure ShowsFailures (s : Session) (c : Command) (roots : List Node) : Prop where
  listed : c.name = "context_get" → ∀ {depth scope owner receiver ids},
    depthOf c = .ok depth → scopeOf c = .ok scope →
    s.listedScope depth scope = .ok (some owner, receiver) →
    (s.heap.object owner).presentIds = .ok ids →
    ∃ nodes, roots = nodes ++ (receiver.map (receiverNode s.settings.limits s.heap)).toList ∧
      List.Forall₂ (fun id => Node.OfProperty s.settings.limits s.heap Node.Tells (owner, id))
        (ids.filter (isShown s.heap owner)) nodes
  nested : ∀ root ∈ roots, ∀ {depth n}, root.Below depth n → n.children = [] ∨
    ∃ id members,
      s.heap.expandedRule.children s.heap s.settings.limits.maxChildren id = .ok members ∧
      List.Forall₂ (Node.OfProperty s.settings.limits s.heap fun _ => Node.ShowsNull)
        members n.children

theorem ShowsFailures.ofScope (hl : s.settings.limits.maxData = 0) {depth scope : Nat}
    {roots : List Node} (hdepth : depthOf c = .ok depth) (hscope : scopeOf c = .ok scope)
    (hroots : s.listNodes depth scope = .ok roots) : s.ShowsFailures c roots where
  listed := by
    intro _ depth' scope' owner receiver ids hdepth' hscope' hlisted hids
    cases hdepth.symm.trans hdepth'
    cases hscope.symm.trans hscope'
    obtain ⟨found, hfound, hroots⟩ := bind_eq_ok.mp hroots
    cases hlisted.symm.trans hfound
    cases hroots
    refine ⟨scopeNodes s.settings.limits s.heap owner, rfl, ?_⟩
    rw [scopeNodes, hids]
    exact scopeNodes_ofProperty hl ids
  nested := by
    intro root hroot _ n hbelow
    have hmem : ∃ origin value, s.Starts ⟨depth, scope, none⟩ origin value root :=
      Starts.of_mem hroots hroot
    obtain ⟨origin, value, hstarts⟩ := hmem
    obtain ⟨level, expanded, rfl⟩ := hstarts.exists_encode
    exact Node.children_of_below hl hbelow

theorem ShowsFailures.ofRoot (hl : s.settings.limits.maxData = 0) (hname : c.name ≠ "context_get")
    (name : String) (value : Value) : s.ShowsFailures c [s.rootNode name value] where
  listed hlists := absurd hlists hname
  nested := by
    intro root hroot _ n hbelow
    rw [List.mem_singleton.mp hroot] at hbelow
    exact Node.children_of_below hl hbelow

theorem ShowsFailures.exists_tells {roots : List Node} (h : s.ShowsFailures c roots)
    (hname : c.name = "context_get") {depth scope : Nat} (hdepth : depthOf c = .ok depth)
    (hscope : scopeOf c = .ok scope) {owner : ObjectId} {receiver : Option ObjectId}
    (hlisted : s.listedScope depth scope = .ok (some owner, receiver)) {ids : List PropertyId}
    (hids : (s.heap.object owner).presentIds = .ok ids) {id : PropertyId} (hid : id ∈ ids)
    {e : HostError} (hget : s.heap.get owner id = .error e) :
    ∃ n ∈ roots, n.name = id.text ∧ n.Tells e := by
  obtain ⟨nodes, rfl, hnodes⟩ := h.listed hname hdepth hscope hlisted hids
  have hshown : id ∈ ids.filter (isShown s.heap owner) :=
    List.mem_filter.mpr ⟨hid, isShown_of_get_error hget⟩
  obtain ⟨i, hi, rfl⟩ := List.getElem_of_mem hshown
  have hi' : i < nodes.length := hnodes.length_eq ▸ hi
  have hnode := hnodes.get hi hi'
  refine ⟨nodes.get ⟨i, hi'⟩, List.mem_append_left _ (List.get_mem _ _), ?_⟩
  generalize nodes.get ⟨i, hi'⟩ = n at hnode
  cases hnode with
  | read hread => cases hget.symm.trans hread
  | unread hread hname hfailed =>
      cases hget.symm.trans hread
      exact ⟨hname, hfailed⟩

theorem showsFailures_of_treesAsked (hl : s.settings.limits.maxData = 0) (hname : Inspects c)
    {roots : List Node} (h : s.treesAsked c = .ok (.ok roots)) : s.ShowsFailures c roots := by
  rcases treesAsked_eq_ok hname h with
    ⟨⟨depth, scope, path⟩, ⟨hdepth, hscope, hpath⟩, htrees⟩ | ⟨hname, depth, expression, _, _, htrees⟩
  · cases path with
    | none => exact .ofScope hl hdepth hscope htrees.symm
    | some path =>
        obtain ⟨frame, _, htrees⟩ := bind_eq_ok.mp htrees.symm
        obtain ⟨value, _, htrees⟩ := bind_eq_ok.mp htrees
        cases htrees
        exact .ofRoot hl (by rw [hpath.1]; decide) path value
  · obtain ⟨frame, _, htrees⟩ := bind_eq_ok.mp htrees.symm
    obtain ⟨value, _, htrees⟩ := bind_eq_ok.mp htrees
    cases htrees
    exact .ofRoot hl (by rw [hname]; decide) expression value

/-- A command that shows values is answered with the trees that it asks for, and a failure to read a
property is told in them where a scope is listed, and nowhere else.  It is answered with an error
only if there is none of what it asks for. -/
theorem failed_reads_of_scopes_are_told {line : String} (hparse : Command.parse line = .ok c)
    (hname : Inspects c) (hl : s.settings.maxData = 0) :
    match s.treesAsked c with
    | .error _ => s.dispatch line = s
    | .ok (.error e) => s.dispatch line = s.answer (c.errorAnswer e)
    | .ok (.ok roots) => s.Shows line roots ∧ s.ShowsFailures c roots := by
  cases hasked : s.treesAsked c with
  | error e => exact dispatch_of_unasked hparse hname hasked
  | ok outcome =>
      obtain ⟨shown, hshown, hrun⟩ := execute_of_treesAsked hname hasked
      have hdispatch := dispatch_of_parse hparse hrun
      cases outcome with
      | error e => exact hdispatch
      | ok roots =>
          exact ⟨⟨shown roots, hdispatch, hshown roots⟩,
            showsFailures_of_treesAsked hl hname hasked⟩

def refusal : HostError :=
  { className := "TypeError", message := "refused", causes := [⟨"Error", "no access"⟩] }

def withUnreadable : Session :=
  opened {} (Host.ofTable (some 0) [])
    { objects := [
        { slots := [(.name "x", .string "a"), (.name "o", .object 1)],
          unreadable := [(.name "x", refusal)] },
        { slots := [(.name "m", .string "b")], unreadable := [(.name "m", refusal)] }] }

theorem failed_reads_of_scopes_are_told_global :
    let line := "context_get -i 1 -c 1"
    let c : Command := ⟨"context_get", [("c", "1"), ("i", "1")], none⟩
    Command.parse line = .ok c ∧ withUnreadable.settings.maxData = 0 ∧
      withUnreadable.heap.get 0 (.name "x") = .error refusal ∧
      ∃ roots, withUnreadable.Shows line roots ∧ ∃ n ∈ roots, n.name = "x" ∧ n.Tells refusal := by
  intro line c
  have hparse : Command.parse line = .ok c := Command.parse_eq_ok (by decide +kernel)
  have hunread : withUnreadable.heap.get 0 (.name "x") = .error refusal := by decide +kernel
  have hasked : ((withUnreadable.treesAsked c).toOption.bind Except.toOption).isSome = true := by
    decide +kernel
  refine ⟨hparse, rfl, hunread, ?_⟩
  have htold := failed_reads_of_scopes_are_told hparse (.inl rfl) (s := withUnreadable) rfl
  cases houtcome : withUnreadable.treesAsked c with
  | error e =>
      rw [houtcome] at hasked
      cases hasked
  | ok outcome =>
      rw [houtcome] at htold hasked
      cases outcome with
      | error e => cases hasked
      | ok roots =>
          obtain ⟨hshows, hfailures⟩ := htold
          have hdepth : depthOf c = .ok 0 := by decide +kernel
          have hscope : scopeOf c = .ok globalScope := by decide +kernel
          have hids : (withUnreadable.heap.object 0).presentIds = .ok [.name "x", .name "o"] := by
            decide +kernel
          exact ⟨roots, hshows, hfailures.exists_tells rfl hdepth hscope rfl hids
            List.mem_cons_self hunread⟩

/-- A member that cannot be read is shown without a word of the error. -/
theorem nested_failure_untold :
    withUnreadable.settings.maxData = 0 ∧
      withUnreadable.heap.get 1 (.name "m") = .error refusal ∧
      ∃ roots, withUnreadable.Shows "property_get -i 1 -n o -c 1" roots ∧
        ∃ root ∈ roots, ∃ n ∈ root.children, n.name = "m" ∧ ¬n.Tells refusal := by
  have hparse : Command.parse "property_get -i 1 -n o -c 1" =
      .ok ⟨"property_get", [("c", "1"), ("n", "o"), ("i", "1")], none⟩ :=
    Command.parse_eq_ok (by decide +kernel)
  have htrees : (withUnreadable.treesFor ⟨0, globalScope, some "o"⟩).toOption.map
      (fun roots => decide (∃ root ∈ roots, ∃ n ∈ root.children, n.name = "m" ∧
        n.type = .undefined)) = some true := by
    decide +kernel
  obtain ⟨roots, hshows, hfound⟩ := exists_shows hparse htrees ⟨rfl, rfl, rfl, rfl⟩
  obtain ⟨root, hroot, n, hn, hname, htype⟩ := of_decide_eq_true hfound
  refine ⟨rfl, by decide +kernel, roots, hshows, root, hroot, n, hn, hname, fun htells => ?_⟩
  cases htells.type.symm.trans htype

end Session

end ScriptDebugger
