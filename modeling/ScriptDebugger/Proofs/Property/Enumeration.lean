import ScriptDebugger.Proofs.Property.Trail

/-!
The children of an expanded object without the walk that finds them: all ids of the chain with their
places, the first occurrence of each, those that are shown, as many as fit.  An occurrence that is
not shown still stands before the later ones of its id.
-/

namespace ScriptDebugger

/-- An id that is listed by the object at a position of a chain of prototypes. -/
structure Occurrence where
  position : Nat
  owner : ObjectId
  id : PropertyId
  deriving DecidableEq, Repr

namespace Occurrence

def member (o : Occurrence) : Member := (o.owner, o.id)

def sameId (o other : Occurrence) : Bool := o.id == other.id

def firsts (occurrences : List Occurrence) : List Occurrence :=
  occurrences.eraseDupsBy sameId

theorem firsts_cons (o : Occurrence) (rest : List Occurrence) :
    firsts (o :: rest) = o :: firsts (rest.filter fun later => decide (later.id ≠ o.id)) := by
  simp [firsts, sameId, List.eraseDupsBy_cons]

end Occurrence

namespace ChildRule

variable {h : Heap}

/-- What the objects of a chain list, from a position on; an object that fails to list its ids
adds nothing. -/
def occurrences (rule : ChildRule) (h : Heap) (position : Nat) (owners : List ObjectId) :
    List Occurrence :=
  (owners.zipIdx position).flatMap fun (owner, position) =>
    ((rule.ids (h.object owner)).toOption.getD []).map (Occurrence.mk position owner)

def showsOccurrence (rule : ChildRule) (o : Occurrence) : Bool :=
  rule.shows (o.position == 0) o.owner o.id

def meet (rule : ChildRule) (found : Found) (o : Occurrence) : Found :=
  match found.room with
  | 0 => found
  | room + 1 =>
      if found.seen.contains o.id then found
      else if rule.showsOccurrence o then
        { members := o.member :: found.members, seen := o.id :: found.seen, room := room }
      else { found with seen := o.id :: found.seen }

section Meet

variable {rule : ChildRule} {found : Found} {o : Occurrence} {room : Nat}

theorem meet_of_full (hroom : found.room = 0) : rule.meet found o = found := by
  rw [meet, hroom]

theorem meet_of_seen (hseen : found.seen.contains o.id) : rule.meet found o = found := by
  unfold meet
  split
  · rfl
  · rw [if_pos hseen]

theorem meet_of_shown (hroom : found.room = room + 1) (hseen : ¬ found.seen.contains o.id)
    (hshown : rule.showsOccurrence o) :
    rule.meet found o =
      { members := o.member :: found.members, seen := o.id :: found.seen, room := room } := by
  rw [meet, hroom]
  exact (if_neg hseen).trans (if_pos hshown)

theorem meet_of_suppressed (hroom : found.room = room + 1) (hseen : ¬ found.seen.contains o.id)
    (hshown : ¬ rule.showsOccurrence o) :
    rule.meet found o = { found with seen := o.id :: found.seen } := by
  rw [meet, hroom]
  exact (if_neg hseen).trans (if_neg hshown)

theorem foldl_meet_of_full (hroom : found.room = 0) (occurrences : List Occurrence) :
    occurrences.foldl rule.meet found = found := by
  induction occurrences with
  | nil => rfl
  | cons o rest ih => rw [List.foldl_cons, meet_of_full hroom, ih]

end Meet

/-- A scan meets the ids of its object one after the other, and stops early only when there is no
room for them. -/
theorem scan_eq_foldl (rule : ChildRule) (position : Nat) (owner : ObjectId)
    (ids : List PropertyId) (found : Found) :
    (rule.scan (position == 0) owner ids found).1 =
        (ids.map (Occurrence.mk position owner)).foldl rule.meet found ∧
      ((rule.scan (position == 0) owner ids found).2 = true →
        (rule.scan (position == 0) owner ids found).1.room = 0) := by
  induction ids generalizing found with
  | nil => exact ⟨rfl, nofun⟩
  | cons id rest ih =>
      rw [List.map_cons, List.foldl_cons]
      unfold scan
      split
      · rename_i hroom
        exact ⟨by rw [meet_of_full hroom, foldl_meet_of_full hroom], fun _ => hroom⟩
      · rename_i room hroom
        split
        · rename_i hseen
          rw [meet_of_seen hseen]
          exact ih found
        · rename_i hseen
          by_cases hshown : rule.shows (position == 0) owner id
          · rw [if_pos hshown, meet_of_shown (o := ⟨position, owner, id⟩) hroom hseen hshown]
            exact ih _
          · rw [if_neg hshown, meet_of_suppressed (o := ⟨position, owner, id⟩) hroom hseen hshown]
            exact ih _

theorem occurrences_cons (rule : ChildRule) (position : Nat) {owner : ObjectId}
    (rest : List ObjectId) {ids : List PropertyId} (hids : rule.ids (h.object owner) = .ok ids) :
    rule.occurrences h position (owner :: rest) =
      ids.map (Occurrence.mk position owner) ++ rule.occurrences h (position + 1) rest := by
  simp only [occurrences, List.zipIdx_cons, List.flatMap_cons, hids, Except.toOption,
    Option.getD_some]

theorem collect_eq_foldl (rule : ChildRule) (position : Nat) (owners : List ObjectId)
    (found : Found)
    (hids : ∀ owner ∈ owners, ∃ ids, rule.ids (h.object owner) = .ok ids) :
    rule.collect h (position == 0) owners found =
      .ok ((rule.occurrences h position owners).foldl rule.meet found) := by
  induction owners generalizing position found with
  | nil => rfl
  | cons owner rest ih =>
      obtain ⟨ids, howner⟩ := hids owner List.mem_cons_self
      obtain ⟨hfound, hfull⟩ := rule.scan_eq_foldl position owner ids found
      rw [occurrences_cons rule position rest howner, List.foldl_append, ← hfound]
      refine bind_eq_ok.mpr ⟨ids, howner, ?_⟩
      generalize rule.scan (position == 0) owner ids found = scanned at hfull
      obtain ⟨middle, full⟩ := scanned
      cases full with
      | true => exact congrArg Except.ok (foldl_meet_of_full (hfull rfl) _).symm
      | false => exact ih (position + 1) middle fun o ho => hids o (List.mem_cons_of_mem _ ho)

def additions (rule : ChildRule) (found : Found) (occurrences : List Occurrence) : List Member :=
  (((Occurrence.firsts (occurrences.filter fun o => decide (o.id ∉ found.seen))).filter
    rule.showsOccurrence).take found.room).map Occurrence.member

theorem additions_of_full (rule : ChildRule) {found : Found} (hroom : found.room = 0)
    (occurrences : List Occurrence) : rule.additions found occurrences = [] := by
  rw [additions, hroom, List.take_zero, List.map_nil]

theorem additions_cons_of_seen (rule : ChildRule) {found : Found} {o : Occurrence}
    (hseen : o.id ∈ found.seen) (rest : List Occurrence) :
    rule.additions found (o :: rest) = rule.additions found rest := by
  rw [additions, List.filter_cons_of_neg (by simpa using hseen), additions]

theorem firsts_cons_of_new {found : Found} {o : Occurrence} (hseen : o.id ∉ found.seen)
    (rest : List Occurrence) :
    Occurrence.firsts ((o :: rest).filter fun o => decide (o.id ∉ found.seen)) =
      o :: Occurrence.firsts (rest.filter fun later => decide (later.id ∉ o.id :: found.seen)) := by
  rw [List.filter_cons_of_pos (by simpa using hseen), Occurrence.firsts_cons, List.filter_filter]
  simp only [List.mem_cons, not_or, Bool.decide_and]

theorem members_foldl_meet (rule : ChildRule) (occurrences : List Occurrence) (found : Found) :
    (occurrences.foldl rule.meet found).members.reverse =
      found.members.reverse ++ rule.additions found occurrences := by
  induction occurrences generalizing found with
  | nil => simp [additions, Occurrence.firsts]
  | cons o rest ih =>
      cases hroom : found.room with
      | zero => rw [foldl_meet_of_full hroom, additions_of_full rule hroom, List.append_nil]
      | succ room =>
          rw [List.foldl_cons]
          by_cases hseen : o.id ∈ found.seen
          · rw [meet_of_seen (by simpa using hseen), additions_cons_of_seen rule hseen, ih]
          · have hnew : ¬ found.seen.contains o.id := by simpa using hseen
            by_cases hshown : rule.showsOccurrence o
            · rw [meet_of_shown hroom hnew hshown, ih, additions, additions,
                firsts_cons_of_new hseen, List.filter_cons_of_pos hshown, hroom,
                List.take_succ_cons, List.map_cons, List.reverse_cons, List.append_assoc]
              rfl
            · rw [meet_of_suppressed hroom hnew hshown, ih, additions, additions,
                firsts_cons_of_new hseen, List.filter_cons_of_neg hshown]

theorem children_eq (rule : ChildRule) {limit : Nat} {id : ObjectId}
    (hids : ∀ owner ∈ h.chain maxPrototypeLevels id, ∃ ids, rule.ids (h.object owner) = .ok ids) :
    rule.children h limit id =
      .ok ((((Occurrence.firsts
        (rule.occurrences h 0 (h.chain maxPrototypeLevels id))).filter rule.showsOccurrence).take
          limit).map Occurrence.member) := by
  have hcollect := rule.collect_eq_foldl 0 _ { room := limit } hids
  rw [children, show true = ((0 : Nat) == 0) from rfl, hcollect]
  have hmembers := members_foldl_meet rule (rule.occurrences h 0 (h.chain maxPrototypeLevels id))
    { room := limit }
  refine congrArg Except.ok (hmembers.trans ?_)
  have hunseen : ∀ occurrences : List Occurrence,
      (occurrences.filter fun o => decide (o.id ∉ ([] : List PropertyId))) = occurrences := by simp
  rw [additions, hunseen]
  rfl

end ChildRule

namespace Heap

/-- Whether the value of an occurrence, read from its object, is shown: internal objects and what
the object hides are not, and plain functions only at the beginning of the chain. -/
def showsOccurrence (h : Heap) (o : Occurrence) : Bool :=
  !(h.object o.owner).isHidden o.id &&
    match h.childValue o.owner o.id with
    | .scalar _ => true
    | .object value =>
        !(h.object value).internal &&
          !((h.object value).kind == .function && decide (0 < o.position))

theorem expandedRule_showsOccurrence (h : Heap) :
    h.expandedRule.showsOccurrence = h.showsOccurrence := by
  funext o
  change (h.isListed (o.position == 0) (h.childValue o.owner o.id) &&
    !(h.object o.owner).isHidden o.id) = _
  rw [showsOccurrence, Bool.and_comm]
  cases h.childValue o.owner o.id with
  | scalar s => rfl
  | object value =>
      obtain ⟨position, owner, id⟩ := o
      cases position with
      | zero => simp [isListed]
      | succ position => simp [isListed, bne]

/-- The members that an expanded object shows, told without the walk that finds them. -/
def enumerated (h : Heap) (limit : Nat) (id : ObjectId) : List Member :=
  (((Occurrence.firsts
    (h.expandedRule.occurrences h 0 (h.chain maxPrototypeLevels id))).filter
      h.showsOccurrence).take limit).map Occurrence.member

end Heap

namespace Node

def ofMember (l : Limits) (h : Heap) (level : Nat) (path : String) (m : Member) : Node :=
  encode l h (level + 1) (decide (level + 1 < l.maxDepth)) m.2.text (m.2.childPath path)
    (h.childValue m.1 m.2)

def expand (l : Limits) (h : Heap) (level : Nat) (path : String) (id : ObjectId) :
    Except HostError (List Node) :=
  (h.expandedRule.children h l.maxChildren id).map fun members =>
    members.map (ofMember l h level path)

def content (l : Limits) (h : Heap) (level : Nat) (path : String) (id : ObjectId) :
    Bool → Except HostError (Nat × List Node)
  | true => (expand l h level path id).map fun children => (children.length, children)
  | false => (h.childCount l.maxChildren id).map fun count => (count, [])

/-- The node of a value, or what the host fails with when it is asked about the value. -/
def attempt (l : Limits) (h : Heap) (level : Nat) (expanded : Bool) (name path : String) :
    Value → Except HostError Node
  | .scalar s => .ok (ofScalar l name path s)
  | .object id => do
      let (type, label) ← (h.object id).label
      let (count, children) ← content l h level path id expanded
      return mk name path type (h.object id).className (l.cut label) true count children

theorem encode_object (l : Limits) (h : Heap) (level : Nat) (expanded : Bool)
    (name path : String) (id : ObjectId) :
    encode l h level expanded name path (.object id) =
      ofObject l name path (h.object id) (content l h level path id expanded) := by
  cases expanded with
  | false => rw [encode_lazy, content]
  | true =>
      rw [encode_expanded, content, expand]
      cases h.expandedRule.children h l.maxChildren id with
      | error e => rfl
      | ok members =>
          simp only [Except.map, List.length_map]
          rfl

theorem encode_of_attempt_ok {l : Limits} {h : Heap} {level : Nat} {expanded : Bool}
    {name path : String} {value : Value} {n : Node}
    (hattempt : attempt l h level expanded name path value = .ok n) :
    encode l h level expanded name path value = n := by
  cases value with
  | scalar s =>
      cases hattempt
      exact encode_scalar ..
  | object id =>
      obtain ⟨⟨type, label⟩, hlabel, hrest⟩ := bind_eq_ok.mp hattempt
      obtain ⟨⟨count, children⟩, hcontent, hnode⟩ := bind_eq_ok.mp hrest
      cases hnode
      rw [encode_object, ofObject, hlabel, hcontent]

theorem encode_of_attempt_error {l : Limits} {h : Heap} {level : Nat} {expanded : Bool}
    {name path : String} {value : Value} {e : HostError}
    (hattempt : attempt l h level expanded name path value = .error e) :
    ∃ id, value = .object id ∧
      encode l h level expanded name path value = ofFailure l name path (h.object id) e := by
  cases value with
  | scalar s => cases hattempt
  | object id =>
      refine ⟨id, rfl, ?_⟩
      rw [encode_object, ofObject]
      rw [attempt] at hattempt
      cases hlabel : (h.object id).label with
      | error first =>
          rw [hlabel] at hattempt
          cases hattempt
          rfl
      | ok shown =>
          rw [hlabel] at hattempt
          cases hcontent : content l h level path id expanded with
          | error second =>
              rw [hcontent] at hattempt
              cases hattempt
              rfl
          | ok pair =>
              rw [hcontent] at hattempt
              cases hattempt

@[simp] theorem name_encode (l : Limits) (h : Heap) (level : Nat) (expanded : Bool)
    (name path : String) (value : Value) :
    (encode l h level expanded name path value).name = name := by
  cases hattempt : attempt l h level expanded name path value with
  | error e =>
      obtain ⟨id, -, hfailure⟩ := encode_of_attempt_error hattempt
      rw [hfailure]
      rfl
  | ok n =>
      rw [encode_of_attempt_ok hattempt]
      cases value with
      | scalar s =>
          cases hattempt
          rfl
      | object id =>
          obtain ⟨_, _, hrest⟩ := bind_eq_ok.mp hattempt
          obtain ⟨_, _, hnode⟩ := bind_eq_ok.mp hrest
          cases hnode
          rfl

/-- While every object of the chain lists its ids, the children of an object are its enumerated
members, each encoded one level further down.  Which members they are, in which order and under
which names and paths, does not depend on what the host says of their values: a member whose value
it fails to tell of is there as one text without children. -/
theorem expand_eq_enumerated (l : Limits) (h : Heap) (level : Nat) (path : String) (id : ObjectId)
    (hids : ∀ owner ∈ h.chain maxPrototypeLevels id,
      ∃ ids, Heap.expandedIds (h.object owner) = .ok ids) :
    ∃ children,
      expand l h level path id = .ok children ∧
      children = (h.enumerated l.maxChildren id).map (fun m =>
        encode l h (level + 1) (decide (level + 1 < l.maxDepth)) m.2.text (m.2.childPath path)
          (h.childValue m.1 m.2)) ∧
      (children.map fun child => (child.name, child.path)) =
        (h.enumerated l.maxChildren id).map (fun m => (m.2.text, m.2.childPath path)) ∧
      (∀ name, encode l h level true name path (.object id) =
        ofObject l name path (h.object id) (.ok (children.length, children))) ∧
      ∀ (i : Nat) (m : Member) (e : HostError), (h.enumerated l.maxChildren id)[i]? = some m →
        attempt l h (level + 1) (decide (level + 1 < l.maxDepth)) m.2.text (m.2.childPath path)
          (h.childValue m.1 m.2) = .error e →
        ∃ failing, h.childValue m.1 m.2 = .object failing ∧
          children[i]? = some (mk m.2.text (m.2.childPath path) .string "String"
            (l.cut ((h.object failing).failureText e)) false 0 []) := by
  have hmembers : h.expandedRule.children h l.maxChildren id =
      .ok (h.enumerated l.maxChildren id) := by
    rw [ChildRule.children_eq h.expandedRule hids, Heap.expandedRule_showsOccurrence]
    rfl
  have hexpand : expand l h level path id =
      .ok ((h.enumerated l.maxChildren id).map (ofMember l h level path)) := by
    rw [expand, hmembers]
    rfl
  refine ⟨_, hexpand, rfl, ?_, fun name => ?_, fun i m e hm hattempt => ?_⟩
  · rw [List.map_map]
    refine List.map_congr_left fun m _ => ?_
    simp only [Function.comp_apply, ofMember, name_encode, path_encode]
  · rw [encode_object, content, hexpand]
    rfl
  · obtain ⟨failing, hvalue, hfailure⟩ := encode_of_attempt_error hattempt
    refine ⟨failing, hvalue, ?_⟩
    rw [List.getElem?_map, hm, Option.map_some, ofMember, hfailure]
    rfl

def mutualPrototypes : Heap where
  objects :=
    [{ slots := [(.name "shared", .string "derived"), (.name "native", .object 3),
         (.name "broken", .object 2)]
       prototype := some 1 },
      { slots := [(.name "shared", .string "base"), (.name "native", .string "text"),
          (.name "method", .object 4), (.index 7, .string "inherited")]
        prototype := some 0 },
      { kind := .xml
        display := .error { className := "TypeError", message := "toString exploded" } },
      { kind := .function, internal := true },
      { kind := .function }]

theorem expand_eq_enumerated_mutualPrototypes :
    (∀ owner ∈ mutualPrototypes.chain maxPrototypeLevels 0,
      ∃ ids, Heap.expandedIds (mutualPrototypes.object owner) = .ok ids) ∧
    ∃ children, expand {} mutualPrototypes 0 "o" 0 = .ok children ∧
      (children.map fun child => (child.name, child.path)) =
        [("shared", "o.shared"), ("broken", "o.broken"), ("7", "o[7]")] ∧
      ∃ text, children[1]? = some (mk "broken" "o.broken" .string "String" text false 0 []) := by
  have hchain : ∀ owner ∈ mutualPrototypes.chain maxPrototypeLevels 0, owner = 0 ∨ owner = 1 := by
    decide +kernel
  have hids : ∀ owner ∈ mutualPrototypes.chain maxPrototypeLevels 0,
      ∃ ids, Heap.expandedIds (mutualPrototypes.object owner) = .ok ids := by
    intro owner howner
    rcases hchain owner howner with rfl | rfl
    · exact ⟨_, rfl⟩
    · exact ⟨_, rfl⟩
  have henumerated : mutualPrototypes.enumerated 5000 0 =
      [(0, .name "shared"), (0, .name "broken"), (1, .index 7)] := by
    decide +kernel
  obtain ⟨children, hexpand, -, hnames, -, hfailing⟩ :=
    expand_eq_enumerated {} mutualPrototypes 0 "o" 0 hids
  refine ⟨hids, children, hexpand, ?_, ?_⟩
  · rw [hnames, henumerated]
    decide +kernel
  · obtain ⟨failing, -, hchild⟩ := hfailing 1 (0, .name "broken")
      { className := "TypeError", message := "toString exploded" } (by rw [henumerated]; rfl)
      (by rfl)
    exact ⟨_, hchild⟩

end Node

end ScriptDebugger
