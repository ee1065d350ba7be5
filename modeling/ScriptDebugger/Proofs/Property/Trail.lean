import ScriptDebugger.Property.Encode
import ScriptDebugger.Property.Path

namespace ScriptDebugger

/-- Members lead from a value to another, each one listed by the object before it. -/
inductive Heap.Trail (h : Heap) (limit : Nat) : Value → List Member → Value → Prop where
  | here (value : Value) : Trail h limit value [] value
  | member {id : ObjectId} {members way : List Member} {m : Member} {value : Value}
      (hchildren : h.expandedRule.children h limit id = .ok members) (hmem : m ∈ members)
      (hway : Trail h limit (h.childValue m.1 m.2) way value) :
      Trail h limit (.object id) (m :: way) value

namespace Limits

def expands (l : Limits) (level : Nat) (expanded : Bool) : Nat → Bool
  | 0 => expanded
  | depth + 1 => decide (level + (depth + 1) < l.maxDepth)

theorem expands_child (l : Limits) (level : Nat) (expanded : Bool) (depth : Nat) :
    l.expands (level + 1) (decide (level + 1 < l.maxDepth)) depth =
      l.expands level expanded (depth + 1) := by
  cases depth with
  | zero => rfl
  | succ depth =>
      have hlevel : level + 1 + (depth + 1) = level + (depth + 1 + 1) := by omega
      simp only [expands, hlevel]

end Limits

namespace Node

/-- A node stands so many levels below another. -/
inductive Below : Node → Nat → Node → Prop where
  | here (n : Node) : Below n 0 n
  | child {n child m : Node} {depth : Nat} (hchild : child ∈ n.children)
      (hbelow : Below child depth m) : Below n (depth + 1) m

@[simp] theorem path_ofScalar (l : Limits) (name path : String) (s : Scalar) :
    (ofScalar l name path s).path = path := rfl

theorem ofObject_cases (l : Limits) (name path : String) (o : Object)
    (content : Except HostError (Nat × List Node)) :
    (∃ e, ofObject l name path o content = ofFailure l name path o e) ∨
      ∃ type label count children, o.label = .ok (type, label) ∧ content = .ok (count, children) ∧
        ofObject l name path o content =
          mk name path type o.className (l.cut label) true count children := by
  unfold ofObject
  split
  · exact .inl ⟨_, rfl⟩
  · rename_i type label hlabel
    split
    · exact .inl ⟨_, rfl⟩
    · rename_i count children
      exact .inr ⟨type, label, count, children, hlabel, rfl, rfl⟩

@[simp] theorem path_ofObject (l : Limits) (name path : String) (o : Object)
    (content : Except HostError (Nat × List Node)) :
    (ofObject l name path o content).path = path := by
  rcases ofObject_cases l name path o content with ⟨e, h⟩ | ⟨_, _, _, _, _, _, h⟩
  · rw [h]
    rfl
  · rw [h]
    rfl

theorem mem_children_ofObject {l : Limits} {name path : String} {o : Object}
    {content : Except HostError (Nat × List Node)} {child : Node}
    (h : child ∈ (ofObject l name path o content).children) :
    ∃ count children, content = .ok (count, children) ∧ child ∈ children := by
  rcases ofObject_cases l name path o content with ⟨e, hfailure⟩ | ⟨_, _, count, children, _, hc, hn⟩
  · rw [hfailure] at h
    cases h
  · rw [hn] at h
    exact ⟨count, children, hc, h⟩

@[simp] theorem path_encode (l : Limits) (h : Heap) (level : Nat) (expanded : Bool)
    (name path : String) (value : Value) :
    (encode l h level expanded name path value).path = path := by
  cases value with
  | scalar s => rw [encode_scalar, path_ofScalar]
  | object id =>
      cases expanded with
      | false => rw [encode_lazy, path_ofObject]
      | true => rw [encode_expanded, path_ofObject]

theorem mem_children_encode {l : Limits} {h : Heap} {level : Nat} {expanded : Bool}
    {name path : String} {value : Value} {child : Node}
    (hchild : child ∈ (encode l h level expanded name path value).children) :
    expanded = true ∧ ∃ id members m, value = .object id ∧
      h.expandedRule.children h l.maxChildren id = .ok members ∧ m ∈ members ∧
        child = encode l h (level + 1) (decide (level + 1 < l.maxDepth)) m.2.text
          (m.2.childPath path) (h.childValue m.1 m.2) := by
  cases value with
  | scalar s =>
      rw [encode_scalar] at hchild
      cases hchild
  | object id =>
      cases expanded with
      | false =>
          rw [encode_lazy] at hchild
          obtain ⟨count, children, hcontent, hmem⟩ := mem_children_ofObject hchild
          obtain ⟨number, _, hpair⟩ := map_eq_ok.mp hcontent
          cases hpair
          cases hmem
      | true =>
          rw [encode_expanded] at hchild
          obtain ⟨count, children, hcontent, hmem⟩ := mem_children_ofObject hchild
          obtain ⟨members, hmembers, hpair⟩ := map_eq_ok.mp hcontent
          cases hpair
          obtain ⟨m, hm, heq⟩ := List.mem_map.mp hmem
          exact ⟨rfl, id, members, m, rfl, hmembers, hm, heq.symm⟩

/-- A node below that of a value is the node of a value that a trail leads to. -/
theorem below_encode {l : Limits} {h : Heap} {level : Nat} {expanded : Bool}
    {name path : String} {value : Value} {depth : Nat} {n : Node}
    (hbelow : (encode l h level expanded name path value).Below depth n) :
    ∃ way shown label, way.length = depth ∧ h.Trail l.maxChildren value way shown ∧
      n = encode l h (level + depth) (l.expands level expanded depth) label
        (Path.ofIds path (way.map Prod.snd)) shown := by
  generalize hroot : encode l h level expanded name path value = root at hbelow
  induction hbelow generalizing level expanded name path value with
  | here n => exact ⟨[], value, name, rfl, .here value, hroot.symm⟩
  | @child n child last depth hchild _ ih =>
      subst hroot
      obtain ⟨rfl, id, members, m, rfl, hchildren, hm, rfl⟩ := mem_children_encode hchild
      obtain ⟨way, shown, label, hlength, hway, hlast⟩ := ih rfl
      refine ⟨m :: way, shown, label, congrArg Nat.succ hlength, .member hchildren hm hway, ?_⟩
      have hlevel : level + 1 + depth = level + (depth + 1) := by omega
      rw [hlast, hlevel, l.expands_child level true]
      rfl

end Node

end ScriptDebugger
