import ScriptDebugger.Proofs.Property.Members
import ScriptDebugger.Proofs.Property.Trail
import ScriptDebugger.Proofs.Text.Payload

namespace ScriptDebugger

theorem Limits.length_cut_le {l : Limits} (h : 0 < l.maxData) (text : String) :
    (l.cut text).length ≤ l.maxData := by
  rw [cut, if_pos h, String.length_ofList]
  exact List.length_take_le _ _

namespace Node

variable {l : Limits} {h : Heap}

/-- The children of a node keep to a limit, and their declared number too.  It is the number of
those that are there if the node is expanded, and otherwise none are there. -/
structure Fits (limit : Nat) (expanded : Bool) (n : Node) : Prop where
  length_children_le : n.children.length ≤ limit
  childCount_le : n.childCount ≤ limit
  childCount_eq : expanded = true → n.childCount = n.children.length
  children_eq_nil : expanded = false → n.children = []

theorem fits_ofScalar (limit : Nat) (expanded : Bool) (l : Limits) (name path : String) (s : Scalar) :
    (ofScalar l name path s).Fits limit expanded where
  length_children_le := Nat.zero_le _
  childCount_le := Nat.zero_le _
  childCount_eq _ := rfl
  children_eq_nil _ := rfl

theorem fits_ofObject {limit : Nat} {expanded : Bool} {name path : String} {o : Object}
    {content : Except HostError (Nat × List Node)}
    (hcontent : ∀ type className text count children, content = .ok (count, children) →
      (Node.mk name path type className text true count children).Fits limit expanded) :
    (ofObject l name path o content).Fits limit expanded := by
  rcases ofObject_cases l name path o content with ⟨e, hfailure⟩ | ⟨_, _, _, _, _, hc, hnode⟩
  · rw [hfailure]
    exact fits_ofScalar limit expanded l name path _
  · rw [hnode]
    exact hcontent _ _ _ _ _ hc

theorem fits_encode (l : Limits) (h : Heap) (level : Nat) (expanded : Bool) (name path : String)
    (value : Value) :
    (encode l h level expanded name path value).Fits l.maxChildren expanded := by
  cases value with
  | scalar s =>
      rw [encode_scalar]
      exact fits_ofScalar _ _ l name path s
  | object id =>
      cases expanded with
      | false =>
          rw [encode_lazy]
          refine fits_ofObject fun type className text count children hcontent => ?_
          obtain ⟨number, hnumber, hpair⟩ := map_eq_ok.mp hcontent
          cases hpair
          exact ⟨Nat.zero_le _, Heap.childCount_le hnumber, nofun, fun _ => rfl⟩
      | true =>
          rw [encode_expanded]
          refine fits_ofObject fun type className text count children hcontent => ?_
          obtain ⟨members, hmembers, hpair⟩ := map_eq_ok.mp hcontent
          cases hpair
          have hlength := ChildRule.length_children_le hmembers
          refine ⟨?_, hlength, fun _ => ?_, nofun⟩
          · simpa only [children, List.length_map] using hlength
          · simp only [childCount, children, List.length_map]

theorem levelsBelow_le_iff {children : List Node} {bound : Nat} :
    levelsBelow children ≤ bound ↔ ∀ child ∈ children, child.expandedDepth + 1 ≤ bound := by
  induction children with
  | nil => simp [levelsBelow]
  | cons child rest ih =>
      simp only [levelsBelow, Nat.max_le, List.forall_mem_cons, ih]

theorem expandedDepth_le_iff {n : Node} {bound : Nat} :
    n.expandedDepth ≤ bound ↔ ∀ child ∈ n.children, child.expandedDepth + 1 ≤ bound := by
  cases n
  exact levelsBelow_le_iff

theorem expandedDepth_encode_le (l : Limits) (h : Heap) (level : Nat) (expanded : Bool)
    (name path : String) (value : Value) :
    (encode l h level expanded name path value).expandedDepth ≤ l.levels level expanded := by
  generalize hlevels : l.levels level expanded = levels
  induction levels generalizing level expanded name path value with
  | zero =>
      refine expandedDepth_le_iff.mpr fun child hchild => ?_
      obtain ⟨rfl, _⟩ := mem_children_encode hchild
      simp only [Limits.levels, if_true] at hlevels
      omega
  | succ levels ih =>
      refine expandedDepth_le_iff.mpr fun child hchild => ?_
      obtain ⟨rfl, _, _, _, _, _, _, rfl⟩ := mem_children_encode hchild
      refine Nat.succ_le_succ (ih _ _ _ _ _ ?_)
      rw [l.levels_child, hlevels, Nat.add_sub_cancel]

theorem exists_text_encode (l : Limits) (h : Heap) (level : Nat) (expanded : Bool)
    (name path : String) (value : Value) :
    ∃ text, (encode l h level expanded name path value).text = l.cut text := by
  have hobject : ∀ {o : Object} {content : Except HostError (Nat × List Node)},
      ∃ text, (ofObject l name path o content).text = l.cut text := by
    intro o content
    rcases ofObject_cases l name path o content with ⟨e, heq⟩ | ⟨_, label, _, _, _, _, heq⟩
    · exact ⟨o.failureText e, congrArg Node.text heq⟩
    · exact ⟨label, congrArg Node.text heq⟩
  cases value with
  | scalar s =>
      rw [encode_scalar]
      exact ⟨s.text, rfl⟩
  | object id =>
      cases expanded with
      | false =>
          rw [encode_lazy]
          exact hobject
      | true =>
          rw [encode_expanded]
          exact hobject

/-- A tree has so many levels of children at most, and keeps to the limits on the children of a
node and on what is read from its payload. -/
structure Within (l : Limits) (levels : Nat) (root : Node) : Prop where
  depth_le : root.expandedDepth ≤ levels
  siblings_le : ∀ {depth n}, root.Below depth n → n.children.length ≤ l.maxChildren
  payload_le : 0 < l.maxData → ∀ {depth n}, root.Below depth n →
    ∃ text, Payload.decode (Payload.encode n.text) = .ok text ∧ text.length ≤ l.maxData

theorem within_encode (l : Limits) (h : Heap) (level : Nat) (expanded : Bool) (name path : String)
    (value : Value) :
    (encode l h level expanded name path value).Within l (l.levels level expanded) where
  depth_le := expandedDepth_encode_le l h level expanded name path value
  siblings_le := by
    intro depth n hbelow
    obtain ⟨way, shown, label, _, _, rfl⟩ := below_encode hbelow
    exact (fits_encode l h _ _ _ _ _).length_children_le
  payload_le := by
    intro hlimited depth n hbelow
    obtain ⟨way, shown, label, _, _, rfl⟩ := below_encode hbelow
    refine ⟨_, Payload.decode_encode _, ?_⟩
    obtain ⟨text, htext⟩ := exists_text_encode l h (level + depth)
      (l.expands level expanded depth) label (Path.ofIds path (way.map Prod.snd)) shown
    rw [htext]
    exact Limits.length_cut_le hlimited text

/-- The tree of a value keeps within the depth, and each of its nodes to the limit on children,
with a declared number that is the true one where children are shown. -/
theorem encode_bounded (l : Limits) (h : Heap) (level : Nat) (expanded : Bool)
    (name path : String) (value : Value) :
    (encode l h level expanded name path value).expandedDepth ≤
        (if expanded then max 1 (l.maxDepth - level) else 0) ∧
      ∀ {depth : Nat} {n : Node}, (encode l h level expanded name path value).Below depth n →
        n.children.length ≤ l.maxChildren ∧ n.childCount ≤ l.maxChildren ∧
          (if l.expands level expanded depth then n.childCount = n.children.length
            else n.children = []) := by
  refine ⟨expandedDepth_encode_le l h level expanded name path value, ?_⟩
  intro depth n hbelow
  obtain ⟨way, shown, label, _, _, rfl⟩ := below_encode hbelow
  have hfits := fits_encode l h (level + depth) (l.expands level expanded depth) label
    (Path.ofIds path (way.map Prod.snd)) shown
  refine ⟨hfits.length_children_le, hfits.childCount_le, ?_⟩
  split
  · rename_i hexpanded
    exact hfits.childCount_eq hexpanded
  · rename_i hlazy
    exact hfits.children_eq_nil (Bool.eq_false_iff.mpr hlazy)

example : (encode { maxDepth := 3 } ⟨[{ slots := [(.name "self", .object 0)] }]⟩ 0 true "o" "o"
    (.object 0)).expandedDepth = 3 := by
  decide +kernel

end Node

end ScriptDebugger
