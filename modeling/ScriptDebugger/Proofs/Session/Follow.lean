import ScriptDebugger.Proofs.Property.Members
import ScriptDebugger.Proofs.Property.PathText
import ScriptDebugger.Proofs.Property.Trail
import ScriptDebugger.Session.Inspect

/-!
Following a path.  A trail of members is followed by reading their ids from one object to the next,
and whoever gets to its end that way finds the value there, provided that no object on the way has a
property of its own under the id of a member that it lists from a prototype.  What a node shows of
this value does not depend on where it stands.
-/

namespace ScriptDebugger

namespace Heap

def ReadsAs (h : Heap) (id : ObjectId) (m : Member) : Prop :=
  ∀ value, h.get id m.2 = .ok value → value.isFound = true → value = h.childValue m.1 m.2

/-- Objects on the way read the members on it, and their ids are plain. -/
def Clear (h : Heap) : Value → List Member → Prop
  | .object id, m :: way =>
      m.2.IsPlain ∧ h.ReadsAs id m ∧ h.Clear (h.childValue m.1 m.2) way
  | _, _ => True

theorem readsAs_own (h : Heap) (id : ObjectId) (property : PropertyId) :
    h.ReadsAs id (id, property) := by
  intro value hget _
  simp only [childValue, hget]

variable {h : Heap} {limit : Nat} {value shown : Value} {way : List Member}

theorem Trail.plain (htrail : h.Trail limit value way shown) (hclear : h.Clear value way) :
    ∀ id ∈ way.map Prod.snd, id.IsPlain := by
  induction htrail with
  | here value => simp
  | member _ _ _ ih =>
      obtain ⟨hplain, _, hclear⟩ := hclear
      rw [List.map_cons, List.forall_mem_cons]
      exact ⟨hplain, ih hclear⟩

theorem Trail.unique {way' : List Member} {shown' : Value}
    (htrail : h.Trail limit value way shown) (htrail' : h.Trail limit value way' shown')
    (hids : way.map Prod.snd = way'.map Prod.snd) : way = way' ∧ shown = shown' := by
  induction htrail generalizing way' with
  | here value =>
      cases htrail' with
      | here => exact ⟨rfl, rfl⟩
      | member => cases hids
  | member hchildren hmem _ ih =>
      cases htrail' with
      | here => cases hids
      | member hchildren' hmem' htrail' =>
          obtain ⟨hid, hrest⟩ := List.cons.inj hids
          cases hchildren.symm.trans hchildren'
          cases ChildRule.member_eq_of_id hchildren hmem hmem' hid
          obtain ⟨rfl, rfl⟩ := ih htrail' hrest
          exact ⟨rfl, rfl⟩

end Heap

namespace Session

variable {h : Heap} {limit : Nat} {value shown : Value} {way : List Member}

/-- Whoever follows the ids of a clear trail to its end finds the value there. -/
theorem follow_trail (htrail : h.Trail limit value way shown) (hclear : h.Clear value way)
    {found : Value} (hfollow : follow h value (way.map Prod.snd) = .ok (some found)) :
    found = shown := by
  -- An object on the way reads the member that the trail goes on with, or nothing.
  induction htrail with
  | here value =>
      cases hfollow
      rfl
  | member _ _ _ ih =>
      obtain ⟨_, hreads, hclear⟩ := hclear
      obtain ⟨next, hget, hnext⟩ := bind_eq_ok.mp hfollow
      split at hnext
      · rename_i hfound
        rw [hreads next hget hfound] at hnext
        exact ih hclear hnext
      · cases hnext

theorem follow_cons_of_get {owner : ObjectId} {id : PropertyId} {next : Value}
    (hget : h.get owner id = .ok next) (rest : List PropertyId) :
    follow h (.object owner) (id :: rest) =
      if next.isFound then follow h next rest else .ok none := by
  rw [follow, hget]
  rfl

theorem follow_append {first ids : List PropertyId} {middle : Value}
    (hfirst : follow h value first = .ok (some middle)) :
    follow h value (first ++ ids) = follow h middle ids := by
  induction first generalizing value with
  | nil =>
      cases hfirst
      rfl
  | cons id first ih =>
      cases value with
      | scalar s => cases hfirst
      | object owner =>
          obtain ⟨next, hget, hnext⟩ := bind_eq_ok.mp hfirst
          split at hnext
          · rename_i hfound
            rw [List.cons_append, follow_cons_of_get hget, if_pos hfound]
            exact ih hnext
          · cases hnext

def walkPath (s : Session) (frame : Option Frame) (scope : Nat) (path : String) :
    Except Error (Option Value) :=
  match Path.read? path with
  | some ids => s.walk frame scope ids
  | none => .ok none

def orEvaluated (s : Session) (frame : Option Frame) (path : String) :
    Option Value → Except Error Value
  | some value => .ok value
  | none =>
      match s.host.evaluate s.heap path frame with
      | .ok value => .ok value
      | .error _ => .error (.propertyNotFound path)

theorem resolve_eq (s : Session) (frame : Option Frame) (scope : Nat) (path : String) :
    s.resolve frame scope path = s.walkPath frame scope path >>= s.orEvaluated frame path := by
  unfold resolve walkPath
  cases Path.read? path <;> rfl

theorem resolve_eq_ok {s : Session} {frame : Option Frame} {scope : Nat} {path : String}
    {value : Value} :
    s.resolve frame scope path = .ok value ↔
      s.walkPath frame scope path = .ok (some value) ∨
        s.walkPath frame scope path = .ok none ∧ s.host.evaluate s.heap path frame = .ok value := by
  rw [resolve_eq]
  cases s.walkPath frame scope path with
  | error e => simp [bind, Except.bind]
  | ok found =>
      cases found with
      | some found => simp [bind, Except.bind, orEvaluated]
      | none =>
          cases hhost : s.host.evaluate s.heap path frame with
          | error e => simp [bind, Except.bind, orEvaluated, hhost]
          | ok result => simp [bind, Except.bind, orEvaluated, hhost]

theorem walkPath_eq_some {s : Session} {frame : Option Frame} {scope : Nat} {path : String}
    {value : Value} :
    s.walkPath frame scope path = .ok (some value) ↔
      ∃ ids, Path.read? path = some ids ∧ s.walk frame scope ids = .ok (some value) := by
  unfold walkPath
  cases Path.read? path <;> simp

theorem walk_eq_some {s : Session} {frame : Option Frame} {scope : Nat} {id : PropertyId}
    {rest : List PropertyId} {value : Value} :
    s.walk frame scope (id :: rest) = .ok (some value) ↔
      ∃ root, s.lookupRoot frame scope id = .ok (some root) ∧
        follow s.heap root rest = .ok (some value) := by
  rw [walk, bind_eq_ok]
  constructor
  · rintro ⟨root, hroot, hrest⟩
    cases root with
    | none => cases hrest
    | some root => exact ⟨root, hroot, mapError_eq_ok.mp hrest⟩
  · rintro ⟨root, hroot, hrest⟩
    exact ⟨some root, hroot, mapError_eq_ok.mpr hrest⟩

theorem walk_append {s : Session} {frame : Option Frame} {scope : Nat} {first ids : List PropertyId}
    {middle value : Value} (hfirst : s.walk frame scope first = .ok (some middle)) :
    s.walk frame scope (first ++ ids) = .ok (some value) ↔
      follow s.heap middle ids = .ok (some value) := by
  cases first with
  | nil => cases hfirst
  | cons id first =>
      obtain ⟨root, hroot, hfirst⟩ := walk_eq_some.mp hfirst
      rw [List.cons_append, walk_eq_some]
      constructor
      · rintro ⟨root', hroot', hvalue⟩
        cases hroot.symm.trans hroot'
        rwa [follow_append hfirst] at hvalue
      · intro hvalue
        exact ⟨root, hroot, (follow_append hfirst).trans hvalue⟩

end Session

namespace Node

def face (n : Node) : TypeTag × String × String :=
  (n.type, n.className, n.text)

end Node

namespace Value

def face (l : Limits) (h : Heap) : Value → TypeTag × String × String
  | .scalar s => (TypeTag.ofScalar s, s.className, l.cut s.text)
  | .object id =>
      match (h.object id).label with
      | .ok (type, label) => (type, (h.object id).className, l.cut label)
      | .error e => (Node.ofFailure l "" "" (h.object id) e).face

/-- The members of a value can be listed and counted. -/
def IsListable (l : Limits) (h : Heap) : Value → Prop
  | .scalar _ => True
  | .object id =>
      (∃ members, h.expandedRule.children h l.maxChildren id = .ok members) ∧
        ∃ count, h.childCount l.maxChildren id = .ok count

end Value

namespace Node

theorem face_ofObject {l : Limits} {h : Heap} {id : ObjectId} (name path : String) (count : Nat)
    (children : List Node) :
    (ofObject l name path (h.object id) (.ok (count, children))).face =
      Value.face l h (.object id) := by
  simp only [ofObject, Value.face]
  cases (h.object id).label <;> rfl

theorem face_encode {l : Limits} {h : Heap} {value : Value} (hlistable : value.IsListable l h)
    (level : Nat) (expanded : Bool) (name path : String) :
    (encode l h level expanded name path value).face = value.face l h := by
  cases value with
  | scalar s =>
      rw [encode_scalar]
      rfl
  | object id =>
      obtain ⟨⟨members, hmembers⟩, count, hcount⟩ := hlistable
      cases expanded with
      | false =>
          rw [encode_lazy, hcount]
          exact face_ofObject name path _ _
      | true =>
          rw [encode_expanded, hmembers]
          exact face_ofObject name path _ _

end Node

end ScriptDebugger
