import ScriptDebugger.Proofs.Property.Enumeration
import ScriptDebugger.Proofs.Property.Members

/-!
The number of children that an object declares before it is expanded.  Counting goes along the chain
of prototypes as an expansion does, and keeps nothing but a number and the ids seen.  Where every
object of the chain lists all its ids and hides none of them, counting and expanding meet the same
members, stop at the same limit and fail with the same error.
-/

namespace ScriptDebugger

structure Tally where
  count : Nat := 0
  seen : List PropertyId := []

namespace Object

/-- The object lists all its ids, and hides none that it lists. -/
structure Overt (o : Object) : Prop where
  allIds : o.allIds = o.ids
  shown : ∀ {ids}, o.presentIds = .ok ids → ∀ id ∈ ids, o.isHidden id = false

theorem Overt.expandedIds {o : Object} (h : o.Overt) : Heap.expandedIds o = o.presentIds := by
  unfold Heap.expandedIds presentIds
  cases o.realised with
  | some ids => rfl
  | none =>
      cases o.kind with
      | object | function => exact h.allIds
      | _ => rfl

end Object

namespace Heap

def tallyIds (h : Heap) (limit : Nat) (first : Bool) (owner : ObjectId) :
    List PropertyId → Tally → Tally × Bool
  | [], tally => (tally, false)
  | id :: rest, tally =>
      if limit ≤ tally.count then (tally, true)
      else if tally.seen.contains id then h.tallyIds limit first owner rest tally
      else if h.isListed first (h.childValue owner id) then
        h.tallyIds limit first owner rest ⟨tally.count + 1, id :: tally.seen⟩
      else h.tallyIds limit first owner rest ⟨tally.count, id :: tally.seen⟩

def tallyChain (h : Heap) (limit : Nat) (first : Bool) :
    List ObjectId → Tally → Except HostError Tally
  | [], tally => .ok tally
  | owner :: rest, tally => do
      let ids ← (h.object owner).presentIds
      match h.tallyIds limit first owner ids tally with
      | (tally, true) => return tally
      | (tally, false) => h.tallyChain limit false rest tally

/-- Counts the children of an object without a list of them. -/
def tally (h : Heap) (limit : Nat) (id : ObjectId) : Except HostError Nat :=
  (h.tallyChain limit true (h.chain maxPrototypeLevels id) {}).map Tally.count

end Heap

namespace ChildRule

variable {rule : ChildRule} {h : Heap} {limit : Nat}

def Found.tally (found : Found) : Tally :=
  ⟨found.members.length, found.seen⟩

structure Counts (rule : ChildRule) (h : Heap) (owner : ObjectId) : Prop where
  ids : rule.ids (h.object owner) = (h.object owner).presentIds
  shows : ∀ {ids}, (h.object owner).presentIds = .ok ids → ∀ id ∈ ids, ∀ first,
    rule.shows first owner id = h.isListed first (h.childValue owner id)

theorem countedRule_counts (h : Heap) (owner : ObjectId) : h.countedRule.Counts h owner where
  ids := rfl
  shows _ _ _ _ := rfl

theorem expandedRule_counts {owner : ObjectId} (hovert : (h.object owner).Overt) :
    h.expandedRule.Counts h owner where
  ids := hovert.expandedIds
  shows := by
    intro ids hids id hid first
    change (h.isListed first (h.childValue owner id) && !(h.object owner).isHidden id) = _
    rw [hovert.shown hids id hid, Bool.not_false, Bool.and_true]

/-- A count of the ids of an object goes the way of a scan.  The room that is left is what the
number of members lacks to the limit, so both stop before the same id. -/
theorem tallyIds_eq_scan {found : Found} (hfound : found.Sound limit) {first : Bool}
    {owner : ObjectId} {ids : List PropertyId}
    (hshows : ∀ id ∈ ids, rule.shows first owner id = h.isListed first (h.childValue owner id)) :
    h.tallyIds limit first owner ids found.tally =
      ((rule.scan first owner ids found).1.tally, (rule.scan first owner ids found).2) := by
  induction ids generalizing found with
  | nil => rfl
  | cons id rest ih =>
      obtain ⟨hid, hrest⟩ := List.forall_mem_cons.mp hshows
      have hlimit := hfound.room
      unfold Heap.tallyIds scan
      split
      · rename_i hfull
        have hroom : found.room = 0 := by
          change limit ≤ found.members.length at hfull
          omega
        rw [hroom]
      · rename_i hfits
        obtain ⟨room, hroom⟩ : ∃ room, found.room = room + 1 := by
          refine ⟨found.room - 1, ?_⟩
          change ¬ limit ≤ found.members.length at hfits
          omega
        rw [hroom]
        dsimp only
        rw [show found.tally.seen = found.seen from rfl, ← hid]
        split
        · exact ih hfound hrest
        · rename_i hnew
          split
          · exact ih (hfound.take hroom owner (by simpa using hnew)) hrest
          · have hpass := ih (hfound.pass id) hrest
            rw [hroom] at hpass
            exact hpass

theorem tallyChain_eq_collect {found : Found} (hfound : found.Sound limit) (first : Bool)
    {owners : List ObjectId} (hcounts : ∀ owner ∈ owners, rule.Counts h owner) :
    h.tallyChain limit first owners found.tally =
      (rule.collect h first owners found).map Found.tally := by
  induction owners generalizing first found with
  | nil => rfl
  | cons owner rest ih =>
      obtain ⟨hcount, hrest⟩ := List.forall_mem_cons.mp hcounts
      rw [Heap.tallyChain, collect, hcount.ids]
      cases hids : (h.object owner).presentIds with
      | error e => rfl
      | ok ids =>
          have hscan := hfound.scan rule first owner ids
          have hsame := tallyIds_eq_scan hfound fun id hid => hcount.shows hids id hid first
          simp only [bind, Except.bind, hsame]
          generalize rule.scan first owner ids found = scanned at hscan
          obtain ⟨middle, full⟩ := scanned
          cases full with
          | true => rfl
          | false => exact ih hscan false hrest

theorem length_children_eq_tally {id : ObjectId}
    (hcounts : ∀ owner ∈ h.chain maxPrototypeLevels id, rule.Counts h owner) :
    (rule.children h limit id).map List.length = h.tally limit id := by
  have hchain := tallyChain_eq_collect (Found.Sound.start limit) true hcounts
  rw [Heap.tally, show ({} : Tally) = Found.tally { room := limit } from rfl, hchain, children]
  cases rule.collect h true (h.chain maxPrototypeLevels id) { room := limit } with
  | error e => rfl
  | ok found => exact congrArg Except.ok (List.length_reverse)

end ChildRule

theorem Heap.childCount_eq_tally (h : Heap) (limit : Nat) (id : ObjectId) :
    h.childCount limit id = h.tally limit id := by
  rw [← ChildRule.length_children_eq_tally fun owner _ => ChildRule.countedRule_counts h owner]
  rfl

namespace Node

theorem length_expand (l : Limits) (h : Heap) (level : Nat) (path : String) {id : ObjectId}
    (hovert : ∀ owner ∈ h.chain maxPrototypeLevels id, (h.object owner).Overt) :
    (expand l h level path id).map List.length = h.childCount l.maxChildren id := by
  have hcounts : ∀ owner ∈ h.chain maxPrototypeLevels id, h.expandedRule.Counts h owner :=
    fun owner howner => ChildRule.expandedRule_counts (hovert owner howner)
  rw [h.childCount_eq_tally, ← ChildRule.length_children_eq_tally hcounts, expand]
  cases h.expandedRule.children h l.maxChildren id with
  | error e => rfl
  | ok members => exact congrArg Except.ok (List.length_map _)

/-- Where every object of the chain lists all its ids and hides none, the count of an object's
children is the number of those that an expansion sends, at whatever level and path, and both fail
with the same error.  So a node that was left lazy declares as many children as the client gets when
it asks for the object itself. -/
theorem childCount_agrees_with_expand (l : Limits) (h : Heap) {id : ObjectId}
    (hovert : ∀ owner ∈ h.chain maxPrototypeLevels id, (h.object owner).Overt) :
    (∀ level path n, h.childCount l.maxChildren id = .ok n ↔
      ∃ children, expand l h level path id = .ok children ∧ children.length = n) ∧
    (∀ level path e, h.childCount l.maxChildren id = .error e ↔
      expand l h level path id = .error e) ∧
    ∀ level name path level' name' path',
      (encode l h level false name path (.object id)).childCount =
        (encode l h level' true name' path' (.object id)).children.length := by
  refine ⟨?_, ?_, ?_⟩
  · intro level path n
    rw [← length_expand l h level path hovert]
    exact map_eq_ok
  · intro level path e
    rw [← length_expand l h level path hovert]
    cases expand l h level path id with
    | error other =>
        constructor
        · rintro ⟨⟩
          rfl
        · rintro ⟨⟩
          rfl
    | ok children => exact ⟨nofun, nofun⟩
  · intro level name path level' name' path'
    rw [encode_object, encode_object, content, content,
      ← length_expand l h level' path' hovert, ofObject, ofObject]
    cases (h.object id).label with
    | error e => rfl
    | ok shown =>
        cases expand l h level' path' id with
        | error e => rfl
        | ok children => rfl

def brokenPrototype : Heap where
  objects :=
    [{ slots := [(.name "native", .object 2), (.name "a", .object 0), (.name "b", .string "text")]
       prototype := some 1 },
      { listing := some (.error { className := "Error", message := "no ids" })
        prototype := some 0 },
      { kind := .function, internal := true }]

theorem childCount_agrees_with_expand_brokenPrototype :
    (∀ owner ∈ brokenPrototype.chain maxPrototypeLevels 0,
      (brokenPrototype.object owner).Overt) ∧
    (∃ children, expand { maxChildren := 1 } brokenPrototype 0 "o" 0 = .ok children ∧
      children.length = 1) ∧
    (encode { maxChildren := 1 } brokenPrototype 2 false "a" "o.a" (.object 0)).childCount = 1 ∧
    expand { maxChildren := 2 } brokenPrototype 0 "o" 0 =
      .error { className := "Error", message := "no ids" } := by
  have hchain : ∀ owner ∈ brokenPrototype.chain maxPrototypeLevels 0, owner = 0 ∨ owner = 1 := by
    decide +kernel
  have hovert : ∀ owner ∈ brokenPrototype.chain maxPrototypeLevels 0,
      (brokenPrototype.object owner).Overt := by
    intro owner howner
    rcases hchain owner howner with rfl | rfl
    · exact ⟨rfl, fun _ _ _ => rfl⟩
    · exact ⟨rfl, fun _ _ _ => rfl⟩
  obtain ⟨hlimited, -, hlazy⟩ :=
    childCount_agrees_with_expand { maxChildren := 1 } brokenPrototype hovert
  obtain ⟨-, hfailing, -⟩ :=
    childCount_agrees_with_expand { maxChildren := 2 } brokenPrototype hovert
  obtain ⟨children, hexpand, hlength⟩ := (hlimited 0 "o" 1).mp (by rfl)
  refine ⟨hovert, ⟨children, hexpand, hlength⟩, ?_, (hfailing 0 "o" _).mp (by rfl)⟩
  rw [hlazy 2 "a" "o.a" 0 "o" "o", encode_object, content, hexpand]
  exact hlength

end Node

end ScriptDebugger
