import ScriptDebugger.Heap

/-!
Which properties an object shows as its children.  The object comes first, then its prototypes;
an id that was seen before is passed over, whether it was shown or not, and so are members of
the wrong kind.  The list ends when the limit is reached.
-/

namespace ScriptDebugger

/-- Levels of prototypes that are looked at before a chain counts as cyclic. -/
def maxPrototypeLevels : Nat := 64

/-- The way a list of children is made: the ids that an object contributes, and which of its
members are shown, depending on whether the object comes first. -/
structure ChildRule where
  ids : Object → Listing
  shows : Bool → ObjectId → PropertyId → Bool

abbrev Member := ObjectId × PropertyId

namespace ChildRule

/-- Members found so far, latest first, with the ids already seen and the room that is left. -/
structure Found where
  members : List Member := []
  seen : List PropertyId := []
  room : Nat
  deriving DecidableEq, Repr

/-- Goes through the ids of one object.  The second part says whether the room ran out before
an id. -/
def scan (rule : ChildRule) (first : Bool) (owner : ObjectId) :
    List PropertyId → Found → Found × Bool
  | [], found => (found, false)
  | id :: rest, found =>
      match found.room with
      | 0 => (found, true)
      | room + 1 =>
          if found.seen.contains id then rule.scan first owner rest found
          else if rule.shows first owner id then
            rule.scan first owner rest
              { members := (owner, id) :: found.members, seen := id :: found.seen, room := room }
          else
            rule.scan first owner rest { found with seen := id :: found.seen }

def collect (rule : ChildRule) (h : Heap) (first : Bool) :
    List ObjectId → Found → Except HostError Found
  | [], found => .ok found
  | owner :: rest, found => do
      let ids ← rule.ids (h.object owner)
      match rule.scan first owner ids found with
      | (found, true) => return found
      | (found, false) => rule.collect h false rest found

def children (rule : ChildRule) (h : Heap) (limit : Nat) (id : ObjectId) :
    Except HostError (List Member) := do
  let found ← rule.collect h true (h.chain maxPrototypeLevels id) { room := limit }
  return found.members.reverse

end ChildRule

namespace Heap

/-- Whether a value is shown as a child: internal objects never are, plain functions only on
the object's own level. -/
def isListed (h : Heap) (first : Bool) : Value → Bool
  | .scalar _ => true
  | .object id =>
      let o := h.object id
      !o.internal && (first || o.kind != .function)

/-- The ids of an object that is expanded: all of them for plain objects and functions. -/
def expandedIds (o : Object) : Listing :=
  match o.realised with
  | some ids => ids
  | none =>
      match o.kind with
      | .object | .function => o.allIds
      | _ => o.ids

def expandedRule (h : Heap) : ChildRule where
  ids := expandedIds
  shows first owner id :=
    h.isListed first (h.childValue owner id) && !(h.object owner).isHidden id

def countedRule (h : Heap) : ChildRule where
  ids := Object.presentIds
  shows first owner id := h.isListed first (h.childValue owner id)

def childCount (h : Heap) (limit : Nat) (id : ObjectId) : Except HostError Nat := do
  let members ← h.countedRule.children h limit id
  return members.length

end Heap

end ScriptDebugger
