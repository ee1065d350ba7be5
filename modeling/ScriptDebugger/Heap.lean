import ScriptDebugger.Error
import ScriptDebugger.Value

/-!
The heap of the debuggee as the host shows it.  An object has slots for its properties, says
which of them it lists, and may refuse to be listed, read, written or displayed.  References
between objects, and prototype links, may form cycles.
-/

namespace ScriptDebugger

inductive Wrapped where
  | null
  | array
  | value (s : Scalar)
  deriving DecidableEq, Repr

inductive ObjectKind where
  | object
  | function
  | array
  | xml
  | hostInstance
  | hostString (text : String)
  | hostArray
  | hostClass (name : String)
  | wrapper (content : Wrapped)
  deriving DecidableEq, Repr

abbrev Listing := Except HostError (List PropertyId)

structure Object where
  kind : ObjectKind := .object
  className : String := "Object"
  slots : List (PropertyId × Value) := []
  /-- The ids that the object lists, when these are not those of its slots. -/
  listing : Option Listing := none
  fullListing : Option Listing := none
  /-- For a scope that is filled as it is used: the ids realised so far. -/
  realised : Option Listing := none
  unreadable : List (PropertyId × HostError) := []
  readOnly : Option HostError := none
  prototype : Option ObjectId := none
  display : Except HostError String := .ok "[object Object]"
  internal : Bool := false
  hidden : List PropertyId := []
  deriving Repr

namespace Object

def ids (o : Object) : Listing :=
  o.listing.getD (.ok (o.slots.map Prod.fst))

def allIds (o : Object) : Listing :=
  o.fullListing.getD o.ids

def presentIds (o : Object) : Listing :=
  o.realised.getD o.ids

def isHidden (o : Object) (id : PropertyId) : Bool :=
  o.hidden.contains id

/-- Reads a property; one that is not there reads as not found. -/
def get (o : Object) (id : PropertyId) : Except HostError Value :=
  match o.unreadable.lookup id with
  | some error => .error error
  | none => .ok ((o.slots.lookup id).getD .notFound)

/-- The slots after a write: the first slot of the id takes the value, or a new one does. -/
def writeSlot : List (PropertyId × Value) → PropertyId → Value → List (PropertyId × Value)
  | [], id, value => [(id, value)]
  | slot :: rest, id, value =>
      if slot.1 = id then (id, value) :: rest else slot :: writeSlot rest id value

def set (o : Object) (id : PropertyId) (value : Value) : Except HostError Object :=
  match o.readOnly with
  | some error => .error error
  | none => .ok { o with slots := writeSlot o.slots id value }

end Object

/-- The objects of the debuggee; an identity is a position. -/
structure Heap where
  objects : List Object := []
  deriving Repr

namespace Heap

/-- The object of an identity; an identity that was never given out is an empty object. -/
def object (h : Heap) (id : ObjectId) : Object :=
  h.objects[id]?.getD {}

def create (h : Heap) (o : Object) : ObjectId × Heap :=
  (h.objects.length, { h with objects := h.objects ++ [o] })

def get (h : Heap) (owner : ObjectId) (id : PropertyId) : Except HostError Value :=
  (h.object owner).get id

def set (h : Heap) (owner : ObjectId) (id : PropertyId) (value : Value) :
    Except HostError Heap := do
  let o ← (h.object owner).set id value
  return { h with objects := h.objects.set owner o }

/-- The value of a property as a child shows it; one that cannot be read shows as null. -/
def childValue (h : Heap) (owner : ObjectId) (id : PropertyId) : Value :=
  match h.get owner id with
  | .ok value => value
  | .error _ => .scalar .null

def chain (h : Heap) : Nat → ObjectId → List ObjectId
  | 0, _ => []
  | count + 1, id =>
      match (h.object id).prototype with
      | some parent => id :: chain h count parent
      | none => [id]

def displayText (h : Heap) : Value → String
  | .scalar s => s.text
  | .object id =>
      match (h.object id).display with
      | .ok text => text
      | .error error => "<" ++ error.message ++ ">"

end Heap

end ScriptDebugger
