import ScriptDebugger.Property.Listed
import ScriptDebugger.Property.Node

namespace ScriptDebugger

structure Limits where
  maxDepth : Nat := 2
  maxChildren : Nat := 5000
  maxData : Nat := 0
  deriving DecidableEq, Repr

namespace Limits

def cut (l : Limits) (text : String) : String :=
  if 0 < l.maxData then String.ofList (text.toList.take l.maxData) else text

/-- The levels of children below a value at a level.  A value that is expanded at all shows its
own children, and each further level has to stay within the depth. -/
def levels (l : Limits) (level : Nat) (expanded : Bool) : Nat :=
  if expanded then max 1 (l.maxDepth - level) else 0

theorem levels_child (l : Limits) (level : Nat) :
    l.levels (level + 1) (decide (level + 1 < l.maxDepth)) = l.levels level true - 1 := by
  by_cases h : level + 1 < l.maxDepth
  · simp only [levels, h, decide_true, if_true]
    omega
  · simp only [levels, h, decide_false, Bool.false_eq_true, if_false, if_true]
    omega

end Limits

namespace HostError

def chainText (e : HostError) : String :=
  (e.toFault :: e.causes).foldl (fun text fault => text ++ fault.message ++ "\n") ""

def readingText (e : HostError) : String :=
  "<error reading property in debugger:\nException: " ++ e.className ++ ": " ++ e.message
    ++ "\n" ++ e.chainText ++ ">"

def printingText (e : HostError) (className display : String) : String :=
  "<error printing evaluated value in debugger:\nvalue class: " ++ className
    ++ "\nvalue.toString() is: " ++ display ++ "\n\nException: " ++ e.className ++ ": "
    ++ e.message ++ "\n" ++ e.chainText ++ ">"

end HostError

namespace Object

def label (o : Object) : Except HostError (TypeTag × String) :=
  match o.kind with
  | .object => .ok (.object, o.className)
  | .function => .ok (.function, o.className)
  | .array => .ok (.array, o.className)
  | .xml => o.display.map fun text => (.xml, text)
  | .hostInstance => o.display.map fun text => (.hostObject, text)
  | .hostString text => .ok (.hostObject, "JavaString \"" ++ text ++ "\"")
  | .hostArray => .ok (.hostArray, "Array")
  | .hostClass name => .ok (.hostClass, name)
  | .wrapper .null => .ok (.undefined, "Undefined")
  | .wrapper .array => .ok (.object, o.className)
  | .wrapper (.value s) => .ok (TypeTag.ofScalar s, s.text)

def failureText (o : Object) (e : HostError) : String :=
  let display := match o.display with
    | .ok text => text
    | .error _ => "[object " ++ o.className ++ "]"
  e.printingText o.className display

end Object

namespace Node

def ofScalar (l : Limits) (name path : String) (s : Scalar) : Node :=
  mk name path (TypeTag.ofScalar s) s.className (l.cut s.text) false 0 []

def ofReadError (l : Limits) (name path : String) (e : HostError) : Node :=
  ofScalar l name path (.string e.readingText)

def ofFailure (l : Limits) (name path : String) (o : Object) (e : HostError) : Node :=
  ofScalar l name path (.string (o.failureText e))

/-- The node of an object, given its children or else only their number. -/
def ofObject (l : Limits) (name path : String) (o : Object)
    (content : Except HostError (Nat × List Node)) : Node :=
  match o.label with
  | .error e => ofFailure l name path o e
  | .ok (type, label) =>
      match content with
      | .error e => ofFailure l name path o e
      | .ok (count, children) => mk name path type o.className (l.cut label) true count children

/-- The node of a value that stands at a level, with its children if it is expanded.  A child is
expanded while its level stays within the depth. -/
def encode (l : Limits) (h : Heap) (level : Nat) (expanded : Bool) (name path : String) :
    Value → Node
  | .scalar s => ofScalar l name path s
  | .object id =>
      ofObject l name path (h.object id) <|
        if _hexpanded : expanded then
          (h.expandedRule.children h l.maxChildren id).map fun members =>
            (members.length, members.map fun member =>
              encode l h (level + 1) (decide (level + 1 < l.maxDepth)) member.2.text
                (member.2.childPath path) (h.childValue member.1 member.2))
        else (h.childCount l.maxChildren id).map fun count => (count, [])
termination_by if expanded then l.maxDepth - level + 1 else 0
decreasing_by
  simp only [_hexpanded, if_true, decide_eq_true_eq]
  split
  · omega
  · omega

@[simp] theorem encode_scalar (l : Limits) (h : Heap) (level : Nat) (expanded : Bool)
    (name path : String) (s : Scalar) :
    encode l h level expanded name path (.scalar s) = ofScalar l name path s := by
  rw [encode]

theorem encode_lazy (l : Limits) (h : Heap) (level : Nat) (name path : String) (id : ObjectId) :
    encode l h level false name path (.object id) =
      ofObject l name path (h.object id)
        ((h.childCount l.maxChildren id).map fun count => (count, [])) := by
  rw [encode]
  rfl

theorem encode_expanded (l : Limits) (h : Heap) (level : Nat) (name path : String)
    (id : ObjectId) :
    encode l h level true name path (.object id) =
      ofObject l name path (h.object id)
        ((h.expandedRule.children h l.maxChildren id).map fun members =>
          (members.length, members.map fun member =>
            encode l h (level + 1) (decide (level + 1 < l.maxDepth)) member.2.text
              (member.2.childPath path) (h.childValue member.1 member.2))) := by
  rw [encode]
  rfl

end Node

end ScriptDebugger
