import ScriptDebugger.Breakpoint.Basic
import ScriptDebugger.Heap

namespace ScriptDebugger

/-- A call of a function; top-level code has no function name. -/
structure Frame where
  file : String
  line : Nat
  function : String := ""
  scope : Option ObjectId := none
  receiver : Option ObjectId := none
  deriving DecidableEq, Repr

def Frame.location (f : Frame) : Location :=
  ⟨f.file, f.line⟩

structure Host where
  globals : Option ObjectId := none
  evaluate : Heap → String → Option Frame → Except HostError Value

namespace Host

/-- Looks a name up in scopes, innermost first; the first scope that has it answers. -/
def lookup (h : Heap) (id : PropertyId) : List ObjectId → Except HostError (Option Value)
  | [] => .ok none
  | scope :: outer => do
      let value ← h.get scope id
      if value.isFound then return some value else lookup h id outer

def scopes (globals : Option ObjectId) (frame : Option Frame) : List ObjectId :=
  (frame.bind Frame.scope).toList ++ globals.toList

def notDefined (name : String) : HostError :=
  { className := "ReferenceError", message := name ++ " is not defined" }

def describeFrame : Option Frame → String
  | some f => f.location.text ++ ":" ++ f.function
  | none => "none"

/-- A host without an interpreter: it knows the values of given expressions, describes the
frame for `$frame`, and takes anything else for a name. -/
def ofTable (globals : Option ObjectId)
    (expressions : List (String × Except HostError Value)) : Host where
  globals := globals
  evaluate h expression frame :=
    if expression = "$frame" then .ok (.string (describeFrame frame))
    else
      match expressions.lookup expression with
      | some outcome => outcome
      | none => do
          match ← lookup h (.name expression) (scopes globals frame) with
          | some value => return value
          | none => throw (notDefined expression)

end Host

end ScriptDebugger
