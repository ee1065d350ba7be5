import ScriptDebugger.Host
import ScriptDebugger.Number.Literal
import ScriptDebugger.Script.Statement
import ScriptDebugger.Text.Lines
import ScriptDebugger.Text.Utf8

namespace ScriptDebugger

structure Script where
  path : String
  lines : List String
  deriving DecidableEq, Repr

namespace Script

def ofBytes? (path : String) (bytes : List UInt8) : Option Script :=
  (Text.Utf8.decode? bytes).map fun cs => { path := path, lines := Text.lines (String.ofList cs) }

/-- The statements of a script with the numbers of their lines, which count from one. -/
def statementsFrom (line : Nat) : List String → List (Nat × Statement)
  | [] => []
  | source :: rest =>
      match Statement.ofLine source with
      | .nop => statementsFrom (line + 1) rest
      | statement => (line, statement) :: statementsFrom (line + 1) rest

def statements (s : Script) : List (Nat × Statement) :=
  statementsFrom 1 s.lines

def slotsFrom (index : Nat) : List String → List (PropertyId × Value)
  | [] => []
  | line :: rest => (.index (.ofNat index), .string line) :: slotsFrom (index + 1) rest

/-- The array of the lines of a script, which cannot be changed. -/
def lineArray (lines : List String) : Object :=
  let slots := slotsFrom 0 lines
  { kind := .array
    className := "Array"
    slots := slots ++ [(.name "length", .number (Number.ofNat lines.length))]
    listing := some (.ok (slots.map Prod.fst))
    readOnly := some { className := "TypeError", message := "script lines are read-only" }
    display := .ok (",".intercalate lines) }

structure Scopes where
  globals : ObjectId
  locals : ObjectId
  deriving DecidableEq, Repr

def install (s : Script) (h : Heap) : Scopes × Heap :=
  let (lines, h) := h.create (lineArray s.lines)
  let (info, h) := h.create
    { slots := [(.name "file", .string s.path), (.name "lines", .object lines)] }
  let (globals, h) := h.create { slots := [(.name "script", .object info)] }
  let (locals, h) := h.create {}
  (⟨globals, locals⟩, h)

def quotedText? : List Char → Option String
  | '"' :: rest => if rest.getLast? = some '"' then some (String.ofList rest.dropLast) else none
  | _ => none

def literal? (cs : List Char) : Option Value :=
  match Number.readLiteral? cs with
  | some number => some (.number number)
  | none =>
      match quotedText? cs with
      | some text => some (.string text)
      | none =>
          match String.ofList cs with
          | "true" => some (.scalar (.boolean true))
          | "false" => some (.scalar (.boolean false))
          | "null" => some (.scalar .null)
          | "undefined" => some (.scalar .undefined)
          | _ => none

def unsupported (expression : String) : HostError :=
  { className := "SyntaxError", message := "unsupported expression: " ++ expression }

/-- The value of an expression, blanks around it aside, in a frame. -/
def evaluate (globals : ObjectId) (h : Heap) (expression : String) (frame : Option Frame) :
    Except HostError Value :=
  let cs := Text.trimChars expression.toList
  match literal? cs with
  | some value => .ok value
  | none =>
      let name := String.ofList cs
      if isIdentifierChars cs then do
        match ← Host.lookup h (.name name) (Host.scopes (some globals) frame) with
        | some value => return value
        | none => throw (Host.notDefined name)
      else .error (unsupported name)

def host (scopes : Scopes) : Host where
  globals := some scopes.globals
  evaluate := evaluate scopes.globals

end Script

end ScriptDebugger
