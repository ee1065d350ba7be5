import ScriptDebugger.Session.Action
import ScriptDebugger.Session.Scope
import ScriptDebugger.Text.FileUri

namespace ScriptDebugger.Session

open ScriptDebugger.Action

def answerOutcome (s : Session) (c : Command) : Except Error Element → Session
  | .ok element => s.answer element
  | .error e => s.answer (c.errorAnswer e)

def stackDepthCommand (c : Command) : Action Unit := do
  let s ← get
  reply (c.answer.attr "depth" (Text.numeral s.frames.length))

def placeText (f : Frame) : String :=
  if f.function.isEmpty then "\x7bmain\x7d" else f.function

def frameElement (level : Nat) (f : Frame) : Element where
  tag := "stack"
  attributes :=
    [("level", Text.numeral level), ("type", "file"), ("filename", Text.toFileUri f.file),
      ("lineno", Text.numeral f.line), ("where", placeText f)]

def frameParts (level : Nat) : List Frame → List Part
  | [] => []
  | f :: rest => (frameElement level f).toPart :: frameParts (level + 1) rest

def stackAnswer (s : Session) (c : Command) : Option Nat → Except Error Element
  | none => .ok { c.answer with content := frameParts 0 s.frames }
  | some level =>
      match s.frames[level]? with
      | some f => .ok (c.answer.child (frameElement level f))
      | none => .error (.invalidStackDepth level)

def stackGetCommand (c : Command) : Action Unit := do
  let level ← c.number? "d" Text.bound64
  modify fun s => s.answerOutcome c (s.stackAnswer c level)

def scopeElement (name : String) (scope : Nat) : Element :=
  ((Element.ofTag "context").attr "name" name).attr "id" (Text.numeral scope)

def contextNamesCommand (c : Command) : Action Unit :=
  reply ((c.answer.child (scopeElement "Locals" localScope)).child
    (scopeElement "Globals" globalScope))

def listedNode (l : Limits) (h : Heap) (name : String) (value : Value) : Node :=
  Node.encode l h 1 (decide (1 < l.maxDepth)) name name value

/-- The node of a property of a scope; internal objects have none. -/
def scopeNode? (l : Limits) (h : Heap) (scope : ObjectId) (id : PropertyId) : Option Node :=
  match h.get scope id with
  | .error e => some (Node.ofReadError l id.text id.text e)
  | .ok value =>
      let shown := match value with
        | .object owner => !(h.object owner).internal
        | .scalar _ => true
      if shown then some (listedNode l h id.text value) else none

/-- The nodes of a scope; one that cannot be listed shows nothing. -/
def scopeNodes (l : Limits) (h : Heap) (scope : ObjectId) : List Node :=
  match (h.object scope).presentIds with
  | .ok ids => ids.filterMap (scopeNode? l h scope)
  | .error _ => []

def receiverNode (l : Limits) (h : Heap) (receiver : ObjectId) : Node :=
  listedNode l h "this" (.object receiver)

def listedScope (s : Session) (depth scope : Nat) :
    Except Error (Option ObjectId × Option ObjectId) :=
  if scope = localScope then do
    let frame ← s.frameAt depth
    return (frame.bind Frame.scope, frame.bind Frame.receiver)
  else if scope = globalScope then .ok (s.host.globals, none)
  else .error (.invalidContext scope)

def listNodes (s : Session) (depth scope : Nat) : Except Error (List Node) := do
  let (listed, receiver) ← s.listedScope depth scope
  let l := s.settings.limits
  return (listed.map (scopeNodes l s.heap)).getD []
    ++ (receiver.map (receiverNode l s.heap)).toList

def depthOf (c : Command) : Except Error Nat := do
  return (← c.number? "d" Text.bound64).getD 0

def scopeOf (c : Command) : Except Error Nat := do
  return (← c.number? "c" Text.bound64).getD localScope

def contextGetCommand (c : Command) : Action Unit := do
  let depth ← depthOf c
  let scope ← scopeOf c
  modify fun s => s.answerOutcome c do
    let nodes ← s.listNodes depth scope
    return { c.answer.attr "context" (Text.numeral scope) with content := Node.toParts nodes }

def rootNode (s : Session) (name : String) (value : Value) : Node :=
  Node.encode s.settings.limits s.heap 0 true name name value

def propertyGetCommand (c : Command) : Action Unit := do
  let path ← c.required "n"
  let depth ← depthOf c
  let scope ← scopeOf c
  modify fun s => s.answerOutcome c do
    let frame ← s.frameAt depth
    let value ← s.resolve frame scope path
    return c.answer.child (s.rootNode path value).toElement

def assignExpression (s : Session) (depth scope : Nat) (path expression : String) :
    Except Error Heap := do
  let frame ← s.frameAt depth
  let value ← s.evaluate expression frame
  s.assign frame scope path value

def propertySetCommand (c : Command) : Action Unit := do
  let path ← c.required "n"
  let depth ← depthOf c
  let scope ← scopeOf c
  let expression ← c.requiredData
  let s ← get
  let assigned := s.assignExpression depth scope path expression
  set { s with heap := assigned.toOption.getD s.heap }
  reply (c.answer.attr "success" (if assigned.isOk then "1" else "0"))

def evalCommand (c : Command) : Action Unit := do
  let depth ← depthOf c
  let expression ← c.requiredData
  modify fun s => s.answerOutcome c do
    let frame ← s.frameAt depth
    let value ← s.evaluate expression frame
    return c.answer.child (s.rootNode expression value).toElement

end ScriptDebugger.Session
