import ScriptDebugger.Property.Path
import ScriptDebugger.Session.Basic

namespace ScriptDebugger.Session

def localScope : Nat := 0

def globalScope : Nat := 1

/-- The frame at a depth.  While nothing executes there is none, and only depth zero is
right. -/
def frameAt (s : Session) (depth : Nat) : Except Error (Option Frame) :=
  if s.frames.isEmpty && depth == 0 then .ok none
  else
    match s.frames[depth]? with
    | some frame => .ok (some frame)
    | none => .error (.invalidStackDepth depth)

def rootScopes (s : Session) (frame : Option Frame) (scope : Nat) :
    Except Error (List ObjectId) :=
  if scope = localScope then .ok (Host.scopes s.host.globals frame)
  else if scope = globalScope then .ok (Host.scopes s.host.globals none)
  else .error (.invalidContext scope)

def evaluate (s : Session) (expression : String) (frame : Option Frame) : Except Error Value :=
  (s.host.evaluate s.heap expression frame).mapError .host

def receiver? (frame : Option Frame) (id : PropertyId) : Option ObjectId :=
  if id = .name "this" then frame.bind Frame.receiver else none

/-- The value that the first id of a path stands for. -/
def lookupRoot (s : Session) (frame : Option Frame) (scope : Nat) (id : PropertyId) :
    Except Error (Option Value) :=
  match receiver? frame id with
  | some receiver => .ok (some (.object receiver))
  | none => do
      let scopes ← s.rootScopes frame scope
      (Host.lookup s.heap id scopes).mapError .host

def follow (h : Heap) (value : Value) : List PropertyId → Except HostError (Option Value)
  | [] => .ok (some value)
  | id :: rest =>
      match value with
      | .scalar _ => .ok none
      | .object owner => do
          let next ← h.get owner id
          if next.isFound then follow h next rest else return none

def walk (s : Session) (frame : Option Frame) (scope : Nat) :
    List PropertyId → Except Error (Option Value)
  | [] => .ok none
  | first :: rest => do
      match ← s.lookupRoot frame scope first with
      | none => return none
      | some value => (follow s.heap value rest).mapError .host

/-- The value of a path, or else of the expression that it may be. -/
def resolve (s : Session) (frame : Option Frame) (scope : Nat) (path : String) :
    Except Error Value := do
  let found ← match Path.read? path with
    | some ids => s.walk frame scope ids
    | none => .ok none
  match found with
  | some value => return value
  | none =>
      match s.host.evaluate s.heap path frame with
      | .ok value => return value
      | .error _ => throw (.propertyNotFound path)

def ownerAmong (h : Heap) (id : PropertyId) : List ObjectId → Except HostError (Option ObjectId)
  | [] => .ok none
  | scope :: outer => do
      let value ← h.get scope id
      if value.isFound then return some scope else ownerAmong h id outer

/-- The object that a path assigns to, and the property of it.  A name that no scope has belongs
to the innermost one. -/
def target (s : Session) (frame : Option Frame) (scope : Nat) (path : String) :
    Except Error (ObjectId × PropertyId) := do
  let missing := Error.propertyNotFound path
  match (Path.read? path).map List.reverse with
  | none | some [] => throw missing
  | some [id] =>
      let scopes ← s.rootScopes frame scope
      let owner ← (ownerAmong s.heap id scopes).mapError Error.host
      match owner.or scopes.head? with
      | some owner => return (owner, id)
      | none => throw missing
  | some (id :: parents) =>
      match ← s.walk frame scope parents.reverse with
      | some (.object owner) => return (owner, id)
      | _ => throw missing

def assign (s : Session) (frame : Option Frame) (scope : Nat) (path : String) (value : Value) :
    Except Error Heap := do
  let (owner, id) ← s.target frame scope path
  (s.heap.set owner id value).mapError .host

end ScriptDebugger.Session
