import ScriptDebugger.Breakpoint.Basic
import ScriptDebugger.Table

/-!
The registry of breakpoints.  Every breakpoint stands in one table under its id, and is found
through at most one index: by its location, by the name of the function called or left, or by
the property watched.  A new breakpoint at a key displaces the one that held it.
-/

namespace ScriptDebugger

structure SuspendFlags where
  onEntry : Bool := false
  onExit : Bool := false
  onException : Bool := false
  deriving DecidableEq, Repr

structure Registry where
  lastId : Breakpoint.Id := 0
  entries : Table Breakpoint.Id Breakpoint := []
  lines : Table Location Breakpoint.Id := []
  calls : Table String Breakpoint.Id := []
  leaves : Table String Breakpoint.Id := []
  watches : Table String (List Breakpoint.Id) := []
  flags : SuspendFlags := {}
  deriving DecidableEq, Repr

structure BreakpointUpdate where
  state : Option Breakpoint.State := none
  line : Option Nat := none
  hitValue : Option Nat := none
  hitCondition : Option HitCondition := none
  expression : Option String := none
  watchFlags : Option (Bool × Bool) := none
  deriving DecidableEq, Repr

namespace Registry

def empty : Registry := {}

def get? (r : Registry) (id : Breakpoint.Id) : Option Breakpoint :=
  r.entries.get? id

def list (r : Registry) : List Breakpoint :=
  r.entries.values

def size (r : Registry) : Nat :=
  r.entries.length

def isEmpty (r : Registry) : Bool :=
  r.entries.isEmpty

def hasExceptions (r : Registry) : Bool :=
  r.list.any fun b => b.kind == .exception

/-- Removes the breakpoint that an index entry pointed to before another one took its key. -/
def displace (r : Registry) (old : Option Breakpoint.Id) (id : Breakpoint.Id) : Registry :=
  match old with
  | some previous => if previous = id then r else { r with entries := r.entries.remove previous }
  | none => r

def index (r : Registry) (b : Breakpoint) : Registry :=
  match b.kind with
  | .line | .conditional =>
      { r with lines := r.lines.set b.location b.id }.displace (r.lines.get? b.location) b.id
  | .call =>
      match b.function with
      | some name => { r with calls := r.calls.set name b.id }.displace (r.calls.get? name) b.id
      | none => r
  | .leave =>
      match b.function with
      | some name =>
          { r with leaves := r.leaves.set name b.id }.displace (r.leaves.get? name) b.id
      | none => r
  | .watch =>
      match b.watched? with
      | some property =>
          let ids := (r.watches.get? property).getD []
          { r with watches := r.watches.set property (ids ++ [b.id]) }
      | none => r
  | .exception => { r with flags := { r.flags with onException := true } }

def unindexKey {κ : Type} [DecidableEq κ] (t : Table κ Breakpoint.Id) (key : κ)
    (id : Breakpoint.Id) : Table κ Breakpoint.Id :=
  if t.get? key = some id then t.remove key else t

/-- Takes a breakpoint out of its index.  With the last exception breakpoint the switch that
stops at exceptions goes off. -/
def unindex (r : Registry) (b : Breakpoint) : Registry :=
  match b.kind with
  | .line | .conditional => { r with lines := unindexKey r.lines b.location b.id }
  | .call =>
      match b.function with
      | some name => { r with calls := unindexKey r.calls name b.id }
      | none => r
  | .leave =>
      match b.function with
      | some name => { r with leaves := unindexKey r.leaves name b.id }
      | none => r
  | .watch =>
      match b.watched? with
      | some property =>
          match r.watches.get? property with
          | some ids =>
              let others := ids.filter (· ≠ b.id)
              if others.isEmpty then { r with watches := r.watches.remove property }
              else { r with watches := r.watches.set property others }
          | none => r
      | none => r
  | .exception =>
      if r.list.any fun other => other.kind == .exception && other.id != b.id then r
      else { r with flags := { r.flags with onException := false } }

def add (r : Registry) (b : Breakpoint) : Except Error (Breakpoint.Id × Registry) := do
  b.validate
  let id := r.lastId + 1
  let entry := { b with id := id, hitCount := 0 }
  let indexed := { r with lastId := id }.index entry
  return (id, { indexed with entries := indexed.entries.set id entry })

def remove (r : Registry) (id : Breakpoint.Id) : Except Error (Breakpoint × Registry) :=
  match r.get? id with
  | none => .error (.breakpointNotFound (Breakpoint.Id.text id))
  | some b => .ok (b, { r with entries := r.entries.remove id }.unindex b)

def moveLine (r : Registry) (b : Breakpoint) (line : Nat) : Breakpoint × Registry :=
  if r.lines.get? b.location = some b.id then
    let moved := { b with line := line }
    (moved, { r with lines := r.lines.remove b.location }.index moved)
  else (b, r)

/-- Gives a watchpoint another property; it then comes last among the watchers of it. -/
def moveWatch (r : Registry) (b : Breakpoint) (property : String) : Breakpoint × Registry :=
  if b.expression = some property then (b, r)
  else
    let moved := { b with expression := some property }
    (moved, (r.unindex b).index moved)

def withPolicy (b : Breakpoint) (u : BreakpointUpdate) : Except Error Breakpoint := do
  let candidate :=
    { b with
      hitValue := u.hitValue.getD b.hitValue
      hitCondition := u.hitCondition.or b.hitCondition }
  candidate.validate
  return { candidate with state := u.state.getD b.state }

def updateLine (r : Registry) (b : Breakpoint) (u : BreakpointUpdate) : Breakpoint × Registry :=
  match u.line with
  | some line => if b.kind.isLine then r.moveLine b line else (b, r)
  | none => (b, r)

def updateExpression (r : Registry) (b : Breakpoint) (u : BreakpointUpdate) :
    Breakpoint × Registry :=
  if b.kind = .watch then
    let flagged := match u.watchFlags with
      | some (access, modification) =>
          { b with onAccess := access, onModification := modification }
      | none => b
    match u.expression with
    | some property => r.moveWatch flagged property
    | none => (flagged, r)
  else ({ b with expression := u.expression.or b.expression }, r)

/-- Changes a breakpoint.  Nothing changes when the new hit policy is not valid. -/
def update (r : Registry) (id : Breakpoint.Id) (u : BreakpointUpdate) :
    Except Error (Breakpoint × Registry) :=
  match r.get? id with
  | none => .error (.breakpointNotFound (Breakpoint.Id.text id))
  | some b => do
      let b ← withPolicy b u
      let (b, r) := r.updateLine b u
      let (b, r) := r.updateExpression b u
      return (b, { r with entries := r.entries.set id b })

/-- Counts a hit of a breakpoint.  The breakpoint comes back if its policy lets it stop the
debuggee, and a temporary one is gone from then on. -/
def hitId (r : Registry) (id : Breakpoint.Id) : Option Breakpoint × Registry :=
  match r.get? id with
  | none => (none, r)
  | some b =>
      if b.isEnabled then
        let b := b.counted
        let r := { r with entries := r.entries.set id b }
        if b.policyMet then
          if b.temporary then
            let r := r.unindex b
            (some b, { r with entries := r.entries.remove id })
          else (some b, r)
        else (none, r)
      else (none, r)

def hit (r : Registry) : Option Breakpoint.Id → Option Breakpoint × Registry
  | some id => r.hitId id
  | none => (none, r)

def hitLine (r : Registry) (file : String) (line : Nat) : Option Breakpoint × Registry :=
  r.hit (r.lines.get? ⟨file, line⟩)

def hitCall (r : Registry) (name : String) : Option Breakpoint × Registry :=
  r.hit (r.calls.get? name)

def hitLeave (r : Registry) (name : String) : Option Breakpoint × Registry :=
  r.hit (r.leaves.get? name)

/-- The first enabled exception breakpoint that an exception concerns. -/
def exceptionFor? (r : Registry) (className : String) : Option Breakpoint.Id :=
  (r.list.find? fun b =>
    b.kind == .exception && b.isEnabled && b.matchesException className).map Breakpoint.id

def hitException (r : Registry) (className : String) : Option Breakpoint × Registry :=
  r.hit (r.exceptionFor? className)

/-- The watchpoints of a property, in the order in which they came to watch it. -/
def watchersOf (r : Registry) (property : String) : List Breakpoint :=
  ((r.watches.get? property).getD []).filterMap r.get?

def withFlags (r : Registry) (change : SuspendFlags → SuspendFlags) : Registry :=
  { r with flags := change r.flags }

/-- Drops all breakpoints and switches; ids go on counting. -/
def clear (r : Registry) : Registry :=
  { lastId := r.lastId }

end Registry

end ScriptDebugger
