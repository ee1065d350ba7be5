import ScriptDebugger.Session.Action
import ScriptDebugger.Text.FileUri

namespace ScriptDebugger.Session

open ScriptDebugger.Action

structure WatchTarget where
  property : String
  onAccess : Bool
  onModification : Bool
  deriving DecidableEq, Repr

namespace WatchTarget

def read (expression : String) : Except Error WatchTarget :=
  match expression.toList.reverse with
  | modification :: access :: c :: before =>
      .ok
        { property := String.ofList (Text.trimChars (c :: before).reverse)
          onAccess := access == '1'
          onModification := modification == '1' }
  | _ => .error (.invalidOption "-" expression)

def text (w : WatchTarget) : String :=
  w.property ++ (if w.onAccess then "1" else "0") ++ (if w.onModification then "1" else "0")

end WatchTarget

/-- The breakpoint with the hit policy that a command asks for; a hit value alone is one that has
to be reached. -/
def readHitPolicy (c : Command) (b : Breakpoint) : Except Error Breakpoint := do
  let hitValue := (← c.number? "h" Text.bound32).getD 0
  let condition ← c.read? "o" fun value => (HitCondition.read value).toOption
  let condition := if 0 < hitValue then condition.or (some .atLeast) else condition
  return { b with hitValue := hitValue, hitCondition := condition }

/-- The breakpoint with the expression that a command carries.  A watchpoint needs one. -/
def readExpression (c : Command) (b : Breakpoint) : Except Error Breakpoint := do
  match ← c.decodedData? with
  | some expression =>
      if b.kind = .watch then
        let target ← WatchTarget.read expression
        return { b with
          expression := some target.property
          onAccess := target.onAccess
          onModification := target.onModification }
      else return { b with expression := some expression }
  | none => if b.kind = .watch then throw (.missingOption "-") else return b

def readBreakpoint (c : Command) : Except Error Breakpoint := do
  let kind ← c.read? "t" fun value => (Breakpoint.Kind.read value).toOption
  let state ← c.read? "s" fun value => (Breakpoint.State.read value).toOption
  let line ← c.number? "n" Text.bound32
  let b : Breakpoint :=
    { kind := kind.getD .line
      state := state.getD .enabled
      file := ((c.option? "f").map Text.stripFileUri).getD ""
      line := line.getD 0
      function := (c.option? "m").map Text.trim
      exception := (c.option? "x").map Text.trim
      temporary := c.isSet "r" }
  readExpression c (← readHitPolicy c b)

def readUpdate (c : Command) (kind : Breakpoint.Kind) : Except Error BreakpointUpdate := do
  let state ← c.read? "s" fun value => (Breakpoint.State.read value).toOption
  let line ← c.number? "n" Text.bound32
  let hitValue ← c.number? "h" Text.bound32
  let condition ← c.read? "o" fun value => (HitCondition.read value).toOption
  let u : BreakpointUpdate :=
    { state := state, line := line, hitValue := hitValue, hitCondition := condition }
  match ← c.decodedData? with
  | none => return u
  | some expression =>
      if kind = .watch then
        let target ← WatchTarget.read expression
        return { u with
          expression := some target.property
          watchFlags := some (target.onAccess, target.onModification) }
      else return { u with expression := some expression }

def optionalAttribute (name : String) : Option String → List Attribute
  | some value => [(name, value)]
  | none => []

def expressionText (b : Breakpoint) (expression : String) : String :=
  if b.kind = .watch then WatchTarget.text ⟨expression, b.onAccess, b.onModification⟩
  else expression

def breakpointElement (b : Breakpoint) : Element where
  tag := "breakpoint"
  attributes :=
    [("id", Breakpoint.Id.text b.id), ("type", b.kind.text), ("state", b.state.text)]
      ++ (if b.file.isEmpty then []
        else [("filename", Text.toFileUri b.file), ("lineno", Text.numeral b.line)])
      ++ optionalAttribute "function" b.function
      ++ optionalAttribute "exception" b.exception
      ++ [("hit_value", Text.numeral b.hitValue),
        ("hit_condition", (b.hitCondition.getD .atLeast).text),
        ("hit_count", Text.numeral b.hitCount), ("temporary", if b.temporary then "1" else "0")]
  content :=
    match b.expression with
    | some expression =>
        [((Element.ofTag "expression").payload (expressionText b expression)).toPart]
    | none => []

def targetId (c : Command) : Except Error Breakpoint.Id := do
  Breakpoint.Id.read (← c.required "d")

def breakpointSetCommand (c : Command) : Action Unit := do
  let b ← readBreakpoint c
  replyResult c do
    let id ← changeBreakpoints fun registry => registry.add b
    return (c.answer.attr "id" (Breakpoint.Id.text id)).attr "state" b.state.text

def breakpointGetCommand (c : Command) : Action Unit :=
  replyResult c do
    let id ← targetId c
    let s ← get
    match s.registry.get? id with
    | some b => return c.answer.child (breakpointElement b)
    | none => throw (.breakpointNotFound (Breakpoint.Id.text id))

def breakpointUpdateCommand (c : Command) : Action Unit :=
  replyResult c do
    let id ← targetId c
    let s ← get
    match s.registry.get? id with
    | some b =>
        let u ← readUpdate c b.kind
        let _ ← changeBreakpoints fun registry => registry.update id u
        return c.answer.attr "success" "1"
    | none => throw (.breakpointNotFound (Breakpoint.Id.text id))

def breakpointRemoveCommand (c : Command) : Action Unit :=
  replyResult c do
    let id ← targetId c
    let _ ← changeBreakpoints fun registry => registry.remove id
    return c.answer.attr "success" "1"

end ScriptDebugger.Session
