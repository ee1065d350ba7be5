import ScriptDebugger.Error
import ScriptDebugger.Text.Blank
import ScriptDebugger.Text.Numeral

namespace ScriptDebugger

structure Location where
  file : String
  line : Nat
  deriving DecidableEq, Repr

def Location.text (l : Location) : String :=
  l.file ++ ":" ++ Text.numeral l.line

namespace Breakpoint

abbrev Id := Nat

def Id.text (id : Id) : String :=
  "p" ++ Text.numeral id

/-- Reads an id, with any number of letters `p` before its digits. -/
def Id.read (s : String) : Except Error Id :=
  match Text.readNumeral? Text.bound64 ((Text.trimChars s.toList).dropWhile (· == 'p')) with
  | some id => .ok id
  | none => .error (.breakpointNotFound s)

inductive Kind where
  | line
  | conditional
  | call
  | leave
  | exception
  | watch
  deriving DecidableEq, Repr

def Kind.text : Kind → String
  | line => "line"
  | conditional => "conditional"
  | call => "call"
  | leave => "return"
  | exception => "exception"
  | watch => "watch"

def Kind.all : List Kind :=
  [line, conditional, call, leave, exception, watch]

def Kind.isLine : Kind → Bool
  | line | conditional => true
  | _ => false

def Kind.read (s : String) : Except Error Kind :=
  let word := Text.trim s
  match Kind.all.find? fun kind => kind.text == word with
  | some kind => .ok kind
  | none => .error (.invalidOption "t" word)

inductive State where
  | enabled
  | disabled
  deriving DecidableEq, Repr

def State.text : State → String
  | enabled => "enabled"
  | disabled => "disabled"

def State.read (s : String) : Except Error State :=
  let word := Text.trim s
  if word = "enabled" then .ok enabled
  else if word = "disabled" then .ok disabled
  else .error (.invalidOption "s" word)

end Breakpoint

/-- How the count of hits decides, once there is a positive hit value. -/
inductive HitCondition where
  | atLeast
  | equal
  | multiple
  deriving DecidableEq, Repr

namespace HitCondition

def text : HitCondition → String
  | atLeast => ">="
  | equal => "=="
  | multiple => "%"

def read (s : String) : Except Error HitCondition :=
  let word := Text.trim s
  if word = ">=" then .ok atLeast
  else if word = "==" then .ok equal
  else if word = "%" then .ok multiple
  else .error (.invalidHitCondition word)

/-- Whether a count of hits meets the condition; a hit value of zero asks for nothing. -/
def isMet (condition : HitCondition) (hitValue hits : Nat) : Bool :=
  hitValue == 0 ||
    match condition with
    | atLeast => hitValue ≤ hits
    | equal => hits == hitValue
    | multiple => hits % hitValue == 0

@[simp] theorem isMet_zero (condition : HitCondition) (hits : Nat) :
    condition.isMet 0 hits = true := by
  simp [isMet]

end HitCondition

structure Breakpoint where
  id : Breakpoint.Id := 0
  kind : Breakpoint.Kind
  state : Breakpoint.State := .enabled
  file : String := ""
  line : Nat := 0
  function : Option String := none
  exception : Option String := none
  temporary : Bool := false
  hitValue : Nat := 0
  hitCondition : Option HitCondition := none
  hitCount : Nat := 0
  expression : Option String := none
  onAccess : Bool := false
  onModification : Bool := false
  deriving DecidableEq, Repr

namespace Breakpoint

def maxHits : Nat := 4294967295

def isEnabled (b : Breakpoint) : Bool :=
  b.state == .enabled

def location (b : Breakpoint) : Location :=
  ⟨b.file, b.line⟩

def watched? (b : Breakpoint) : Option String :=
  if b.kind = .watch then b.expression else none

def guard? (b : Breakpoint) : Option String :=
  if b.kind = .watch then none
  else b.expression.filter fun e => !(Text.trimChars e.toList).isEmpty

/-- A multiple of zero is no hit condition. -/
def validate (b : Breakpoint) : Except Error Unit :=
  if b.hitCondition = some .multiple ∧ b.hitValue = 0 then
    .error (.invalidHitCondition "%0")
  else .ok ()

def counted (b : Breakpoint) : Breakpoint :=
  { b with hitCount := min (b.hitCount + 1) maxHits }

/-- Whether the hit policy lets the present count stop the debuggee. -/
def policyMet (b : Breakpoint) : Bool :=
  match b.hitCondition with
  | some condition => condition.isMet b.hitValue b.hitCount
  | none => true

/-- Whether an exception of this class concerns an exception breakpoint. -/
def matchesException (b : Breakpoint) (className : String) : Bool :=
  match b.exception with
  | none => true
  | some expected => expected == "" || expected == "*" || expected == className

end Breakpoint

end ScriptDebugger
