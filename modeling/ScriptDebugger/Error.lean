import ScriptDebugger.Text.Numeral

namespace ScriptDebugger

structure Fault where
  className : String
  message : String
  deriving DecidableEq, Repr

/-- A failure raised by the host, with its chain of causes, the nearest first. -/
structure HostError extends Fault where
  causes : List Fault := []
  deriving DecidableEq, Repr

inductive Error where
  | malformedCommand (line : String)
  | commandTooLong (limit : Nat)
  | invalidBase64
  | invalidUtf8
  | unknownCommand (name : String)
  | missingOption (key : String)
  | invalidOption (key value : String)
  | breakpointNotFound (id : String)
  | invalidHitCondition (text : String)
  | invalidStackDepth (depth : Nat)
  | invalidContext (context : Nat)
  | propertyNotFound (path : String)
  | host (error : HostError)
  | terminated
  deriving DecidableEq, Repr

namespace Error

def message : Error → String
  | malformedCommand line => "Protocol error: Malformed command: " ++ line
  | commandTooLong limit =>
      "Protocol error: Command exceeds " ++ Text.numeral limit ++ " bytes without terminator"
  | invalidBase64 => "Protocol error: Invalid base64 payload"
  | invalidUtf8 => "Protocol error: Invalid UTF-8 in payload"
  | unknownCommand name => "Unknown command: " ++ name
  | missingOption key => "Missing option -" ++ key
  | invalidOption key value => "Invalid value for option -" ++ key ++ ": " ++ value
  | breakpointNotFound id => "Breakpoint not found: " ++ id
  | invalidHitCondition text => "Invalid hit condition: " ++ text
  | invalidStackDepth depth => "Stack depth " ++ Text.numeral depth ++ " out of range"
  | invalidContext context => "Unknown context " ++ Text.numeral context
  | propertyNotFound path => "Property not found: " ++ path
  | host error => "Host error: " ++ error.message
  | terminated => "Debug session terminated"

def code : Error → Nat
  | malformedCommand _ | commandTooLong _ | invalidBase64 | invalidUtf8 => 1
  | missingOption _ | invalidOption _ _ => 3
  | unknownCommand _ => 4
  | invalidHitCondition _ => 200
  | breakpointNotFound _ => 205
  | host _ => 206
  | propertyNotFound _ => 300
  | invalidStackDepth _ => 301
  | invalidContext _ => 302
  | terminated => 999

end Error

instance decidableEqExcept {ε α : Type} [DecidableEq ε] [DecidableEq α] : DecidableEq (Except ε α)
  | .ok value, .ok other => decidable_of_iff (value = other) (by simp)
  | .error e, .error other => decidable_of_iff (e = other) (by simp)
  | .ok _, .error _ => isFalse nofun
  | .error _, .ok _ => isFalse nofun

theorem bind_eq_ok {ε α β : Type} {first : Except ε α} {next : α → Except ε β} {result : β} :
    (first >>= next) = .ok result ↔ ∃ value, first = .ok value ∧ next value = .ok result := by
  cases first with
  | error e => simp [bind, Except.bind]
  | ok value => simp [bind, Except.bind]

theorem map_eq_ok {ε α β : Type} {outcome : Except ε α} {f : α → β} {result : β} :
    outcome.map f = .ok result ↔ ∃ value, outcome = .ok value ∧ f value = result := by
  cases outcome with
  | error e => simp [Except.map]
  | ok value => simp [Except.map]

theorem eq_ok_of_toOption {ε α : Type} {outcome : Except ε α} {result : α}
    (h : outcome.toOption = some result) : outcome = .ok result := by
  cases outcome with
  | error e => cases h
  | ok value => exact congrArg Except.ok (Option.some.inj h)

theorem mapError_eq_ok {ε ε' α : Type} {outcome : Except ε α} {f : ε → ε'} {result : α} :
    outcome.mapError f = .ok result ↔ outcome = .ok result := by
  cases outcome with
  | error e =>
      constructor
      · intro h
        cases h
      · intro h
        cases h
  | ok value =>
      change (.ok value : Except ε' α) = .ok result ↔ _
      rw [Except.ok.injEq, Except.ok.injEq]

end ScriptDebugger
