import ScriptDebugger.Session.Breakpoints
import ScriptDebugger.Session.Control
import ScriptDebugger.Session.Inspect

namespace ScriptDebugger

abbrev Handler := Command → Action Unit

namespace Session

def handlers : Table String Handler :=
  [("feature_get", featureGetCommand), ("feature_set", featureSetCommand),
    ("stdin", stdinCommand), ("stdout", streamCommand .stdout),
    ("stderr", streamCommand .stderr), ("run", runCommand .none), ("stop", stopCommand),
    ("break", breakCommand), ("step_into", runCommand .into), ("step_over", runCommand .over),
    ("step_out", runCommand .out), ("breakpoint_get", breakpointGetCommand),
    ("breakpoint_set", breakpointSetCommand), ("breakpoint_remove", breakpointRemoveCommand),
    ("breakpoint_update", breakpointUpdateCommand), ("stack_depth", stackDepthCommand),
    ("stack_get", stackGetCommand), ("context_names", contextNamesCommand),
    ("context_get", contextGetCommand), ("property_get", propertyGetCommand),
    ("property_set", propertySetCommand), ("eval", evalCommand)]

def obey : Handler := fun c =>
  match handlers.get? c.name with
  | some handler => handler c
  | none => throw (.unknownCommand c.name)

def obeyLine (line : String) : Action Unit := do
  obey (← Command.parse line)

def dispatch (s : Session) (line : String) : Session :=
  ((obeyLine line).on s).2

def execute (s : Session) (c : Command) : Except Error Session :=
  let (result, after) := (obey c).on s
  result.map fun _ => after

def executeLine (s : Session) (line : String) : Except Error Session := do
  s.execute (← Command.parse line)

end Session

end ScriptDebugger
