import ScriptDebugger.Session.Action

namespace ScriptDebugger.Session

open ScriptDebugger.Action

/-- Lets the debuggee run; the transaction of the command is the one that hears of it. -/
def runCommand (mode : StepMode) (c : Command) : Action Unit := do
  modify fun s => s.adopt c.transaction?
  modify fun s => s.resume mode

def flagText (value : Bool) : String :=
  if value then "1" else "0"

def flag? : String → Option Bool
  | "1" | "true" => some true
  | "0" | "false" => some false
  | _ => none

def breakCommand (c : Command) : Action Unit := do
  let requested ← modifyGet requestBreak
  reply (c.answer.attr "success" (flagText requested))

/-- The pending transaction hears of the end before the command is answered. -/
def stopCommand (c : Command) : Action Unit := do
  modify reportEnd
  reply ((c.answer.attr "status" RunStatus.stopped.text).attr "reason" "ok")
  modify close

def feature? (s : Session) : String → Option String
  | "language_name" => some s.settings.language
  | "language_supports_threads" => some "0"
  | "protocol_version" => some s.settings.protocolVersion
  | "encoding" => some "UTF-8"
  | "data_encoding" => some "base64"
  | "supports_async" => some "1"
  | "multiple_sessions" => some "0"
  | "breakpoint_types" => some (" ".intercalate (Breakpoint.Kind.all.map Breakpoint.Kind.text))
  | "max_depth" => some (Text.numeral s.settings.maxDepth)
  | "max_children" => some (Text.numeral s.settings.maxChildren)
  | "max_data" => some (Text.numeral s.settings.maxData)
  | "suspend_on_entry" => some (flagText s.registry.flags.onEntry)
  | "suspend_on_exit" => some (flagText s.registry.flags.onExit)
  | "suspend_on_exception" => some (flagText s.registry.flags.onException)
  | _ => none

def withLimit (settings : Settings) (value : Nat) : String → Option Settings
  | "max_depth" => some { settings with maxDepth := value }
  | "max_children" => some { settings with maxChildren := value }
  | "max_data" => some { settings with maxData := value }
  | _ => none

def withSwitch (flags : SuspendFlags) (value : Bool) : String → Option SuspendFlags
  | "suspend_on_entry" => some { flags with onEntry := value }
  | "suspend_on_exit" => some { flags with onExit := value }
  | "suspend_on_exception" => some { flags with onException := value }
  | _ => none

def setLimit? (s : Session) (name value : String) : Option Session := do
  let number ← Text.readNumeral? Text.bound64 value.toList
  let settings ← withLimit s.settings number name
  return { s with settings := settings }

def setSwitch? (s : Session) (name value : String) : Option Session := do
  let on ← flag? value
  let flags ← withSwitch s.registry.flags on name
  return { s with registry := s.registry.withFlags fun _ => flags }

def setFeature? (s : Session) (name value : String) : Option Session :=
  (s.setLimit? name value).or (s.setSwitch? name value)

def featureGetCommand (c : Command) : Action Unit := do
  let name ← c.required "n"
  let s ← get
  let answer := c.answer.attr "feature_name" name
  reply <| match s.feature? name with
    | some value => (answer.attr "supported" "1").text value
    | none => answer.attr "supported" "0"

def featureSetCommand (c : Command) : Action Unit := do
  let name ← c.required "n"
  let value ← c.required "v"
  let s ← get
  let changed := s.setFeature? name (Text.trim value)
  set (changed.getD s)
  reply ((c.answer.attr "feature" name).attr "success" (flagText changed.isSome))

/-- Chooses where output of a stream goes; without a choice it is copied. -/
def streamCommand (stream : Stream) (c : Command) : Action Unit := do
  let mode ← c.read? "c" fun value => (StreamMode.read value).toOption
  modify fun s => { s with streams := s.streams.setMode (mode.getD .copy) stream }
  reply (c.answer.attr "success" "1")

def stdinCommand (c : Command) : Action Unit := do
  modify fun s => { s with streams := { s.streams with stdinRedirected := c.isSet "c" } }
  reply (c.answer.attr "success" "1")

end ScriptDebugger.Session
