import ScriptDebugger.Settings.Stored
import ScriptDebugger.Text.Numeral

namespace ScriptDebugger.CommandLine

inductive Fault where
  | missingScript
  | unknownArgument
  | missingValue
  | excessValue
  | malformedNumber
  | repeatedOption
  | helpRequested
  | versionRequested
  deriving DecidableEq, Repr

namespace Fault

def message : Fault → String
  | missingScript => "the script to run is missing"
  | unknownArgument => "an argument is not known"
  | missingValue => "an option has no value"
  | excessValue => "an option takes no value"
  | malformedNumber => "a number cannot be read"
  | repeatedOption => "an option is given twice"
  | helpRequested =>
      "usage: script-debugger [--host HOST] [--port PORT] [--idekey KEY] [--max-depth LEVELS] "
        ++ "[--config FILE] SCRIPT"
  | versionRequested => "script-debugger 0.1.0"

def isRequest : Fault → Bool
  | helpRequested | versionRequested => true
  | _ => false

end Fault

inductive Slot where
  | host
  | port
  | idekey
  | maxDepth
  | config
  | script
  deriving DecidableEq, Repr

def Slot.ofName? : String → Option Slot
  | "host" => some host
  | "port" => some port
  | "idekey" => some idekey
  | "max-depth" => some maxDepth
  | "config" => some config
  | _ => none

structure Arguments where
  host : Option String := none
  port : Option Nat := none
  idekey : Option String := none
  maxDepth : Option Nat := none
  config : Option String := none
  script : Option String := none
  deriving DecidableEq, Repr

namespace Arguments

def has (a : Arguments) : Slot → Bool
  | .host => a.host.isSome
  | .port => a.port.isSome
  | .idekey => a.idekey.isSome
  | .maxDepth => a.maxDepth.isSome
  | .config => a.config.isSome
  | .script => a.script.isSome

def readPort (value : String) : Except Fault Nat :=
  let number := match value.toList with
    | '-' :: rest => (Text.readDigits? rest).filter (· == 0)
    | cs => Text.readNumeral? Text.bound16 cs
  match number with
  | some port => .ok port
  | none => .error .malformedNumber

def readCount (value : String) : Except Fault Nat :=
  match Text.readNumeral? Text.bound64 value.toList with
  | some count => .ok count
  | none => .error .malformedNumber

def readPath (value : String) : Except Fault String :=
  if value.isEmpty then .error .missingValue else .ok value

def set (a : Arguments) (slot : Slot) (value : String) : Except Fault Arguments := do
  if a.has slot then throw .repeatedOption
  match slot with
  | .host => return { a with host := some value }
  | .port => return { a with port := some (← readPort value) }
  | .idekey => return { a with idekey := some value }
  | .maxDepth => return { a with maxDepth := some (← readCount value) }
  | .config => return { a with config := some (← readPath value) }
  | .script => return { a with script := some (← readPath value) }

end Arguments

structure Progress where
  arguments : Arguments := {}
  open? : Option (Slot × Option String) := none
  scriptSeen : Bool := false
  deriving DecidableEq, Repr

namespace Progress

def settle (p : Progress) : Except Fault Progress :=
  match p.open? with
  | none => .ok p
  | some (_, none) => .error .missingValue
  | some (slot, some value) => do
      return { p with arguments := ← p.arguments.set slot value, open? := none }

def takePlain (p : Progress) (argument : String) : Except Fault Progress :=
  if p.scriptSeen then .error .unknownArgument
  else do
    let p ← p.settle
    return { p with open? := some (.script, some argument), scriptSeen := true }

def takeLong (p : Progress) (name : String) (value : Option String) : Except Fault Progress :=
  match Slot.ofName? name with
  | some slot => do
      let p ← p.settle
      match value with
      | some value => return { p with arguments := ← p.arguments.set slot value }
      | none => return { p with open? := some (slot, none) }
  | none =>
      if name = "help" ∨ name = "version" then
        if value.isSome then .error .excessValue
        else do
          let _ ← p.settle
          throw (if name = "help" then .helpRequested else .versionRequested)
      else .error .unknownArgument

/-- Takes options by their short names, of which the first one decides. -/
def takeShort (p : Progress) (name : Char) : Except Fault Progress :=
  if name = 'h' ∨ name = 'V' then do
    let _ ← p.settle
    throw (if name = 'h' then .helpRequested else .versionRequested)
  else .error .unknownArgument

/-- Takes an argument that no option looks like: the value of the option named last, or else
the script. -/
def takeValue (p : Progress) (argument : String) : Except Fault Progress :=
  match p.open? with
  | some (slot, none) => .ok { p with open? := some (slot, some argument) }
  | _ => p.takePlain argument

def splitName (cs : List Char) : String × Option String :=
  (String.ofList (cs.takeWhile (· != '=')),
    match cs.dropWhile (· != '=') with
    | [] => none
    | _ :: value => some (String.ofList value))

def take (p : Progress) (argument : String) : Except Fault Progress :=
  match argument.toList with
  | '-' :: '-' :: rest =>
      let (name, value) := splitName rest
      p.takeLong name value
  | '-' :: name :: _ => p.takeShort name
  | _ => p.takeValue argument

/-- Takes all arguments; `plain` says whether there are no more options. -/
def takeAll (p : Progress) (plain : Bool) : List String → Except Fault Progress
  | [] => p.settle
  | argument :: rest =>
      if plain then do (← p.takePlain argument).takeAll true rest
      else if argument = "--" then p.takeAll true rest
      else do (← p.take argument).takeAll false rest

end Progress

structure Invocation where
  host : String
  port : Nat
  idekey : Option String
  maxDepth : Option Nat
  config : Option String
  script : String
  deriving DecidableEq, Repr

namespace Invocation

def read (arguments : List String) : Except Fault Invocation := do
  let a := (← ({ } : Progress).takeAll false arguments).arguments
  match a.script with
  | none => throw .missingScript
  | some script =>
      return {
        host := a.host.getD "127.0.0.1"
        port := a.port.getD 9000
        idekey := a.idekey
        maxDepth := a.maxDepth
        config := a.config
        script := script }

/-- The settings of an invocation: those of the command line come before those of the file, which
come before the defaults.  The bytes of the file are absent if it cannot be read. -/
def settings (i : Invocation) (defaults : Settings) (file : Option (List UInt8)) :
    Except Settings.FileError Settings := do
  let stored ← match i.config with
    | some _ => defaults.ofFile file
    | none => .ok defaults
  return { stored with
    idekey := i.idekey.getD stored.idekey
    maxDepth := i.maxDepth.getD stored.maxDepth }

end Invocation

end ScriptDebugger.CommandLine
