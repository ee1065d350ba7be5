import ScriptDebugger.Json.Basic
import ScriptDebugger.Settings
import ScriptDebugger.Text.Utf8

namespace ScriptDebugger.Settings

inductive FileError where
  | unreadable
  | invalid
  deriving DecidableEq, Repr

def FileError.message : FileError → String
  | unreadable => "Failed to read config file"
  | invalid => "Invalid config file"

def names : List String :=
  ["language", "protocol_version", "idekey", "app_id", "max_depth", "max_children", "max_data",
    "worker_limit"]

def text? : Json → Option String
  | .string text => text
  | _ => none

def count? : Json → Option Nat
  | .number count => count.filter (· < Text.bound64)
  | _ => none

def set? (s : Settings) (name : String) (value : Json) : Option Settings :=
  match name with
  | "language" => (text? value).map fun text => { s with language := text }
  | "protocol_version" => (text? value).map fun text => { s with protocolVersion := text }
  | "idekey" => (text? value).map fun text => { s with idekey := text }
  | "app_id" => (text? value).map fun text => { s with appId := text }
  | "max_depth" => (count? value).map fun count => { s with maxDepth := count }
  | "max_children" => (count? value).map fun count => { s with maxChildren := count }
  | "max_data" => (count? value).map fun count => { s with maxData := count }
  | "worker_limit" => (count? value).map fun count => { s with workerLimit := count }
  | _ => some s

/-- Sets members in turn.  A setting comes once at most. -/
def setMembers? (s : Settings) (seen : List String) :
    List (Option String × Json) → Option Settings
  | [] => some s
  | (none, _) :: _ => none
  | (some name, value) :: rest =>
      if names.contains name && seen.contains name then none
      else
        match s.set? name value with
        | some changed => setMembers? changed (name :: seen) rest
        | none => none

/-- Sets what is declared next from the items of an array, which may end early. -/
def setItems? (s : Settings) : List String → List Json → Option Settings
  | _, [] => some s
  | [], _ :: _ => none
  | name :: names, value :: rest =>
      match s.set? name value with
      | some changed => setItems? changed names rest
      | none => none

def ofJson? (defaults : Settings) : Json → Option Settings
  | .object members => defaults.setMembers? [] members
  | .array items => defaults.setItems? names items
  | _ => none

def ofFile (defaults : Settings) (bytes : Option (List UInt8)) : Except FileError Settings :=
  match bytes.bind Text.Utf8.decode? with
  | none => .error .unreadable
  | some cs =>
      match (Json.read? (String.ofList cs)).bind defaults.ofJson? with
      | some settings => .ok settings
      | none => .error .invalid

end ScriptDebugger.Settings
