import ScriptDebugger.Error
import ScriptDebugger.Text.Blank

namespace ScriptDebugger

inductive Stream where
  | stdout
  | stderr
  deriving DecidableEq, Repr

def Stream.text : Stream → String
  | stdout => "stdout"
  | stderr => "stderr"

inductive StreamMode where
  /-- Output is printed locally only. -/
  | disable
  | copy
  | redirect
  deriving DecidableEq, Repr

namespace StreamMode

def read (s : String) : Except Error StreamMode :=
  let word := Text.trim s
  if word = "0" then .ok disable
  else if word = "1" then .ok copy
  else if word = "2" then .ok redirect
  else .error (.invalidOption "c" word)

def isSent : StreamMode → Bool
  | disable => false
  | copy | redirect => true

def isPrinted : StreamMode → Bool
  | disable | copy => true
  | redirect => false

end StreamMode

structure StreamModes where
  stdout : StreamMode := .copy
  stderr : StreamMode := .copy
  stdinRedirected : Bool := false
  deriving DecidableEq, Repr

namespace StreamModes

def mode (m : StreamModes) : Stream → StreamMode
  | .stdout => m.stdout
  | .stderr => m.stderr

def setMode (m : StreamModes) (mode : StreamMode) : Stream → StreamModes
  | .stdout => { m with stdout := mode }
  | .stderr => { m with stderr := mode }

end StreamModes

end ScriptDebugger
