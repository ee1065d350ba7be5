import ScriptDebugger.CommandLine
import ScriptDebugger.Debuggee

namespace ScriptDebugger.Console

def appId : String := "script-debugger"

def readFile? (path : String) : IO (Option (List UInt8)) := do
  let .ok bytes ← (IO.FS.readBinFile path).toBaseIO | return none
  return some bytes.toList

def readScript? (path : String) : IO (Option Script) := do
  let some bytes ← readFile? path | return none
  let .ok resolved ← (IO.FS.realPath path).toBaseIO | return none
  return Script.ofBytes? resolved.toString bytes

def deliver (d : Debuggee) : IO Debuggee := do
  let (frames, d) := d.collectFrames
  let (texts, d) := d.collectPrinted
  let output ← IO.getStdout
  for frame in frames do
    output.write (ByteArray.mk frame.toArray)
  output.flush
  for text in texts do
    IO.eprint text
  return d

partial def serve (d : Debuggee) : IO Unit := do
  let d ← deliver d
  if d.session.closed then return
  let bytes ← (← IO.getStdin).read 1
  if bytes.isEmpty then discard (deliver d.hangUp) else serve (d.serve bytes.toList)

def fail (message : String) : IO UInt32 := do
  IO.eprintln message
  return 1

def run (i : CommandLine.Invocation) : IO UInt32 := do
  let file ← match i.config with
    | some path => readFile? path
    | none => pure none
  match i.settings { appId := appId } file with
  | .error e => fail e.message
  | .ok settings =>
      let some script ← readScript? i.script | fail "Failed to read script"
      IO.eprintln ("Debugging " ++ script.path ++ " for " ++ i.host ++ ":" ++ Text.numeral i.port)
      serve (Debuggee.launch settings script)
      return 0

end ScriptDebugger.Console

def main (arguments : List String) : IO UInt32 := do
  match ScriptDebugger.CommandLine.Invocation.read arguments with
  | .ok i => ScriptDebugger.Console.run i
  | .error fault =>
      if fault.isRequest then
        IO.println fault.message
        return 0
      else
        IO.eprintln fault.message
        return 2
