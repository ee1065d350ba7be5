import ScriptDebugger.Property.Encode

namespace ScriptDebugger

structure Settings where
  language : String := "javascript"
  protocolVersion : String := "1.0"
  idekey : String := ""
  appId : String := ""
  maxDepth : Nat := 2
  maxChildren : Nat := 5000
  maxData : Nat := 0
  /-- The number of commands that may be worked on at the same time. -/
  workerLimit : Nat := 16
  deriving DecidableEq, Repr

def Settings.limits (s : Settings) : Limits :=
  { maxDepth := s.maxDepth, maxChildren := s.maxChildren, maxData := s.maxData }

end ScriptDebugger
