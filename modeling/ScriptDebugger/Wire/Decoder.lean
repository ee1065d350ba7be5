import ScriptDebugger.Error
import ScriptDebugger.Text.Utf8

/-!
Command lines out of incoming bytes.  Any control byte ends a line, and an empty line is no
command.  The bytes of an unfinished line are kept for the next chunk, up to a limit.
-/

namespace ScriptDebugger.Wire

def maxCommandSize : Nat := 1048576

def isTerminator (byte : UInt8) : Bool :=
  byte < 0x20

structure Decoder where
  pending : Array UInt8 := #[]
  deriving DecidableEq, Repr

namespace Decoder

def line (d : Decoder) : String :=
  String.ofList (Text.Utf8.decodeLossy d.pending.toList)

/-- Takes in bytes after lines found before, latest first.  When a line grows too long, it and
the lines found are lost. -/
def feedAfter (found : List String) (d : Decoder) :
    List UInt8 → Except Error (List String) × Decoder
  | [] => (.ok found.reverse, d)
  | byte :: rest =>
      if isTerminator byte then
        if d.pending.isEmpty then feedAfter found d rest
        else feedAfter (d.line :: found) {} rest
      else if d.pending.size < maxCommandSize then
        feedAfter found { pending := d.pending.push byte } rest
      else (.error (.commandTooLong maxCommandSize), {})

def feed (d : Decoder) (chunk : List UInt8) : Except Error (List String) × Decoder :=
  feedAfter [] d chunk

end Decoder

end ScriptDebugger.Wire
