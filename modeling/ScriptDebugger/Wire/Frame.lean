import ScriptDebugger.Text.Numeral
import ScriptDebugger.Text.Utf8

namespace ScriptDebugger.Wire

def frameBytes (body : List UInt8) : List UInt8 :=
  Text.Utf8.encode (Text.digits body.length) ++ 0 :: body ++ [0]

def frame (body : String) : List UInt8 :=
  frameBytes (Text.Utf8.encode body.toList)

end ScriptDebugger.Wire
