import ScriptDebugger.Error
import ScriptDebugger.Text.Base64
import ScriptDebugger.Text.Blank
import ScriptDebugger.Text.Utf8

namespace ScriptDebugger.Payload

def encodeChars (cs : List Char) : List Char :=
  Text.Base64.encode (Text.Utf8.encode cs)

def encode (text : String) : String :=
  String.ofList (encodeChars text.toList)

def decode (payload : String) : Except Error String :=
  match Text.Base64.decode? (Text.trimChars payload.toList) with
  | none => .error .invalidBase64
  | some bytes =>
      match Text.Utf8.decode? bytes with
      | none => .error .invalidUtf8
      | some cs => .ok (String.ofList cs)

theorem encodeChars_eq_nil_iff {cs : List Char} : encodeChars cs = [] ↔ cs = [] := by
  rw [encodeChars, Text.Base64.encode_eq_nil_iff, Text.Utf8.encode_eq_nil_iff]

end ScriptDebugger.Payload
