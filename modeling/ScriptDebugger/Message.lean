import ScriptDebugger.Markup
import ScriptDebugger.Settings
import ScriptDebugger.Stream

namespace ScriptDebugger

inductive RunStatus where
  /-- It goes on, but a later request has taken over. -/
  | running
  | break
  | stopped
  deriving DecidableEq, Repr

def RunStatus.text : RunStatus → String
  | running => "running"
  | .break => "break"
  | stopped => "stopped"

inductive Message where
  | init (settings : Settings) (fileUri : String)
  | status (outcome : RunStatus) (transaction : String) (reason : Option String)
  | answer (element : Element)
  | output (stream : Stream) (text : String)
  deriving Repr

namespace Message

def toElement : Message → Element
  | init settings fileUri =>
      { tag := "init"
        attributes :=
          [("appid", settings.appId), ("idekey", settings.idekey), ("session", settings.idekey),
            ("thread", "main"), ("parent", ""), ("language", settings.language),
            ("protocol_version", settings.protocolVersion), ("fileuri", fileUri)] }
  | status outcome transaction reason =>
      let e := ((Element.response "run" (some transaction)).attr "status" outcome.text).attr
        "reason" "ok"
      match reason with
      | some text => e.payload text
      | none => e
  | answer element => element
  | output stream text => ((Element.ofTag "stream").attr "type" stream.text).payload text

def render (m : Message) : String :=
  m.toElement.render

def reported? : Message → Option String
  | status _ transaction _ => some transaction
  | _ => none

end Message

end ScriptDebugger
