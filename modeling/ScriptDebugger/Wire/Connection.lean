import ScriptDebugger.Session.Dispatch
import ScriptDebugger.Wire.Decoder
import ScriptDebugger.Wire.Frame

namespace ScriptDebugger.Wire

def readSize : Nat := 4096

structure Connection where
  session : Session
  decoder : Decoder := {}

namespace Connection

/-- Connects a session to a client, who first hears what is debugged. -/
def attach (s : Session) (fileUri : String) : Connection :=
  { session := (s.announce fileUri).2 }

def deliver (s : Session) (line : String) : Session :=
  if s.closed then s else s.dispatch line

def receiveChunk (c : Connection) (chunk : List UInt8) : Connection :=
  match c.decoder.feed chunk with
  | (.ok lines, decoder) => { session := lines.foldl deliver c.session, decoder := decoder }
  | (.error _, decoder) => { session := c.session.close, decoder := decoder }

/-- Takes in bytes, as many at a time as are read at once, until the session closes. -/
def receive (c : Connection) (bytes : List UInt8) : Connection :=
  if c.session.closed then c
  else
    match _h : bytes with
    | [] => c
    | _ :: _ => (c.receiveChunk (bytes.take readSize)).receive (bytes.drop readSize)
termination_by bytes.length
decreasing_by
  simp only [_h, readSize, List.length_drop, List.length_cons]
  omega

def hangUp (c : Connection) : Connection :=
  { c with session := c.session.close }

def collect (c : Connection) : List (List UInt8) × Connection :=
  let (messages, session) := c.session.collect
  (messages.map fun m => frame m.render, { c with session := session })

end Connection

end ScriptDebugger.Wire
