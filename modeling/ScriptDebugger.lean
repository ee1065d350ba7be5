import ScriptDebugger.Main
import ScriptDebugger.Proofs.Session.ClientView
import ScriptDebugger.Proofs.Session.RunRequest
import ScriptDebugger.Proofs.Session.WatchMemory
import ScriptDebugger.Proofs.Script.Faithful
import ScriptDebugger.Proofs.Markup.Reading
import ScriptDebugger.Proofs.Property.Bounds
import ScriptDebugger.Proofs.Session.Addresses
import ScriptDebugger.Proofs.Wire.Chunks
import ScriptDebugger.Proofs.Session.Answer
import ScriptDebugger.Proofs.Session.Closed
import ScriptDebugger.Proofs.Session.Replies
import ScriptDebugger.Proofs.Session.Nesting
import ScriptDebugger.Proofs.Session.Requests
import ScriptDebugger.Proofs.Session.Limits
import ScriptDebugger.Proofs.Registry.Disabled
import ScriptDebugger.Proofs.Session.Breakpoints
import ScriptDebugger.Proofs.Session.Disabled
import ScriptDebugger.Proofs.Registry.HitCount
import ScriptDebugger.Proofs.Wire.Frames
import ScriptDebugger.Proofs.Property.Enumeration
import ScriptDebugger.Proofs.Session.Stepping
import ScriptDebugger.Proofs.Property.Count
import ScriptDebugger.Proofs.Registry.Exceptions
import ScriptDebugger.Proofs.Session.Guards
import ScriptDebugger.Proofs.Session.Temporary
import ScriptDebugger.Proofs.Registry.Temporary
import ScriptDebugger.Proofs.Session.HitPolicy
import ScriptDebugger.Proofs.Session.UpdateAnswers
import ScriptDebugger.Proofs.Command.Scan
import ScriptDebugger.Proofs.Session.Assignment
import ScriptDebugger.Proofs.Session.AssignedSlot
import ScriptDebugger.Proofs.Session.FailedReads
import ScriptDebugger.Proofs.Session.ShownLocation
import ScriptDebugger.Proofs.Session.ShownExpression
import ScriptDebugger.Proofs.Session.Listeners
import ScriptDebugger.Proofs.Session.BreakRequest
import ScriptDebugger.Proofs.Session.Monitor
import ScriptDebugger.Proofs.Script.Variables
