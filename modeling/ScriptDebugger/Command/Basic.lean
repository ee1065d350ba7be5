import ScriptDebugger.Command.Argument
import ScriptDebugger.Markup
import ScriptDebugger.Table

namespace ScriptDebugger

structure Command where
  name : String
  /-- The options, latest first; of two with the same key, only the later one counts. -/
  options : Table String String := []
  data : Option String := none
  deriving DecidableEq, Repr

namespace Command

/-- Takes in an argument; of two for the same key, and of two payloads, the later one counts. -/
def take (c : Command) : Argument → Command
  | .option key value =>
      { c with options := (String.ofList key, String.ofList value) :: c.options }
  | .data payload => { c with data := some (String.ofList (Text.trimChars payload)) }

def parse (line : String) : Except Error Command :=
  let text := Text.trimChars line.toList
  let name := text.takeWhile (· != ' ')
  if name.isEmpty || name.head? == some '-' then
    .error (.malformedCommand (String.ofList text))
  else
    .ok ((Argument.list (text.dropWhile (· != ' '))).foldl take { name := String.ofList name })

def option? (c : Command) (key : String) : Option String :=
  c.options.get? key

def transaction? (c : Command) : Option String :=
  c.option? "i"

def required (c : Command) (key : String) : Except Error String :=
  match c.option? key with
  | some value => .ok value
  | none => .error (.missingOption key)

/-- Reads the value of an option, blanks around it aside.  An error shows the whole value. -/
def read? {α : Type} (c : Command) (key : String) (reader : String → Option α) :
    Except Error (Option α) :=
  match c.option? key with
  | none => .ok none
  | some value =>
      match reader (Text.trim value) with
      | some result => .ok (some result)
      | none => .error (.invalidOption key value)

def number? (c : Command) (key : String) (bound : Nat) : Except Error (Option Nat) :=
  c.read? key fun value => Text.readNumeral? bound value.toList

def isSet (c : Command) (key : String) : Bool :=
  match c.option? key with
  | some value => Text.trim value == "1"
  | none => false

def decodedData? (c : Command) : Except Error (Option String) :=
  match c.data with
  | none => .ok none
  | some payload => (Payload.decode payload).map some

def requiredData (c : Command) : Except Error String := do
  match ← c.decodedData? with
  | some text => return text
  | none => throw (.missingOption "-")

def answer (c : Command) : Element :=
  Element.response c.name c.transaction?

def errorAnswer (c : Command) (e : Error) : Element :=
  Element.errorResponse c.name c.transaction? e.code e.message

end Command

end ScriptDebugger
