import ScriptDebugger.Text.Blank
import ScriptDebugger.Text.Letter

namespace ScriptDebugger.Script

/-- Names of variables: a letter or underscore, then letters, numbers and underscores. -/
def isIdentifierChars : List Char → Bool
  | [] => false
  | c :: rest =>
      (c == '_' || Text.isLetter c) && rest.all fun c => c == '_' || Text.isLetterOrNumber c

def isIdentifier (name : String) : Bool :=
  isIdentifierChars name.toList

inductive Statement where
  | assign (name expression : String)
  | print (expression : String)
  | throw (className message : String)
  | nop
  deriving DecidableEq, Repr

namespace Statement

def trimmed (cs : List Char) : String :=
  String.ofList (Text.trimChars cs)

def splitAt (separator : Char) (cs : List Char) : List Char × Option (List Char) :=
  (cs.takeWhile (· != separator),
    match cs.dropWhile (· != separator) with
    | [] => none
    | _ :: rest => some rest)

def ofThrown (cs : List Char) : Statement :=
  let (className, message) := splitAt ':' cs
  .throw (trimmed className) (trimmed (message.getD []))

/-- An assignment; a line that is none does nothing. -/
def ofAssignment (cs : List Char) : Statement :=
  match splitAt '=' cs with
  | (name, some expression) =>
      if isIdentifierChars (Text.trimChars name) then .assign (trimmed name) (trimmed expression)
      else .nop
  | (_, none) => .nop

def ofChars : List Char → Statement
  | [] => .nop
  | '#' :: _ => .nop
  | '/' :: '/' :: _ => .nop
  | 'p' :: 'r' :: 'i' :: 'n' :: 't' :: ' ' :: rest => .print (trimmed rest)
  | 't' :: 'h' :: 'r' :: 'o' :: 'w' :: ' ' :: rest => ofThrown rest
  | cs => ofAssignment cs

def ofLine (line : String) : Statement :=
  ofChars (Text.trimChars line.toList)

end Statement

end ScriptDebugger.Script
