import ScriptDebugger.Text.Blank
import ScriptDebugger.Text.Letter
import ScriptDebugger.Value

namespace ScriptDebugger.Path

def isNameChar (c : Char) : Bool :=
  c == '_' || c == '$' || Text.isLetterOrNumber c

def isQuote (c : Char) : Bool :=
  c == '"' || c == '\''

def dropQuotes (cs : List Char) : List Char :=
  ((cs.dropWhile isQuote).reverse.dropWhile isQuote).reverse

/-- The id inside a pair of brackets: an index, or else a name with or without quotes. -/
def bracketId (inner : List Char) : PropertyId :=
  let trimmed := Text.trimChars inner
  match Text.readNumeral? Text.bound32 trimmed with
  | some i => .index (.ofNat i)
  | none => .name (String.ofList (dropQuotes trimmed))

def flush (current : List Char) (ids : List PropertyId) : List PropertyId :=
  if current.isEmpty then ids else .name (String.ofList current.reverse) :: ids

/-- What follows a bracket: a point after it is passed over. -/
def afterBracket : List Char → List Char
  | '.' :: rest => rest
  | cs => cs

theorem length_afterBracket_le (cs : List Char) : (afterBracket cs).length ≤ cs.length := by
  unfold afterBracket
  split
  · exact Nat.le_succ _
  · exact Nat.le_refl _

theorem length_dropWhile_le (p : Char → Bool) (cs : List Char) :
    (cs.dropWhile p).length ≤ cs.length :=
  (List.dropWhile_suffix p).length_le

/-- Reads a path from the given characters, after `ids` and with a name begun, both latest
first. -/
def readFrom (ids : List PropertyId) (current : List Char) :
    List Char → Option (List PropertyId)
  | [] => some (flush current ids).reverse
  | c :: rest =>
      if c = '.' then
        if current.isEmpty then none else readFrom (flush current ids) [] rest
      else if c = '[' then
        match _hclose : rest.dropWhile (· != ']') with
        | [] => none
        | _ :: after =>
            readFrom (bracketId (rest.takeWhile (· != ']')) :: flush current ids) []
              (afterBracket after)
      else if isNameChar c then readFrom ids (c :: current) rest
      else none
termination_by cs => cs.length
decreasing_by
  · simp
  · have hafter := length_afterBracket_le after
    have hdrop := length_dropWhile_le (· != ']') rest
    rw [_hclose] at hdrop
    simp only [List.length_cons] at hdrop ⊢
    omega
  · simp

/-- The ids of an access path, or nothing for a text that is no path. -/
def read? (s : String) : Option (List PropertyId) :=
  let trimmed := Text.trimChars s.toList
  if trimmed.isEmpty || trimmed.getLast? == some '.' then none
  else
    match readFrom [] [] trimmed with
    | some [] => none
    | ids => ids

def ofIds (first : String) (ids : List PropertyId) : String :=
  ids.foldl (fun parent id => id.childPath parent) first

end ScriptDebugger.Path
