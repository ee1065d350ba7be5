namespace ScriptDebugger.Text

def linesFrom (current : List Char) : List Char → List (List Char)
  | [] => if current.isEmpty then [] else [current.reverse]
  | '\n' :: rest =>
      let line := match current with
        | '\r' :: before => before.reverse
        | _ => current.reverse
      line :: linesFrom [] rest
  | c :: rest => linesFrom (c :: current) rest

def lines (s : String) : List String :=
  (linesFrom [] s.toList).map String.ofList

end ScriptDebugger.Text
