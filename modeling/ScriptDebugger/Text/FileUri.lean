import ScriptDebugger.Text.Blank

namespace ScriptDebugger.Text

def fileScheme : List Char :=
  ['f', 'i', 'l', 'e', ':', '/', '/']

def stripFileUri (uri : String) : String :=
  let trimmed := trimChars uri.toList
  String.ofList ((fileScheme.isPrefixOf? trimmed).getD trimmed)

/-- The URI of a path; one that already is a URI stays as it is. -/
def toFileUri (path : String) : String :=
  if fileScheme.isPrefixOf path.toList then path
  else String.ofList (fileScheme ++ path.toList)

end ScriptDebugger.Text
