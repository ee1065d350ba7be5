import ScriptDebugger.Payload

/-!
The markup of outgoing messages.  An element has a tag, attributes in the order given, and
content: texts, which are escaped; payloads, which are base64; markup taken as it is; and child
elements.  An element whose content is empty closes itself.

What the markup of an element is, `renderPart` says.  `writePart` puts the same markup in front
of a text, so that no level of a deep element copies the levels inside it.
-/

namespace ScriptDebugger

namespace Markup

def escapeChar (c : Char) : List Char :=
  if c = '&' then ['&', 'a', 'm', 'p', ';']
  else if c = '"' then ['&', 'q', 'u', 'o', 't', ';']
  else if c = '<' then ['&', 'l', 't', ';']
  else if c = '>' then ['&', 'g', 't', ';']
  else [c]

def escape (cs : List Char) : List Char :=
  cs.flatMap escapeChar

@[simp] theorem escape_nil : escape [] = [] := rfl

@[simp] theorem escape_cons (c : Char) (cs : List Char) :
    escape (c :: cs) = escapeChar c ++ escape cs := rfl

end Markup

abbrev Attribute := String × String

inductive Part where
  | text (s : String)
  | payload (s : String)
  | raw (markup : String)
  | element (tag : String) (attributes : List Attribute) (content : List Part)
  deriving Repr

structure Element where
  tag : String
  attributes : List Attribute := []
  content : List Part := []
  deriving Repr

namespace Markup

def renderAttribute (a : Attribute) : List Char :=
  ' ' :: a.1.toList ++ '=' :: '"' :: escape a.2.toList ++ ['"']

def enclose (tag : String) (attributes : List Attribute) (content : List Char) : List Char :=
  let opening := '<' :: tag.toList ++ attributes.flatMap renderAttribute
  if content.isEmpty then opening ++ ['/', '>']
  else opening ++ '>' :: content ++ '<' :: '/' :: tag.toList ++ ['>']

mutual

def renderPart : Part → List Char
  | .text s => escape s.toList
  | .payload s => Payload.encodeChars s.toList
  | .raw markup => markup.toList
  | .element tag attributes content => enclose tag attributes (renderContent content)

def renderContent : List Part → List Char
  | [] => []
  | part :: rest => renderPart part ++ renderContent rest

end

@[simp] theorem renderContent_nil : renderContent [] = [] := by
  simp [renderContent]

@[simp] theorem renderContent_cons (part : Part) (rest : List Part) :
    renderContent (part :: rest) = renderPart part ++ renderContent rest := by
  simp [renderContent]

def isBlank : Part → Bool
  | .text s | .payload s | .raw s => s.toList.isEmpty
  | .element _ _ _ => false

mutual

/-- The markup of a piece of content, followed by `after`. -/
def writePart (after : List Char) : Part → List Char
  | .text s => escape s.toList ++ after
  | .payload s => Payload.encodeChars s.toList ++ after
  | .raw markup => markup.toList ++ after
  | .element tag attributes content =>
      '<' :: tag.toList ++ (attributes.flatMap renderAttribute ++
        if content.all isBlank then '/' :: '>' :: after
        else '>' :: writeContent ('<' :: '/' :: tag.toList ++ '>' :: after) content)

def writeContent (after : List Char) : List Part → List Char
  | [] => after
  | part :: rest => writePart (writeContent after rest) part

end

theorem escape_eq_nil_iff {cs : List Char} : escape cs = [] ↔ cs = [] := by
  cases cs with
  | nil => simp
  | cons c rest =>
      simp only [escape_cons, List.append_eq_nil_iff, reduceCtorEq, iff_false, not_and]
      intro h
      unfold escapeChar at h
      repeat' split at h
      all_goals exact absurd h (by simp)

theorem renderPart_eq_nil_iff (part : Part) : renderPart part = [] ↔ isBlank part = true := by
  cases part with
  | text s => simp [renderPart, isBlank, escape_eq_nil_iff]
  | payload s => simp [renderPart, isBlank, Payload.encodeChars_eq_nil_iff]
  | raw markup => simp [renderPart, isBlank]
  | element tag attributes content =>
      simp only [renderPart, enclose, isBlank]
      split <;> simp

theorem renderContent_eq_nil_iff (content : List Part) :
    renderContent content = [] ↔ content.all isBlank = true := by
  induction content with
  | nil => simp
  | cons part rest ih => simp [renderPart_eq_nil_iff, ih]

mutual

theorem writePart_eq (after : List Char) (part : Part) :
    writePart after part = renderPart part ++ after := by
  cases part with
  | text s => simp [writePart, renderPart]
  | payload s => simp [writePart, renderPart]
  | raw markup => simp [writePart, renderPart]
  | element tag attributes content =>
      simp only [writePart, renderPart, enclose, writeContent_eq _ content,
        List.isEmpty_iff, renderContent_eq_nil_iff]
      split <;> simp

theorem writeContent_eq (after : List Char) (content : List Part) :
    writeContent after content = renderContent content ++ after := by
  cases content with
  | nil => simp [writeContent]
  | cons part rest => simp [writeContent, writePart_eq _ part, writeContent_eq _ rest]

end

end Markup

namespace Element

def ofTag (tag : String) : Element :=
  { tag := tag }

def attr (e : Element) (name value : String) : Element :=
  { e with attributes := e.attributes ++ [(name, value)] }

def add (e : Element) (part : Part) : Element :=
  { e with content := e.content ++ [part] }

def text (e : Element) (s : String) : Element :=
  e.add (.text s)

def payload (e : Element) (s : String) : Element :=
  e.add (.payload s)

def raw (e : Element) (markup : String) : Element :=
  e.add (.raw markup)

def toPart (e : Element) : Part :=
  .element e.tag e.attributes e.content

def child (e inner : Element) : Element :=
  e.add inner.toPart

def attribute? (e : Element) (name : String) : Option String :=
  e.attributes.lookup name

def render (e : Element) : String :=
  String.ofList (Markup.writePart [] e.toPart)

theorem render_eq (e : Element) : e.render = String.ofList (Markup.renderPart e.toPart) := by
  rw [render, Markup.writePart_eq, List.append_nil]

def response (command : String) (transaction : Option String) : Element :=
  let e := (ofTag "response").attr "command" command
  match transaction with
  | some id => e.attr "transaction_id" id
  | none => e

def errorResponse (command : String) (transaction : Option String) (code : Nat)
    (message : String) : Element :=
  (response command transaction).child
    (((ofTag "error").attr "code" (Text.numeral code)).child
      ((ofTag "message").text message))

end Element

end ScriptDebugger
