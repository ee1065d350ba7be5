import ScriptDebugger.Proofs.Markup.Token
import ScriptDebugger.Proofs.Text.Payload
import ScriptDebugger.Property.Node

namespace ScriptDebugger

namespace Markup

def addText (s : String) (content : List Part) : List Part :=
  if s = "" then content
  else
    match content with
    | .text next :: rest => .text (s ++ next) :: rest
    | _ => .text s :: content

/-- What is known of an element when its tokens are read from the end: the content up to here,
and around it the elements that are closed but not yet opened, each with what follows it. -/
structure Outline where
  content : List Part := []
  around : List (String × List Part) := []

def Outline.before (outline : Outline) : Token → Option Outline
  | .char c => some { outline with content := addText (String.singleton c) outline.content }
  | .single tag attributes =>
      some { outline with content := .element tag attributes [] :: outline.content }
  | .closing tag => some { content := [], around := (tag, outline.content) :: outline.around }
  | .opening tag attributes =>
      match outline.around with
      | (closed, behind) :: around =>
          if closed = tag then
            some { content := .element tag attributes outline.content :: behind, around }
          else none
      | [] => none

def Outline.beforeAll (outline : Outline) (tokens : List Token) : Option Outline :=
  tokens.foldrM (fun token outline => outline.before token) outline

/-- The element that a markup is, if it is one element and nothing else. -/
def read? (markup : String) : Option Element :=
  match many token? markup.toList with
  | (tokens, []) =>
      match Outline.beforeAll {} tokens with
      | some ⟨[.element tag attributes content], []⟩ => some ⟨tag, attributes, content⟩
      | _ => none
  | _ => none

mutual

def readPart (behind : List Part) : Part → List Part
  | .text s => addText s behind
  | .payload s => addText (Payload.encode s) behind
  | .raw markup => .raw markup :: behind
  | .element tag attributes content => .element tag attributes (readContent content) :: behind

def readContent : List Part → List Part
  | [] => []
  | part :: rest => readPart (readContent rest) part

end

mutual

def isPlain : Part → Bool
  | .text _ | .payload _ => true
  | .raw _ => false
  | .element tag attributes content =>
      isName tag && attributes.all (fun a => isName a.1) && allPlain content

def allPlain : List Part → Bool
  | [] => true
  | part :: rest => isPlain part && allPlain rest

end

theorem isReserved_encodeChars (cs : List Char) :
    ∀ c ∈ Payload.encodeChars cs, isReserved c = false := by
  apply Text.Base64.forall_mem_encode
  · decide
  · decide

mutual

def tokens : Part → List Token
  | .text s => s.toList.map .char
  | .payload s => (Payload.encodeChars s.toList).map .char
  | .raw _ => []
  | .element tag attributes content =>
      if content.all isBlank then [.single tag attributes]
      else .opening tag attributes :: contentTokens content ++ [.closing tag]

def contentTokens : List Part → List Token
  | [] => []
  | part :: rest => tokens part ++ contentTokens rest

end

theorem flatMap_spelling_chars (cs : List Char) :
    (cs.map Token.char).flatMap Token.spelling = escape cs := by
  simp [List.flatMap_map, Token.spelling, escape]

theorem escape_plain {cs : List Char} (h : ∀ c ∈ cs, isReserved c = false) : escape cs = cs := by
  induction cs with
  | nil => rfl
  | cons c cs ih =>
      rw [escape_cons, escapeChar_plain (h c (List.mem_cons_self ..)),
        ih fun d hd => h d (List.mem_cons_of_mem _ hd), List.singleton_append]

mutual

theorem renderPart_eq_spelling {part : Part} (h : isPlain part = true) :
    renderPart part = (tokens part).flatMap Token.spelling := by
  cases part with
  | text s => rw [renderPart, tokens, flatMap_spelling_chars]
  | payload s =>
      rw [renderPart, tokens, flatMap_spelling_chars, escape_plain (isReserved_encodeChars _)]
  | raw markup => cases h
  | element tag attributes content =>
      simp only [isPlain, Bool.and_eq_true] at h
      have hcontent := renderContent_eq_spelling h.2
      simp only [renderPart, enclose, tokens, List.isEmpty_iff, renderContent_eq_nil_iff]
      split
      · simp [Token.spelling]
      · simp [Token.spelling, hcontent]

theorem renderContent_eq_spelling {content : List Part} (h : allPlain content = true) :
    renderContent content = (contentTokens content).flatMap Token.spelling := by
  cases content with
  | nil => simp [contentTokens]
  | cons part rest =>
      simp only [allPlain, Bool.and_eq_true] at h
      simp [contentTokens, renderPart_eq_spelling h.1, renderContent_eq_spelling h.2]

end

mutual

theorem isPlain_tokens {part : Part} (h : isPlain part = true) :
    (tokens part).all Token.isPlain = true := by
  cases part with
  | text s => simp [tokens, Token.isPlain]
  | payload s => simp [tokens, Token.isPlain]
  | raw markup => cases h
  | element tag attributes content =>
      simp only [isPlain, Bool.and_eq_true] at h
      have htag : (Token.single tag attributes).isPlain = true := Bool.and_eq_true_iff.mpr h.1
      rw [tokens]
      split
      · simpa using htag
      · simpa [Token.isPlain, isPlain_contentTokens h.2, h.1.1] using htag

theorem isPlain_contentTokens {content : List Part} (h : allPlain content = true) :
    (contentTokens content).all Token.isPlain = true := by
  cases content with
  | nil => simp [contentTokens]
  | cons part rest =>
      simp only [allPlain, Bool.and_eq_true] at h
      rw [contentTokens, List.all_append, isPlain_tokens h.1, isPlain_contentTokens h.2]
      rfl

end

@[simp] theorem addText_empty (content : List Part) : addText "" content = content := if_pos rfl

theorem addText_append (first second : String) (content : List Part) :
    addText first (addText second content) = addText (first ++ second) content := by
  by_cases hfirst : first = ""
  · simp [hfirst]
  by_cases hsecond : second = ""
  · simp [hsecond]
  have hboth : first ++ second ≠ "" := by simp [hfirst]
  rw [addText.eq_def second, if_neg hsecond]
  split
  · simp [addText, hfirst, hboth, String.append_assoc]
  · rename_i hother
    rw [addText.eq_def (first ++ second), if_neg hboth]
    simp [addText, hfirst]

namespace Outline

variable {outline : Outline}

theorem beforeAll_append {first second : List Token} :
    outline.beforeAll (first ++ second) =
      (outline.beforeAll second).bind fun behind => behind.beforeAll first :=
  List.foldrM_append

theorem beforeAll_cons (token : Token) (tokens : List Token) :
    outline.beforeAll (token :: tokens) =
      (outline.beforeAll tokens).bind fun behind => behind.before token :=
  List.foldrM_cons

theorem beforeAll_singleton (token : Token) :
    outline.beforeAll [token] = outline.before token := by
  simp [beforeAll]

theorem beforeAll_chars (cs : List Char) :
    outline.beforeAll (cs.map .char) =
      some { outline with content := addText (String.ofList cs) outline.content } := by
  induction cs with
  | nil => simp [beforeAll]
  | cons c cs ih =>
      rw [List.map_cons, beforeAll_cons, ih, Option.bind_some, before, addText_append,
        ← String.ofList_cons]

theorem beforeAll_enclosed {tokens : List Token} {content : List Part}
    (h : ∀ outline : Outline, outline.content = [] →
      outline.beforeAll tokens = some { outline with content })
    (tag : String) (attributes : List Attribute) :
    outline.beforeAll (.opening tag attributes :: tokens ++ [.closing tag]) =
      some { outline with content := .element tag attributes content :: outline.content } := by
  rw [beforeAll_append, beforeAll_singleton, before, Option.bind_some, beforeAll_cons, h _ rfl,
    Option.bind_some]
  simp [before]

end Outline

theorem readContent_of_isBlank {content : List Part} (hplain : allPlain content = true)
    (hblank : content.all isBlank = true) : readContent content = [] := by
  induction content with
  | nil => simp [readContent]
  | cons part rest ih =>
      simp only [allPlain, Bool.and_eq_true] at hplain
      simp only [List.all_cons, Bool.and_eq_true] at hblank
      rw [readContent, ih hplain.2 hblank.2]
      cases part with
      | text s =>
          have hs : s = "" := by simpa [isBlank] using hblank.1
          rw [hs]
          simp [readPart]
      | payload s =>
          have hs : s = "" := by simpa [isBlank] using hblank.1
          rw [hs]
          rfl
      | raw markup => cases hplain.1
      | element tag attributes content => cases hblank.1

mutual

theorem beforeAll_tokens {part : Part} (h : isPlain part = true) (outline : Outline) :
    outline.beforeAll (tokens part) =
      some { outline with content := readPart outline.content part } := by
  cases part with
  | text s => rw [tokens, Outline.beforeAll_chars, readPart, String.ofList_toList]
  | payload s => rw [tokens, Outline.beforeAll_chars, readPart, Payload.encode]
  | raw markup => cases h
  | element tag attributes content =>
      simp only [isPlain, Bool.and_eq_true] at h
      rw [tokens, readPart]
      split
      · rename_i hblank
        rw [readContent_of_isBlank h.2 hblank, Outline.beforeAll_singleton, Outline.before]
      · exact Outline.beforeAll_enclosed (beforeAll_contentTokens h.2) tag attributes

theorem beforeAll_contentTokens {content : List Part} (h : allPlain content = true)
    (outline : Outline) (houtline : outline.content = []) :
    outline.beforeAll (contentTokens content) =
      some { outline with content := readContent content } := by
  cases content with
  | nil => simp [contentTokens, readContent, Outline.beforeAll, ← houtline]
  | cons part rest =>
      simp only [allPlain, Bool.and_eq_true] at h
      rw [contentTokens, Outline.beforeAll_append, beforeAll_contentTokens h.2 outline houtline,
        Option.bind_some, beforeAll_tokens h.1, readContent]

end

theorem allPlain_append (first second : List Part) :
    allPlain (first ++ second) = (allPlain first && allPlain second) := by
  induction first with
  | nil => simp [allPlain]
  | cons part rest ih => simp [allPlain, ih, Bool.and_assoc]

/-- A piece of content is read as it was meant, whatever its texts and values hold. -/
theorem read?_renderPart {tag : String} {attributes : List Attribute} {content : List Part}
    (h : isPlain (.element tag attributes content) = true) :
    read? (String.ofList (renderPart (.element tag attributes content))) =
      some ⟨tag, attributes, readContent content⟩ := by
  have htokens := many_token?_spelling (isPlain_tokens h)
  have houtline := beforeAll_tokens h {}
  rw [read?, String.toList_ofList, renderPart_eq_spelling h, htokens]
  simp [houtline, readPart]

end Markup

namespace Element

def reading (e : Element) : Element :=
  { e with content := Markup.readContent e.content }

/-- Elements made by the builders, under names that are names. -/
inductive Built : Element → Prop
  | ofTag {tag : String} (htag : Markup.isName tag = true) : Built (.ofTag tag)
  | response (command : String) (transaction : Option String) :
      Built (.response command transaction)
  | errorResponse (command : String) (transaction : Option String) (code : Nat)
      (message : String) : Built (.errorResponse command transaction code message)
  | attr {e : Element} (he : Built e) {name : String} (hname : Markup.isName name = true)
      (value : String) : Built (e.attr name value)
  | text {e : Element} (he : Built e) (s : String) : Built (e.text s)
  | payload {e : Element} (he : Built e) (s : String) : Built (e.payload s)
  | child {e inner : Element} (he : Built e) (hinner : Built inner) : Built (e.child inner)

theorem isPlain_add (e : Element) (part : Part) :
    Markup.isPlain (e.add part).toPart = (Markup.isPlain e.toPart && Markup.isPlain part) := by
  simp [add, toPart, Markup.isPlain, Markup.allPlain_append, Markup.allPlain, Bool.and_assoc]

theorem isPlain_attr (e : Element) (name value : String) :
    Markup.isPlain (e.attr name value).toPart =
      (Markup.isPlain e.toPart && Markup.isName name) := by
  simp only [attr, toPart, Markup.isPlain, List.all_append, List.all_cons, List.all_nil]
  ac_rfl

theorem isPlain_response (command : String) (transaction : Option String) :
    Markup.isPlain (response command transaction).toPart = true := by
  cases transaction with
  | none => simp [response, isPlain_attr]; decide
  | some id => simp [response, isPlain_attr]; decide

namespace Built

variable {e : Element}

theorem isPlain_toPart (h : e.Built) : Markup.isPlain e.toPart = true := by
  induction h with
  | ofTag htag => simpa [Element.ofTag, toPart, Markup.isPlain, Markup.allPlain] using htag
  | response command transaction => exact isPlain_response command transaction
  | errorResponse command transaction code message =>
      simp [Element.errorResponse, Element.child, Element.text, isPlain_add, isPlain_response,
        isPlain_attr, Markup.isPlain]
      decide
  | attr he hname value ih => rw [isPlain_attr, ih, hname]; rfl
  | text he s ih => rw [Element.text, isPlain_add, ih]; rfl
  | payload he s ih => rw [Element.payload, isPlain_add, ih]; rfl
  | child he hinner ih ihinner => rw [Element.child, isPlain_add, ih, ihinner]; rfl

/-- The markup of an element reads back as the element. -/
theorem reads_back (h : e.Built) : Markup.read? e.render = some e.reading := by
  rw [render_eq]
  exact Markup.read?_renderPart h.isPlain_toPart

theorem addAttributes (h : e.Built) {attributes : List Attribute}
    (hnames : ∀ a ∈ attributes, Markup.isName a.1 = true) :
    Built { e with attributes := e.attributes ++ attributes } := by
  induction attributes generalizing e with
  | nil => simpa using h
  | cons a rest ih =>
      have hfirst := h.attr (hnames a (List.mem_cons_self ..)) a.2
      have hrest := ih hfirst fun other hother => hnames other (List.mem_cons_of_mem _ hother)
      simpa [Element.attr, List.append_assoc] using hrest

theorem addNodes (h : e.Built) {nodes : List Node} (hnodes : ∀ n ∈ nodes, n.toElement.Built) :
    Built { e with content := e.content ++ Node.toParts nodes } := by
  induction nodes generalizing e with
  | nil => simpa [Node.toParts] using h
  | cons n rest ih =>
      have hchild := h.child (hnodes n (List.mem_cons_self ..))
      have hrest := ih hchild fun other hother => hnodes other (List.mem_cons_of_mem _ hother)
      simpa [Element.child, add, Node.toParts, List.append_assoc] using hrest

end Built

end Element

namespace Node

theorem isName_elementAttributes (name path : String) (type : TypeTag) (className : String)
    (hasChildren : Bool) (childCount : Nat) :
    ∀ a ∈ elementAttributes name path type className hasChildren childCount,
      Markup.isName a.1 = true := by
  simp only [elementAttributes, List.forall_mem_cons]
  exact ⟨by decide, by decide, by decide, by decide, by decide, by decide, by decide, by decide,
    by simp⟩

mutual

theorem built_toElement (n : Node) : n.toElement.Built := by
  cases n with
  | mk name path type className text hasChildren childCount children =>
      have htag : (Element.ofTag "property").Built := .ofTag (by decide)
      have hheader := (htag.addAttributes
        (isName_elementAttributes name path type className hasChildren childCount)).payload text
      exact hheader.addNodes (built_toElements children)

theorem built_toElements (nodes : List Node) : ∀ n ∈ nodes, n.toElement.Built := by
  cases nodes with
  | nil => simp
  | cons n rest =>
      intro other hother
      rcases List.mem_cons.mp hother with hfirst | hother
      · rw [hfirst]
        exact built_toElement n
      · exact built_toElements rest other hother

end

end Node

namespace Element.Built

theorem reads_back_markup_characters :
    (((Element.response "eval" (some "1\" b=\"<")).text "a < b").child
        (Node.mk "a\"/>" "o.a\"/>" .string "String" "<&" false 0 []).toElement).Built ∧
      Markup.read?
          (((Element.response "eval" (some "1\" b=\"<")).text "a < b").child
            (Node.mk "a\"/>" "o.a\"/>" .string "String" "<&" false 0 []).toElement).render =
        some ⟨"response", [("command", "eval"), ("transaction_id", "1\" b=\"<")],
          [.text "a < b", .element "property"
            [("name", "a\"/>"), ("fullname", "o.a\"/>"), ("type", "string"),
              ("classname", "String"), ("constant", "0"), ("children", "0"),
              ("encoding", "base64"), ("numchildren", Text.numeral 0)]
            [.text "PCY="]]⟩ :=
  have h := ((response "eval" (some "1\" b=\"<")).text "a < b").child (Node.built_toElement _)
  ⟨h, reads_back h⟩

end Element.Built

end ScriptDebugger
