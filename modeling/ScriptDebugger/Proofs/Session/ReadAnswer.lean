import ScriptDebugger.Proofs.Markup.Reading
import ScriptDebugger.Proofs.Session.Addresses
import ScriptDebugger.Proofs.Session.BreakpointCommands

namespace ScriptDebugger

namespace Element

def firstChild? (e : Element) : Option Element :=
  match e.content with
  | .element tag attributes content :: _ => some ⟨tag, attributes, content⟩
  | _ => none

def shown? (e : Element) : Option Element :=
  (Markup.read? e.render).bind firstChild?

theorem shown?_of_built {e inner : Element} {rest : List Part} (h : e.Built)
    (hcontent : e.content = inner.toPart :: rest) : e.shown? = some inner.reading := by
  have hread : Markup.read? e.render = some e.reading := by
    rw [render_eq]
    exact Markup.read?_renderPart h.isPlain_toPart
  rw [shown?, hread, Option.bind_some, firstChild?, reading, hcontent, toPart, Markup.readContent,
    Markup.readPart]
  rfl

namespace Built

theorem addParts {e : Element} (h : e.Built) {parts : List Part}
    (hparts : ∀ part ∈ parts, ∃ inner : Element, inner.Built ∧ part = inner.toPart) :
    Built { e with content := e.content ++ parts } := by
  induction parts generalizing e with
  | nil => simpa using h
  | cons part rest ih =>
      obtain ⟨⟨inner, hinner, rfl⟩, hrest⟩ := List.forall_mem_cons.mp hparts
      have hadded := ih (h.child hinner) hrest
      rw [Element.child, add, List.append_assoc] at hadded
      exact hadded

theorem ofParts {e : Element} (htag : Markup.isName e.tag = true)
    (hnames : ∀ a ∈ e.attributes, Markup.isName a.1 = true)
    (hparts : ∀ part ∈ e.content, ∃ inner : Element, inner.Built ∧ part = inner.toPart) :
    e.Built := by
  have hheader := (Built.ofTag htag).addAttributes hnames
  exact hheader.addParts hparts

end Built

end Element

theorem Command.built_answer (c : Command) : c.answer.Built :=
  .response c.name c.transaction?

theorem Command.shown?_child (c : Command) {inner : Element} (h : inner.Built) :
    (c.answer.child inner).shown? = some inner.reading := by
  have hcontent : (c.answer.child inner).content = [inner.toPart] := by
    rw [Element.child, Element.add, c.content_answer]
    rfl
  exact Element.shown?_of_built (c.built_answer.child h) hcontent

namespace Session

theorem isName_optionalAttribute {name : String} (hname : Markup.isName name = true)
    (value : Option String) : ∀ a ∈ optionalAttribute name value, Markup.isName a.1 = true := by
  cases value with
  | none => exact List.forall_mem_nil _
  | some _ => exact List.forall_mem_singleton.mpr hname

theorem isName_breakpointElement (b : Breakpoint) :
    ∀ a ∈ (breakpointElement b).attributes, Markup.isName a.1 = true := by
  have hplace : ∀ a ∈ (if b.file.isEmpty then []
      else [("filename", Text.toFileUri b.file), ("lineno", Text.numeral b.line)]),
        Markup.isName (Prod.fst a) = true := by
    split
    · exact List.forall_mem_nil _
    · simp only [List.forall_mem_cons]
      exact ⟨by decide, by decide, List.forall_mem_nil _⟩
  simp only [breakpointElement, List.forall_mem_append, List.forall_mem_cons]
  exact ⟨⟨⟨⟨⟨by decide, by decide, by decide, List.forall_mem_nil _⟩, hplace⟩,
    isName_optionalAttribute (by decide) _⟩, isName_optionalAttribute (by decide) _⟩,
    by decide, by decide, by decide, by decide, List.forall_mem_nil _⟩

theorem built_breakpointElement (b : Breakpoint) : (breakpointElement b).Built := by
  have htag : Markup.isName (breakpointElement b).tag = true :=
    show Markup.isName "breakpoint" = true by decide
  refine .ofParts htag (isName_breakpointElement b) ?_
  rw [breakpointElement]
  dsimp only
  split
  · exact List.forall_mem_singleton.mpr ⟨_, .payload (.ofTag (by decide)) _, rfl⟩
  · exact List.forall_mem_nil _

def ReadsBreakpoint (s : Session) (id : Breakpoint.Id) (shown : Element) : Prop :=
  ∀ {line : String} {c : Command}, Command.parse line = .ok c → c.name = "breakpoint_get" →
    targetId c = .ok id → ∃ e,
      s.sent (.command line) = (if s.outbox.isOpen then [.answer e] else []) ∧
        e.shown? = some shown

theorem readsBreakpoint_of_get? {s : Session} {id : Breakpoint.Id} {b : Breakpoint}
    (hget : s.registry.get? id = some b) : s.ReadsBreakpoint id (breakpointElement b).reading := by
  intro line c hparse hname hid
  exact ⟨_, presents_of_get? hget hparse hname hid, c.shown?_child (built_breakpointElement b)⟩

end Session

end ScriptDebugger
