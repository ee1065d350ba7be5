import ScriptDebugger.Proofs.Property.Bounds
import ScriptDebugger.Proofs.Session.Addresses
import ScriptDebugger.Proofs.Session.CommandEffect

namespace ScriptDebugger

open ScriptDebugger.Action

/-- The levels of children that a command shows below a value. -/
def Limits.shownLevels (l : Limits) (command : String) : Nat :=
  if command = "context_get" then l.maxDepth - 1 else max 1 l.maxDepth

namespace Session

/-- How a command that shows values is answered: with an error, or with trees of properties. -/
inductive Shown (s : Session) (c : Command) : Session → Prop where
  | failed (e : Error) : Shown s c (s.answer (c.errorAnswer e))
  | listed {answer : Element} {roots : List Node} (hcontent : answer.content = Node.toParts roots)
      (hwithin : ∀ root ∈ roots,
        root.Within s.settings.limits (s.settings.limits.shownLevels c.name))
      (hsingle : c.name ≠ "context_get" → roots.length = 1) :
      Shown s c (s.answer answer)

namespace Shown

variable {s : Session} {c : Command}

theorem ofOutcome {outcome : Except Error Element}
    (h : ∀ answer, outcome = .ok answer → Shown s c (s.answer answer)) :
    Shown s c (s.answerOutcome c outcome) := by
  cases outcome with
  | ok answer => exact h answer rfl
  | error e => exact .failed e

theorem ofRoot (hname : c.name ≠ "context_get") (name : String) (value : Value) :
    Shown s c (s.answer (c.answer.child (s.rootNode name value).toElement)) := by
  have hcontent : (c.answer.child (s.rootNode name value).toElement).content =
      Node.toParts [s.rootNode name value] := by
    rw [Element.child, Element.add, Node.toPart_toElement, Command.content_answer]
    rfl
  refine .listed hcontent ?_ fun _ => rfl
  intro root hroot
  rw [List.mem_singleton.mp hroot, Limits.shownLevels, if_neg hname]
  exact Node.within_encode s.settings.limits s.heap 0 true name name value

theorem listedNode_within (l : Limits) (h : Heap) (name : String) (value : Value) :
    (listedNode l h name value).Within l (l.shownLevels "context_get") := by
  have hlevels : l.levels 1 (decide (1 < l.maxDepth)) = l.maxDepth - 1 := by
    rw [l.levels_child 0, Limits.levels]
    simp only [if_true]
    omega
  have hwithin := Node.within_encode l h 1 (decide (1 < l.maxDepth)) name name value
  rw [hlevels] at hwithin
  exact hwithin

theorem within_of_mem_listNodes {depth scope : Nat} {roots : List Node}
    (h : s.listNodes depth scope = .ok roots) : ∀ root ∈ roots,
      root.Within s.settings.limits (s.settings.limits.shownLevels "context_get") := by
  intro root hroot
  obtain ⟨⟨owner, receiver⟩, _, h⟩ := bind_eq_ok.mp h
  cases h
  rcases List.mem_append.mp hroot with hroot | hroot
  · cases owner with
    | none => cases hroot
    | some owner =>
        change root ∈ scopeNodes s.settings.limits s.heap owner at hroot
        unfold scopeNodes at hroot
        split at hroot
        · obtain ⟨id, _, hroot⟩ := List.mem_filterMap.mp hroot
          rw [scopeNode?_eq_some hroot]
          exact listedNode_within _ _ _ _
        · cases hroot
  · cases receiver with
    | none => cases hroot
    | some receiver =>
        rw [List.mem_singleton.mp hroot]
        exact listedNode_within _ _ _ _

theorem contextGetCommand (hname : c.name = "context_get") :
    (contextGetCommand c).Ends s fun _ after => Shown s c after := by
  refine .read fun depth _ => .read fun scope _ => .ofOutcome fun answer hanswer => ?_
  obtain ⟨roots, hroots, hanswer⟩ := bind_eq_ok.mp hanswer
  cases hanswer
  have hwithin := within_of_mem_listNodes hroots
  rw [← hname] at hwithin
  exact .listed rfl hwithin (absurd hname)

theorem propertyGetCommand (hname : c.name = "property_get") :
    (propertyGetCommand c).Ends s fun _ after => Shown s c after := by
  refine .read fun path _ => .read fun depth _ => .read fun scope _ =>
    .ofOutcome fun answer hanswer => ?_
  obtain ⟨frame, _, hanswer⟩ := bind_eq_ok.mp hanswer
  obtain ⟨value, _, hanswer⟩ := bind_eq_ok.mp hanswer
  cases hanswer
  exact ofRoot (by rw [hname]; decide) path value

theorem evalCommand (hname : c.name = "eval") :
    (evalCommand c).Ends s fun _ after => Shown s c after := by
  refine .read fun depth _ => .read fun expression _ => .ofOutcome fun answer hanswer => ?_
  obtain ⟨frame, _, hanswer⟩ := bind_eq_ok.mp hanswer
  obtain ⟨value, _, hanswer⟩ := bind_eq_ok.mp hanswer
  cases hanswer
  exact ofRoot (by rw [hname]; decide) expression value

end Shown

/-- What a client is shown keeps within its limits, however it asks. -/
theorem shown_within_limits {s : Session} {line : String} {c : Command}
    (hparse : Command.parse line = .ok c)
    (hname : c.name = "property_get" ∨ c.name = "eval" ∨ c.name = "context_get") :
    s.dispatch line = s ∨ Shown s c (s.dispatch line) := by
  have hends : (obey c).Ends s fun _ after => Shown s c after := by
    rcases hname with hname | hname | hname
    · rw [obey_of_name hname rfl]
      exact Shown.propertyGetCommand hname
    · rw [obey_of_name hname rfl]
      exact Shown.evalCommand hname
    · rw [obey_of_name hname rfl]
      exact Shown.contextGetCommand hname
  exact dispatch_of_ends hparse hends

def withGlobals : Session :=
  opened {} (Host.ofTable (some 0) [])
    { objects := [{ slots := [(.name "o", .object 1), (.name "x", .string "y")] },
        { slots := [(.name "a", .string "text")] }] }

theorem shown_within_limits_member :
    let s := (withGlobals.dispatch "feature_set -i 1 -n max_depth -v 1").dispatch
      "feature_set -i 2 -n max_data -v 2"
    s.settings.limits = { maxDepth := 1, maxData := 2 } ∧
      ∃ c, Command.parse "property_get -i 3 -n o -c 1" = .ok c ∧ c.name = "property_get" ∧
        Shown s c (s.dispatch "property_get -i 3 -n o -c 1") := by
  intro s
  have hcommand : ((Command.parse "property_get -i 3 -n o -c 1").toOption.map Command.name) =
      some "property_get" := by
    decide +kernel
  obtain ⟨c, hc, hname⟩ := Option.map_eq_some_iff.mp hcommand
  have hparse := Command.parse_eq_ok hc
  have hsent : (s.sent (.command "property_get -i 3 -n o -c 1")).length = 1 := by decide +kernel
  refine ⟨by decide +kernel, c, hparse, hname, ?_⟩
  rcases shown_within_limits hparse (.inl hname) with hsame | hshown
  · rw [sent, show s.after (.command _) = s from hsame, List.drop_length] at hsent
    cases hsent
  · exact hshown

def Shows (s : Session) (line : String) (roots : List Node) : Prop :=
  ∃ answer, s.dispatch line = s.answer answer ∧ answer.content = Node.toParts roots

theorem exists_shows {s : Session} {line : String} {c : Command} {q : Query} {α : Type}
    {f : List Node → α} {a : α} (hparse : Command.parse line = .ok c)
    (hroots : (s.treesFor q).toOption.map f = some a) (hasks : c.Asks q) :
    ∃ roots, s.Shows line roots ∧ f roots = a := by
  cases htrees : s.treesFor q with
  | error e =>
      rw [htrees] at hroots
      cases hroots
  | ok roots =>
      rw [htrees] at hroots
      refine ⟨roots, ⟨q.answer c roots, dispatch_of_parse hparse ?_, q.content_answer c roots⟩,
        Option.some.inj hroots⟩
      rw [execute_of_asks s hasks, htrees]
      rfl

/-- Without any depth a value asked for by itself still shows its children, and a scope lists more
than the limit on children. -/
theorem limits_exceeded :
    let s := withGlobals.dispatch "feature_set -i 1 -n max_depth -v 0"
    let t := withGlobals.dispatch "feature_set -i 1 -n max_children -v 1"
    (s.settings.maxDepth = 0 ∧ ∃ roots, s.Shows "property_get -i 2 -n o -c 1" roots ∧
      roots.map Node.expandedDepth = [1]) ∧
    t.settings.maxChildren = 1 ∧ ∃ roots, t.Shows "context_get -i 2 -c 1" roots ∧
      roots.length = 2 := by
  intro s t
  have hget : Command.parse "property_get -i 2 -n o -c 1" =
      .ok ⟨"property_get", [("c", "1"), ("n", "o"), ("i", "2")], none⟩ :=
    Command.parse_eq_ok (by decide +kernel)
  have hlist : Command.parse "context_get -i 2 -c 1" =
      .ok ⟨"context_get", [("c", "1"), ("i", "2")], none⟩ :=
    Command.parse_eq_ok (by decide +kernel)
  have hvalue : (s.treesFor ⟨0, globalScope, some "o"⟩).toOption.map (List.map Node.expandedDepth) =
      some [1] := by
    decide +kernel
  have hscope : (t.treesFor ⟨0, globalScope, none⟩).toOption.map List.length = some 2 := by
    decide +kernel
  refine ⟨⟨by decide +kernel, ?_⟩, by decide +kernel, ?_⟩
  · exact exists_shows hget hvalue ⟨rfl, rfl, rfl, rfl⟩
  · exact exists_shows hlist hscope ⟨rfl, rfl, rfl⟩

end Session

end ScriptDebugger
