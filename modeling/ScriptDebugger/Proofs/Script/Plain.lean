import ScriptDebugger.Script.Walk

/-!
What a script does by itself, without a debugger: its statements one after the other, on its
objects and on the texts that it prints.  The actions of a script, whatever the session says to
the reports among them, lead through the memories between these statements and no others.
-/

namespace ScriptDebugger.Script

structure Memory where
  heap : Heap
  texts : List String := []

def Action.line? : Action → Option Nat
  | .report (.line _ line) => some line
  | _ => none

namespace Memory

def print (m : Memory) (value : Value) : Memory :=
  { m with texts := m.texts ++ [Stage.lineText m.heap value] }

end Memory

def lineNumbers (s : Script) : List Nat :=
  ((s.lines.zipIdx 1).filter fun entry => Statement.ofLine entry.1 ≠ .nop).map Prod.snd

theorem lineNumbers_increasing (s : Script) : s.lineNumbers.Pairwise (· < ·) := by
  have hsub : s.lineNumbers.Sublist ((s.lines.zipIdx 1).map Prod.snd) :=
    List.filter_sublist.map Prod.snd
  rw [List.zipIdx_map_snd] at hsub
  exact (List.pairwise_lt_range' 1).sublist hsub

namespace Program

def assign (p : Program) (m : Memory) (name : String) (value : Value) : Memory :=
  match m.heap.set p.scopes.locals (.name name) value with
  | .ok heap => { m with heap := heap }
  | .error _ => m

theorem assign_eq {p : Program} {m : Memory} {name : String} {value : Value} {heap : Heap}
    (h : m.heap.set p.scopes.locals (.name name) value = .ok heap) :
    p.assign m name value = { m with heap := heap } := by
  rw [assign, h]

/-- What a statement does; one whose expression has no value does nothing. -/
def plainStep (p : Program) (m : Memory) : Statement → Memory
  | .assign name expression =>
      match evaluate p.scopes.globals m.heap expression (some p.frame) with
      | .ok value => p.assign m name value
      | .error _ => m
  | .print expression =>
      match evaluate p.scopes.globals m.heap expression (some p.frame) with
      | .ok value => m.print value
      | .error _ => m
  | .throw _ _ | .nop => m

def plain (p : Program) (m : Memory) (lines : List String) : Memory :=
  (lines.map Statement.ofLine).foldl p.plainStep m

theorem plain_cons (p : Program) (m : Memory) (source : String) (rest : List String) :
    p.plain m (source :: rest) = p.plain (p.plainStep m (Statement.ofLine source)) rest := rfl

/-- What an action does to the memory. -/
def effect (p : Program) (m : Memory) : Action → Memory
  | .perform statement => p.plainStep m statement
  | .store name value => p.assign m name value
  | .print value => m.print value
  | .start | .report _ => m

def finish (p : Program) (m : Memory) (actions : List Action) : Memory :=
  actions.foldl p.effect m

/-- The memories that actions lead through, the present one first. -/
def trail (p : Program) (m : Memory) : List Action → List Memory
  | [] => [m]
  | action :: rest => m :: p.trail (p.effect m action) rest

theorem finish_append (p : Program) (m : Memory) (first second : List Action) :
    p.finish m (first ++ second) = p.finish (p.finish m first) second :=
  List.foldl_append

theorem mem_trail_self (p : Program) (m : Memory) (actions : List Action) :
    m ∈ p.trail m actions := by
  cases actions with
  | nil => exact List.mem_singleton_self m
  | cons action rest => exact List.mem_cons_self

theorem mem_trail_append {p : Program} {m other : Memory} {first second : List Action} :
    other ∈ p.trail m (first ++ second) ↔
      other ∈ p.trail m first ∨ other ∈ p.trail (p.finish m first) second := by
  induction first generalizing m with
  | nil =>
      refine ⟨.inr, ?_⟩
      rintro (hself | hrest)
      · rw [List.mem_singleton.mp hself]
        exact p.mem_trail_self m second
      · exact hrest
  | cons action rest ih =>
      simp only [List.cons_append, trail, List.mem_cons, ih, or_assoc]
      rfl

/-- Actions that lead from a memory to another one at once, and report no line. -/
structure Carries (p : Program) (m after : Memory) (actions : List Action) : Prop where
  finish_eq : p.finish m actions = after
  trail_eq : ∀ other ∈ p.trail m actions, other = m ∨ other = after
  line?_eq : actions.filterMap Action.line? = []

theorem Carries.single {p : Program} {m : Memory} {action : Action}
    (h : action.line? = none) : p.Carries m (p.effect m action) [action] where
  finish_eq := rfl
  trail_eq := by
    intro other hmem
    simpa [trail] using hmem
  line?_eq := by rw [List.filterMap_cons_none h, List.filterMap_nil]

theorem Carries.report {p : Program} {m after : Memory} {event : Hook} {actions : List Action}
    (h : p.Carries m after actions) (hevent : (Action.report event).line? = none) :
    p.Carries m after (.report event :: actions) where
  finish_eq := h.finish_eq
  trail_eq := by
    intro other hmem
    rcases List.mem_cons.mp hmem with hself | hrest
    · exact .inl hself
    · exact h.trail_eq other hrest
  line?_eq := by rw [List.filterMap_cons_none hevent, h.line?_eq]

theorem carries_reading (p : Program) (m : Memory) (expression : String) {use : Value → Action}
    (huse : ∀ value, (use value).line? = none) :
    p.Carries m
      (match evaluate p.scopes.globals m.heap expression (some p.frame) with
        | .ok value => p.effect m (use value)
        | .error _ => m)
      (p.reading m.heap (host p.scopes) expression use) := by
  have hhost : (host p.scopes).evaluate = evaluate p.scopes.globals := rfl
  unfold reading
  rw [hhost]
  cases evaluate p.scopes.globals m.heap expression (some p.frame) with
  | error e =>
      have hline : (Action.report (.exception e.className e.message)).line? = none := rfl
      exact .single hline
  | ok value =>
      cases isIdentifier expression with
      | true => exact (Carries.single (huse value)).report rfl
      | false => exact .single (huse value)

theorem carries_expand (p : Program) (m : Memory) (statement : Statement) :
    p.Carries m (p.plainStep m statement) (p.expand m.heap (host p.scopes) statement) := by
  cases statement with
  | assign name expression =>
      have hline : ∀ value, (Action.store name value).line? = none := fun _ => rfl
      exact p.carries_reading m expression hline
  | print expression =>
      have hline : ∀ value, (Action.print value).line? = none := fun _ => rfl
      exact p.carries_reading m expression hline
  | throw className message =>
      have hline : (Action.report (.exception className message)).line? = none := rfl
      exact .single hline
  | nop => exact ⟨rfl, fun other hmem => .inl (List.mem_singleton.mp hmem), rfl⟩

def lineActions (p : Program) (line : Nat) (source : String) : List Action :=
  if Statement.ofLine source = .nop then []
  else [.report (.line p.script.path line), .perform (Statement.ofLine source)]

def body (p : Program) (line : Nat) : List String → List Action
  | [] => []
  | source :: rest => p.lineActions line source ++ p.body (line + 1) rest

theorem flatMap_statementsFrom (p : Program) (line : Nat) (lines : List String) :
    ((statementsFrom line lines).flatMap fun entry =>
        [.report (.line p.script.path entry.1), .perform entry.2]) = p.body line lines := by
  induction lines generalizing line with
  | nil => rfl
  | cons source rest ih =>
      rw [statementsFrom, body, ← ih, lineActions]
      cases Statement.ofLine source with
      | nop => rfl
      | _ => rfl

theorem actions_eq (p : Program) :
    p.actions =
      [.report (.compile p.script.path), .start, .report (.enter p.frame)]
        ++ p.body 1 p.script.lines ++ [.report .exit] := by
  rw [← flatMap_statementsFrom]
  rfl

theorem getLast?_actions (p : Program) : p.actions.getLast? = some (.report .exit) := by
  rw [actions_eq, List.getLast?_concat]

theorem filterMap_line?_body (p : Program) (line : Nat) (lines : List String) :
    (p.body line lines).filterMap Action.line? =
      ((lines.zipIdx line).filter fun entry => Statement.ofLine entry.1 ≠ .nop).map Prod.snd := by
  induction lines generalizing line with
  | nil => rfl
  | cons source rest ih =>
      rw [body, List.filterMap_append, ih, lineActions, List.zipIdx_cons, List.filter_cons]
      by_cases hnop : Statement.ofLine source = .nop
      · simp [hnop]
      · simp [hnop, Action.line?]

theorem filterMap_line?_actions (p : Program) :
    p.actions.filterMap Action.line? = p.script.lineNumbers := by
  rw [actions_eq, List.filterMap_append, List.filterMap_append, filterMap_line?_body]
  exact List.append_nil _

theorem finish_lineActions (p : Program) (m : Memory) (line : Nat) (source : String) :
    p.finish m (p.lineActions line source) = p.plainStep m (Statement.ofLine source) := by
  unfold lineActions
  split
  · rename_i hnop
    rw [hnop]
    rfl
  · rfl

theorem finish_body (p : Program) (m : Memory) (line : Nat) (lines : List String) :
    p.finish m (p.body line lines) = p.plain m lines := by
  induction lines generalizing m line with
  | nil => rfl
  | cons source rest ih => rw [body, finish_append, finish_lineActions, ih, plain_cons]

theorem finish_actions (p : Program) (m : Memory) :
    p.finish m p.actions = p.plain m p.script.lines := by
  rw [actions_eq, finish_append, finish_append, ← p.finish_body m 1]
  rfl

theorem trail_lineActions {p : Program} {m other : Memory} {line : Nat} {source : String}
    (h : other ∈ p.trail m (p.lineActions line source)) :
    other = m ∨ other = p.plainStep m (Statement.ofLine source) := by
  unfold lineActions at h
  split at h
  · exact .inl (List.mem_singleton.mp h)
  · simpa [trail, effect] using h

theorem trail_body {p : Program} {m other : Memory} {line : Nat} {lines : List String}
    (h : other ∈ p.trail m (p.body line lines)) :
    ∃ count, other = p.plain m (lines.take count) := by
  induction lines generalizing m line with
  | nil => exact ⟨0, List.mem_singleton.mp h⟩
  | cons source rest ih =>
      rw [body, mem_trail_append, finish_lineActions] at h
      rcases h with hfirst | hrest
      · rcases trail_lineActions hfirst with rfl | rfl
        · exact ⟨0, rfl⟩
        · exact ⟨1, rfl⟩
      · obtain ⟨count, rfl⟩ := ih hrest
        exact ⟨count + 1, rfl⟩

/-- The actions of a script lead through what its first lines do, and nothing else. -/
theorem trail_actions {p : Program} {m other : Memory} (h : other ∈ p.trail m p.actions) :
    ∃ count, other = p.plain m (p.script.lines.take count) := by
  rw [actions_eq, mem_trail_append, mem_trail_append] at h
  have hprelude : p.finish m [.report (.compile p.script.path), .start, .report (.enter p.frame)]
      = m := rfl
  rw [finish_append, hprelude, finish_body] at h
  rcases h with (hprelude | hbody) | hexit
  · have hself : other = m := by simpa [trail, effect] using hprelude
    exact ⟨0, hself⟩
  · exact trail_body hbody
  · have hlast : other = p.plain m p.script.lines := by simpa [trail, effect] using hexit
    exact ⟨p.script.lines.length, by rw [hlast, List.take_length]⟩

end Program

end ScriptDebugger.Script
