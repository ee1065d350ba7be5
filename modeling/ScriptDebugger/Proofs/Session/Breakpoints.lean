import ScriptDebugger.Proofs.Session.Contexts

namespace ScriptDebugger

namespace Session

/-- The operations of its registry that an operation of a session can do, if it is no report. -/
def Operation.Causes : Operation → Registry.Operation → Prop
  | .command line, change => change = .clear ∨ ∃ c, Command.parse line = .ok c ∧ c.Makes change
  | .breakpoints operation, change => change = operation
  | _, change => change = .clear

theorem registry_close (s : Session) :
    ∃ changes, (∀ change ∈ changes, change = .clear) ∧
      s.close.registry = s.registry.run changes := by
  unfold close
  split
  · exact ⟨[], by simp, rfl⟩
  · exact ⟨[.clear], by simp, rfl⟩

theorem registry_onEnter (s : Session) (c : Context) (f : Frame) :
    (s.onEnter c f).2.registry = (s.registry.hitCall f.function).2 := by
  simp only [onEnter]
  split
  · exact registry_aside.suspend _ _ _ _
  · split
    · exact registry_aside.suspend _ _ _ _
    · rfl

theorem registry_onLine (s : Session) (c : Context) (location : Location) :
    (s.onLine c location).2.registry = (s.registry.hitLine location.file location.line).2 := by
  simp only [onLine]
  split
  · exact registry_aside.suspend _ _ _ _
  · cases s.entryStep with
    | true => exact registry_aside.suspend _ _ _ _
    | false =>
        simp only [Bool.false_eq_true, if_false]
        split
        · exact registry_aside.suspend _ _ _ _
        · rfl

theorem registry_onExit (s : Session) (c : Context) :
    (s.onExit c).2.registry =
      (s.registry.hitLeave ((c.frames.head?.map Frame.function).getD "")).2 := by
  simp only [onExit_eq]
  split
  · exact registry_aside.suspend _ _ _ _
  · split
    · exact registry_aside.suspend _ _ _ _
    · rfl

theorem registry_onException (s : Session) (c : Context) (className message : String) :
    (s.onException c className message).2.registry =
      (s.registry.hitException className).2 := by
  simp only [onException]
  split
  · exact registry_aside.suspend _ _ _ _
  · rfl

theorem registry_onRead (s : Session) (c : Context) (owner : ObjectId) (property : String) :
    (s.onRead c owner property).2.registry = s.registry := by
  simp only [onRead]
  split
  · rfl
  · split
    · exact registry_aside.suspend _ _ _ _
    · rfl

theorem registry_onWrite (s : Session) (c : Context) (owner : ObjectId) (property : String) :
    (s.onWrite c owner property).2.registry = s.registry := by
  simp only [onWrite]
  split
  · rfl
  · split
    · exact registry_aside.suspend _ _ _ _
    · rfl

def selectedIn (s : Session) (c : Context) : Hook → Option Breakpoint.Id
  | .enter frame => s.registry.calls.get? frame.function
  | .line file line => s.registry.lines.get? ⟨file, line⟩
  | .exit => s.registry.leaves.get? ((c.frames.head?.map Frame.function).getD "")
  | .exception className _ => s.registry.exceptionFor? className
  | _ => none

/-- The breakpoint that a report selects, if the session is open and has a context. -/
def selected? (s : Session) (event : Hook) : Option Breakpoint.Id :=
  if s.closed then none else s.current?.bind fun c => s.selectedIn c event

theorem selected?_eq_some {s : Session} {event : Hook} {id : Breakpoint.Id}
    (h : s.selected? event = some id) :
    s.closed = false ∧ ∃ c, s.current? = some c ∧ s.selectedIn c event = some id := by
  obtain ⟨hopen, hbind⟩ := Option.ite_none_left_eq_some.mp h
  exact ⟨Bool.eq_false_iff.mpr hopen, Option.bind_eq_some_iff.mp hbind⟩

theorem registry_hook_selected (s : Session) (event : Hook) :
    (s.hook event).2.registry = (s.registry.hit (s.selected? event)).2 := by
  unfold hook selected?
  cases s.closed with
  | true => rfl
  | false =>
      cases s.current? with
      | none => rfl
      | some c =>
          cases event with
          | compile file => rfl
          | enter frame => exact s.registry_onEnter c frame
          | line file line => exact s.registry_onLine c ⟨file, line⟩
          | exit => exact s.registry_onExit c
          | exception className message => exact s.registry_onException c className message
          | read owner property => exact s.registry_onRead c owner property
          | write owner property => exact s.registry_onWrite c owner property

theorem registry_hook (s : Session) (event : Hook) :
    ∃ selected, (s.hook event).2.registry = (s.registry.hit selected).2 :=
  ⟨_, s.registry_hook_selected event⟩

theorem registry_close_of_same (ended : Session) {s : Session}
    (h : ended.registry = s.registry) :
    ∃ changes, (∀ change ∈ changes, change = .clear) ∧
      ended.close.registry = s.registry.run changes :=
  h ▸ ended.registry_close

theorem registry_dispatch (s : Session) (line : String) :
    ∃ changes, (∀ change ∈ changes, (Operation.command line).Causes change) ∧
      (s.dispatch line).registry = s.registry.run changes := by
  rcases s.dispatch_effect line with ⟨hsame, _⟩ | ⟨c, hparse, heffect⟩
  · rw [hsame]
    exact ⟨[], by simp, rfl⟩
  · generalize s.dispatch line = result at heffect
    cases heffect with
    | resumed _ =>
        exact ⟨[], by simp, (registry_aside.resume _ _).trans (registry_aside.talk.adopt s _)⟩
    | interrupted _ _ _ => exact ⟨[], by simp, registry_aside.contexts.requestBreak s⟩
    | stopped _ _ _ =>
        obtain ⟨changes, hclear, h⟩ :=
          (s.reportEnd.answer _).registry_close_of_same (registry_aside.talk.reportEnd s)
        exact ⟨changes, fun change hchange => .inl (hclear change hchange), h⟩
    | answered _ hmakes _ _ =>
        exact ⟨_, fun change hchange => .inr ⟨c, hparse, hmakes change hchange⟩, rfl⟩

theorem registry_after (s : Session) (operation : Operation) :
    (∃ selected, (s.after operation).registry = (s.registry.hit selected).2) ∨
      ∃ changes, (∀ change ∈ changes, operation.Causes change) ∧
        (s.after operation).registry = s.registry.run changes := by
  have hsame (h : (s.after operation).registry = s.registry) :
      ∃ changes, (∀ change ∈ changes, operation.Causes change) ∧
        (s.after operation).registry = s.registry.run changes :=
    ⟨[], by simp, h⟩
  cases operation with
  | command line => exact .inr (s.registry_dispatch line)
  | hook event => exact .inl (s.registry_hook event)
  | awaitStart => exact .inr (hsame (registry_aside.contexts.settle s .start))
  | proceed wait => exact .inr (hsame (registry_aside.contexts.settle s wait))
  | enterContext =>
      refine .inr (hsame ?_)
      rw [after, perform, enterContext]
      cases s.closed with
      | true => rfl
      | false => rfl
  | adopt transaction => exact .inr (hsame (registry_aside.talk.adopt s transaction))
  | resume mode => exact .inr (hsame (registry_aside.resume s mode))
  | requestBreak => exact .inr (hsame (registry_aside.contexts.requestBreak s))
  | reportBreak reason => exact .inr (hsame (registry_aside.talk.reportBreak s reason))
  | reportEnd => exact .inr (hsame (registry_aside.talk.reportEnd s))
  | finish => exact .inr (s.reportEnd.registry_close_of_same (registry_aside.talk.reportEnd s))
  | close => exact .inr s.registry_close
  | write stream text => exact .inr (hsame (registry_aside.talk.write s stream text))
  | breakpoints operation => exact .inr ⟨[operation], by simp [Operation.Causes], rfl⟩
  | _ => exact .inr (hsame rfl)

/-- Whatever led to a session, the indexes of its registry fit the breakpoints in it. -/
theorem Reached.consistent {s : Session} (h : s.Reached) :
    s.registry.Consistent ∧ s.registry.Ordered := by
  obtain ⟨settings, host, heap, operations, rfl⟩ := h
  have hopened : (opened settings host heap).registry.Ordered := List.Pairwise.nil
  refine run_induction (motive := fun s => s.registry.Consistent ∧ s.registry.Ordered)
    ⟨.empty, hopened⟩ ?_ operations
  rintro s ⟨hconsistent, hordered⟩ operation
  rcases s.registry_after operation with ⟨selected, h⟩ | ⟨changes, _, h⟩
  · rw [h]
    exact ⟨hconsistent.hit selected, hordered.hit hconsistent selected⟩
  · rw [h]
    exact ⟨hconsistent.run changes, hordered.run hconsistent changes⟩

end Session

end ScriptDebugger
