import ScriptDebugger.Proofs.Registry.Disabled
import ScriptDebugger.Proofs.Session.Breakpoints

namespace ScriptDebugger

namespace Session

def withoutRegistry (s : Session) : Session :=
  { s with registry := {} }

def withoutDisabled (s : Session) : Session :=
  { s with registry := s.registry.withoutDisabled }

/-- Outcomes of a call that tell the same, and differ in the breakpoints at most. -/
structure Alike (x y : Progress × Session) : Prop where
  progress : x.1 = y.1
  session : x.2.withoutRegistry = y.2.withoutRegistry

theorem eq_of_withoutRegistry {s t : Session} (h : t.withoutRegistry = s.withoutRegistry) :
    t = { s with registry := t.registry } :=
  congrArg (fun x : Session => { x with registry := t.registry }) h

namespace Alike

theorem pass {s t : Session} (h : t.withoutRegistry = s.withoutRegistry) :
    Alike t.pass s.pass :=
  ⟨rfl, h⟩

theorem suspend {s t : Session} (h : t.withoutRegistry = s.withoutRegistry) (c : Context)
    (leaving : Bool) (reason : String) :
    Alike (t.suspend c leaving reason) (s.suspend c leaving reason) := by
  rw [eq_of_withoutRegistry h]
  cases hstopped : c.stopped with
  | true =>
      rw [suspend_of_stopped _ hstopped, suspend_of_stopped _ hstopped]
      exact ⟨rfl, rfl⟩
  | false =>
      rw [suspend_eq _ hstopped, suspend_eq _ hstopped]
      cases htold : s.transaction.isSome && s.outbox.isOpen with
      | true => exact ⟨rfl, rfl⟩
      | false => exact ⟨rfl, rfl⟩

theorem ite {p q : Bool} {x x' y y' : Progress × Session} (hpq : p = q) (hx : Alike x x')
    (hy : Alike y y') : Alike (if p then x else y) (if q then x' else y') := by
  subst hpq
  cases p with
  | true => exact hx
  | false => exact hy

end Alike

section WithoutDisabled

variable {s : Session} (h : s.registry.Consistent) (hordered : s.registry.Ordered)

include h hordered

theorem onEnter_withoutDisabled (c : Context) (f : Frame) :
    Alike (s.withoutDisabled.onEnter c f) (s.onEnter c f) := by
  have hhit : (s.registry.withoutDisabled.hitCall f.function).1 =
      (s.registry.hitCall f.function).1 :=
    Registry.fst_hit_withoutDisabled h hordered (.call f.function)
  have hflag : (s.registry.withoutDisabled.hitCall f.function).2.flags.onEntry =
      (s.registry.hitCall f.function).2.flags.onEntry :=
    (Registry.flags_hit _ _).1.trans (s.registry.flags_hit _).1.symm
  simp only [onEnter]
  refine .ite ?_ (.suspend ?_ _ _ _) (.ite hflag (.suspend ?_ _ _ _) (.pass ?_))
  · change (guarded _ _ (s.registry.withoutDisabled.hitCall f.function).1).isSome = _
    rw [hhit]
    rfl
  · rfl
  · rfl
  · rfl

theorem onLine_withoutDisabled (c : Context) (location : Location) :
    Alike (s.withoutDisabled.onLine c location) (s.onLine c location) := by
  have hhit : (s.registry.withoutDisabled.hitLine location.file location.line).1 =
      (s.registry.hitLine location.file location.line).1 :=
    Registry.fst_hit_withoutDisabled h hordered (.line location)
  simp only [onLine]
  generalize hleft : guarded _ _
    (s.withoutDisabled.registry.hitLine location.file location.line).1 = left
  generalize hright : guarded _ _ (s.registry.hitLine location.file location.line).1 = right
  have hguarded : left = right := by
    rw [← hleft, ← hright, ← hhit]
    rfl
  subst hguarded
  cases left with
  | some b =>
      refine .suspend ?_ _ _ _
      rfl
  | none =>
      refine .ite ?_ (.suspend ?_ _ _ _) (.pass ?_)
      · rfl
      · rfl
      · rfl

theorem onExit_withoutDisabled (c : Context) :
    Alike (s.withoutDisabled.onExit c) (s.onExit c) := by
  have hhit (function : String) : (s.registry.withoutDisabled.hitLeave function).1 =
      (s.registry.hitLeave function).1 :=
    Registry.fst_hit_withoutDisabled h hordered (.leave function)
  have hflag (function : String) :
      (s.registry.withoutDisabled.hitLeave function).2.flags.onExit =
        (s.registry.hitLeave function).2.flags.onExit :=
    (Registry.flags_hit _ _).2.trans (s.registry.flags_hit _).2.symm
  simp only [onExit]
  refine .ite ?_ (.suspend ?_ _ _ _) (.ite (hflag _) (.suspend ?_ _ _ _) (.pass ?_))
  · change (guarded _ _ (s.registry.withoutDisabled.hitLeave _).1).isSome = _
    rw [hhit]
    rfl
  · rfl
  · rfl
  · rfl

theorem onException_withoutDisabled (hmutes : s.registry.mutesExceptions = false) (c : Context)
    (className message : String) :
    Alike (s.withoutDisabled.onException c className message)
      (s.onException c className message) := by
  simp only [onException]
  refine .ite ?_ (.suspend ?_ _ _ _) (.pass ?_)
  · exact Registry.stopsAtException_withoutDisabled h hordered hmutes className
  · rfl
  · rfl

theorem onRead_withoutDisabled (c : Context) (owner : ObjectId) (property : String) :
    Alike (s.withoutDisabled.onRead c owner property) (s.onRead c owner property) := by
  have hwatchers (p : Breakpoint → Bool) :
      ((s.registry.withoutDisabled.watchersOf property).any fun b =>  b.isEnabled && p b) =
        (s.registry.watchersOf property).any fun b => b.isEnabled && p b := by
    rw [Registry.watchersOf_withoutDisabled h hordered, List.any_filter]
    simp only [← Bool.and_assoc, Bool.and_self]
  unfold onRead
  rw [show s.withoutDisabled.lastWrites = s.lastWrites from rfl]
  cases s.lastWrites.get? owner with
  | none => exact .pass rfl
  | some location =>
      refine .ite ?_ (.suspend ?_ _ _ _) (.pass ?_)
      · simp only [Bool.and_assoc]
        exact hwatchers _
      · rfl
      · rfl

theorem onWrite_withoutDisabled (c : Context) (owner : ObjectId) (property : String) :
    Alike (s.withoutDisabled.onWrite c owner property) (s.onWrite c owner property) := by
  have hwatchers :
      (s.registry.withoutDisabled.watchersOf property).filter Breakpoint.isEnabled =
        (s.registry.watchersOf property).filter Breakpoint.isEnabled := by
    rw [Registry.watchersOf_withoutDisabled h hordered, List.filter_filter]
    simp only [Bool.and_self]
  unfold onWrite
  cases c.location? with
  | none => exact .pass rfl
  | some here =>
      simp only [withoutDisabled, hwatchers]
      refine .ite ?_ (.suspend ?_ _ _ _) (.pass ?_)
      · rfl
      · rfl
      · rfl

theorem onException_of_mutes (hmutes : s.registry.mutesExceptions = true) (c : Context)
    (className message : String) :
    Alike (s.onException c className message) s.pass ∧
      Alike (s.withoutDisabled.onException c className message)
        (s.suspend c false ("Exception " ++ className ++ ": " ++ message)) := by
  obtain ⟨hpasses, hstops⟩ := Registry.stopsAtException_of_mutes h hordered hmutes className
  unfold Registry.stopsAtException at hpasses hstops
  constructor
  · simp only [onException, hpasses, Bool.false_eq_true, if_false]
    exact .pass rfl
  · simp only [onException, withoutDisabled, hstops, if_true]
    refine .suspend ?_ _ _ _
    rfl

end WithoutDisabled

theorem hook_exception {s : Session} {c : Context} (hopen : s.closed = false)
    (hcurrent : s.current? = some c) (className message : String) :
    s.hook (.exception className message) = s.onException c className message := by
  rw [hook, hopen, hcurrent]
  rfl

/-- Whether disabled breakpoints make a difference to a report. -/
def mutes (s : Session) : Hook → Bool
  | .exception _ _ => s.registry.mutesExceptions
  | _ => false

/-- A report comes to the same without the disabled breakpoints, unless these mute it: then the
debuggee goes on where it would stop.  In no case does the report change them. -/
theorem hook_withoutDisabled {s : Session} (hs : s.Reached) (event : Hook) :
    (s.mutes event = false ∨ s.closed = true ∨ s.current? = none →
        Alike (s.withoutDisabled.hook event) (s.hook event)) ∧
      (∀ c className message, event = .exception className message → s.mutes event = true →
        s.closed = false → s.current? = some c →
          Alike (s.hook event) s.pass ∧
            Alike (s.withoutDisabled.hook event)
              (s.suspend c false ("Exception " ++ className ++ ": " ++ message))) ∧
        (s.hook event).2.registry.disabled = s.registry.disabled := by
  obtain ⟨h, hordered⟩ := hs.consistent
  refine ⟨?same, ?muted, ?kept⟩
  case same =>
    intro hmutes
    unfold hook
    rw [show s.withoutDisabled.closed = s.closed from rfl,
      show s.withoutDisabled.current? = s.current? from rfl]
    cases hclosed : s.closed with
    | true => exact ⟨rfl, rfl⟩
    | false =>
        cases hcurrent : s.current? with
        | none => exact .pass rfl
        | some c =>
            have hmutes : s.mutes event = false := by simpa [hclosed, hcurrent] using hmutes
            cases event with
            | compile file => exact .pass rfl
            | enter frame => exact onEnter_withoutDisabled h hordered c frame
            | line file line => exact onLine_withoutDisabled h hordered c ⟨file, line⟩
            | exit => exact onExit_withoutDisabled h hordered c
            | exception className message =>
                exact onException_withoutDisabled h hordered hmutes c className message
            | read owner property => exact onRead_withoutDisabled h hordered c owner property
            | write owner property => exact onWrite_withoutDisabled h hordered c owner property
  case muted =>
    rintro c className message rfl hmutes hopen hcurrent
    have hwithout := hook_exception (s := s.withoutDisabled) hopen hcurrent className message
    rw [hook_exception hopen hcurrent, hwithout]
    exact onException_of_mutes h hordered hmutes c className message
  case kept =>
    obtain ⟨selected, hselected⟩ := s.registry_hook event
    rw [hselected]
    exact Registry.disabled_hit h hordered selected

def runPastDisabled : List Operation :=
  [.breakpoints (.add { kind := .line, file := "/a.js", line := 1, state := .disabled }),
    .breakpoints (.add { kind := .line, file := "/a.js", line := 2 }), .enterContext,
    .command "run -i 1", .hook (.line "/a.js" 1)]

theorem hook_withoutDisabled_at_enabled :
    let s := (opened {} (Host.ofTable none []) {}).run runPastDisabled
    s.registry.disabled.map Breakpoint.line = [1] ∧ (s.hook (.line "/a.js" 2)).1.wait?.isSome ∧
      Alike (s.withoutDisabled.hook (.line "/a.js" 2)) (s.hook (.line "/a.js" 2)) := by
  intro s
  refine ⟨by decide +kernel, by decide +kernel, ?_⟩
  exact (hook_withoutDisabled ⟨_, _, _, _, rfl⟩ (.line "/a.js" 2)).1 (.inl rfl)

/-- The client wants to hear of every exception, and a disabled breakpoint for another one keeps
this one from it. -/
theorem disabled_breakpoint_mutes :
    let s := (opened {} (Host.ofTable none []) {}).run
      [.command "feature_set -i 1 -n suspend_on_exception -v 1",
        .command "breakpoint_set -i 2 -t exception -x TypeError -s disabled", .enterContext,
        .command "run -i 3"]
    let event := Hook.exception "RangeError" "m"
    (s.hook event).1.wait? = none ∧
      (s.withoutDisabled.hook event).1.wait? = some (.resumption 1 false) := by
  decide +kernel

end Session

end ScriptDebugger
