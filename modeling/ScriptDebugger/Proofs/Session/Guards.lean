import ScriptDebugger.Proofs.Registry.Exceptions
import ScriptDebugger.Proofs.Session.Disabled
import ScriptDebugger.Proofs.Session.Notices

namespace ScriptDebugger

namespace Context

def arrive (c : Context) : Hook → Context
  | .enter frame => c.push frame
  | .line file line => c.moveTo file line
  | _ => c

def depart (c : Context) : Hook → Context
  | .exit => c.pop
  | event => c.arrive event

end Context

def Hook.isException : Hook → Bool
  | .exception _ _ => true
  | _ => false

namespace Session

def topFrame? (s : Session) (event : Hook) : Option Frame :=
  s.current?.bind fun c => (c.arrive event).frames.head?

/-- Whether an expression fails, or comes to nothing truthy, in the frame of a report. -/
def rejects (s : Session) (event : Hook) (expression : String) : Bool :=
  match s.host.evaluate s.heap expression (s.topFrame? event) with
  | .ok value => !value.isTruthy
  | .error _ => true

/-- Nobody asked for a stop at a call, at a return or at the next line. -/
structure Unasked (s : Session) : Prop where
  onEntry : s.registry.flags.onEntry = false
  onExit : s.registry.flags.onExit = false
  entryStep : s.entryStep = false
  context : ∀ c ∈ s.current?, c.step = .none ∧ c.breakRequested = false

instance (s : Session) : Decidable s.Unasked :=
  decidable_of_iff
    (s.registry.flags.onEntry = false ∧ s.registry.flags.onExit = false ∧ s.entryStep = false ∧
      ∀ c ∈ s.current?, c.step = .none ∧ c.breakRequested = false)
    ⟨fun h => ⟨h.1, h.2.1, h.2.2.1, h.2.2.2⟩,
      fun h => ⟨h.onEntry, h.onExit, h.entryStep, h.context⟩⟩

/-- The session after a report whose hit stops nothing. -/
def afterHit (s : Session) (c : Context) (event : Hook) : Session :=
  { s.setContext (c.depart event) with registry := (s.registry.hit (s.selectedIn c event)).2 }

section Rejected

variable {s : Session} {c : Context} (hcurrent : s.current? = some c) {id : Breakpoint.Id}
  {b : Breakpoint} {expression : String} (hget : s.registry.get? id = some b)
  (hguard : b.guard? = some expression)

include hcurrent hget hguard

theorem guarded_of_rejects {event : Hook} (hrejects : s.rejects event expression = true)
    {selected : Option Breakpoint.Id} (hselected : selected = some id) {t : Session}
    (hhost : t.host = s.host) (hheap : t.heap = s.heap) :
    t.guarded (c.arrive event) (s.registry.hit selected).1 = none := by
  have hholds : t.guardHolds b.counted (c.arrive event).frames.head? = false := by
    simp only [rejects, topFrame?, hcurrent, Option.bind_some] at hrejects
    simp only [guardHolds, show b.counted.guard? = some expression from hguard, hhost, hheap]
    cases heval : s.host.evaluate s.heap expression (c.arrive event).frames.head? with
    | error e => rfl
    | ok value =>
        rw [heval] at hrejects
        exact Bool.not_eq_eq_eq_not.mp hrejects
  rw [guarded, hselected, Registry.fst_hit, Option.bind_some, hget, Option.bind_some,
    Breakpoint.hit?]
  split
  · rw [Option.filter_some, hholds]
    rfl
  · rfl

theorem onEnter_of_rejects {f : Frame} (hflag : s.registry.flags.onEntry = false)
    (hselected : s.selectedIn c (.enter f) = some id)
    (hrejects : s.rejects (.enter f) expression = true) :
    s.onEnter c f = (s.afterHit c (.enter f)).pass := by
  have hoff : (s.registry.hitCall f.function).2.flags.onEntry = false :=
    (s.registry.flags_hit _).1.trans hflag
  simp only [onEnter]
  split
  · rename_i hstops
    have hnone := guarded_of_rejects hcurrent hget hguard hrejects hselected
      (t := { s.setContext (c.push f) with registry := (s.registry.hitCall f.function).2 }) rfl rfl
    cases (congrArg Option.isSome hnone).symm.trans hstops
  · split
    · rename_i hstops
      cases hoff.symm.trans hstops
    · rfl

theorem onLine_of_rejects {file : String} {line : Nat} (hentry : s.entryStep = false)
    (hstep : c.step = .none) (hbreak : c.breakRequested = false)
    (hselected : s.selectedIn c (.line file line) = some id)
    (hrejects : s.rejects (.line file line) expression = true) :
    s.onLine c ⟨file, line⟩ = (s.afterHit c (.line file line)).pass := by
  have hpending : (c.moveTo file line).stopPending = false := by
    obtain ⟨frames, hmoved⟩ := c.moveTo_eq file line
    rw [hmoved, Context.stopPending, hstep, hbreak]
    rfl
  have hpass : (c.moveTo file line).takePendingStop = (false, c.moveTo file line) := by
    rw [Context.takePendingStop, hpending]
    rfl
  simp only [onLine, hentry, hpass]
  split
  · rename_i hstops
    have hnone := guarded_of_rejects hcurrent hget hguard hrejects hselected
      (t := { s.setContext (c.moveTo file line) with
        registry := (s.registry.hitLine file line).2, entryStep := false }) rfl rfl
    cases hnone.symm.trans hstops
  · simp only [Bool.false_eq_true, if_false]
    rw [← hentry]
    rfl

theorem onExit_of_rejects (hflag : s.registry.flags.onExit = false)
    (hselected : s.selectedIn c .exit = some id)
    (hrejects : s.rejects .exit expression = true) :
    s.onExit c = (s.afterHit c .exit).pass := by
  simp only [onExit_eq]
  split
  · rename_i hstops
    have hnone := guarded_of_rejects hcurrent hget hguard hrejects hselected
      (t := { s with registry := (s.registry.hit (s.selectedIn c .exit)).2 }) rfl rfl
    cases (congrArg Option.isSome hnone).symm.trans hstops
  · split
    · rename_i hstops
      cases ((s.registry.flags_hit _).2.trans hflag).symm.trans hstops
    · rfl

theorem hook_of_rejects {event : Hook} (hunasked : s.Unasked) (hopen : s.closed = false)
    (hkind : event.isException = false) (hselected : s.selectedIn c event = some id)
    (hrejects : s.rejects event expression = true) : s.hook event = (s.afterHit c event).pass := by
  rw [hook, hopen, hcurrent]
  cases event with
  | enter f => exact onEnter_of_rejects hcurrent hget hguard hunasked.onEntry hselected hrejects
  | line file line =>
      exact onLine_of_rejects hcurrent hget hguard hunasked.entryStep (hunasked.context c hcurrent).1
        (hunasked.context c hcurrent).2 hselected hrejects
  | exit => exact onExit_of_rejects hcurrent hget hguard hunasked.onExit hselected hrejects
  | exception className message => cases hkind
  | compile _ | read _ _ | write _ _ => cases hselected

end Rejected

theorem wait?_onException {s : Session} {c : Context} (h : c.stopped = false)
    (className message : String) :
    (s.onException c className message).1.wait?.isSome =
      (s.registry.stopsAtException className && (s.transaction.isSome && s.outbox.isOpen)) := by
  unfold Registry.stopsAtException
  simp only [onException]
  split
  · rename_i hstops
    rw [wait?_suspend _ h, hstops]
    rfl
  · rename_i hstops
    rw [Bool.eq_false_iff.mpr hstops]
    rfl

theorem wait?_exception {s : Session} (hs : s.Reached) {className message : String}
    {id : Breakpoint.Id} {b : Breakpoint}
    (hselected : s.selected? (.exception className message) = some id)
    (hget : s.registry.get? id = some b)
    (htold : (s.transaction.isSome && s.outbox.isOpen) = true) :
    (s.hook (.exception className message)).1.wait?.isSome = b.counted.policyMet := by
  obtain ⟨h, hordered⟩ := hs.consistent
  have hgrounded := Grounded.of_reached hs
  obtain ⟨hopen, c, hcurrent, hfirst⟩ := selected?_eq_some hselected
  have hstopped : c.stopped = false :=
    hgrounded.stopped_eq hopen (hgrounded.current?_eq_some hcurrent).2
  obtain ⟨first, hfirstFor⟩ := Registry.firstFor_of_exceptionFor? h hordered hfirst
  cases hfirstFor.stored.symm.trans hget
  have hstops : s.registry.stopsAtException className = b.counted.policyMet := by
    rw [Registry.stopsAtException_eq h hordered, hfirstFor.exceptionFor?_eq h hordered,
      hfirstFor.fst_hitException h hordered]
    cases b.counted.policyMet with
    | false => rfl
    | true => rfl
  rw [hook_exception hopen hcurrent, wait?_onException hstopped, htold, hstops, Bool.and_true]

/-- While nobody asked for a stop, a hit whose guard rejects it lets the debuggee pass at a call, a
line or a return, and nobody hears of it.  At an exception the guard makes no difference: there the
client hears of a break just when the policy of the breakpoint is met. -/
theorem rejected_hit_stops_only_exceptions {s : Session} {event : Hook} {id : Breakpoint.Id}
    {b : Breakpoint} {expression : String} (hunasked : s.Unasked)
    (hselected : s.selected? event = some id) (hget : s.registry.get? id = some b)
    (hguard : b.guard? = some expression) (hrejects : s.rejects event expression = true) :
    (event.isException = false →
      (s.hook event).1.wait? = none ∧ notices s (s.hook event).2 = [] ∧
        ∃ c, s.current? = some c ∧ s.hook event = (s.afterHit c event).pass) ∧
    (event.isException = true → s.Reached → s.transaction.isSome = true →
      s.outbox.isOpen = true →
        (s.hook event).1.wait?.isSome = b.counted.policyMet ∧
          notices s (s.hook event).2 = if b.counted.policyMet then [.break] else []) := by
  constructor
  · intro hkind
    obtain ⟨hopen, c, hcurrent, hin⟩ := selected?_eq_some hselected
    have hpass : s.hook event = (s.afterHit c event).pass :=
      hook_of_rejects hcurrent hget hguard hunasked hopen hkind hin hrejects
    refine ⟨congrArg (fun result => result.1.wait?) hpass, ?_, c, hcurrent, hpass⟩
    rw [hpass]
    exact notices_of_same rfl
  · intro hkind hs htransaction hqueue
    cases event with
    | exception className message =>
        have hwait := wait?_exception hs hselected hget
          (Bool.and_eq_true_iff.mpr ⟨htransaction, hqueue⟩)
        refine ⟨hwait, ?_⟩
        rw [(hook_outcome (.of_reached hs) _).notices_eq, hwait]
    | _ => cases hkind

def refusing : Host :=
  .ofTable none [("no", .ok (.scalar (.boolean false)))]

def runToGuard (b : Breakpoint) : List Operation :=
  [.breakpoints (.add { b with expression := some "no" }), .enterContext, .command "run -i 1"]

theorem rejected_hit_stops_only_exceptions_refusing :
    let atLine := (opened {} refusing {}).run
      (runToGuard { kind := .conditional, file := "/a.js", line := 1 })
    let atException := (opened {} refusing {}).run
      (runToGuard { kind := .exception, exception := some "E" })
    (atLine.rejects (.line "/a.js" 1) "no" = true ∧
      notices atLine (atLine.hook (.line "/a.js" 1)).2 = []) ∧
    (atException.rejects (.exception "E" "m") "no" = true ∧
      notices atException (atException.hook (.exception "E" "m")).2 = [.break]) := by
  intro s t
  have hunasked : s.Unasked ∧ t.Unasked := by decide +kernel
  have hselected : s.selected? (.line "/a.js" 1) = some 1 ∧
      t.selected? (.exception "E" "m") = some 1 := by decide +kernel
  have hrejects : s.rejects (.line "/a.js" 1) "no" = true ∧
      t.rejects (.exception "E" "m") "no" = true := by decide +kernel
  have hline : (s.registry.get? 1).bind Breakpoint.guard? = some "no" := by decide +kernel
  have hexception : t.registry.get? 1 = some
      { id := 1
        kind := .exception
        exception := some "E"
        expression := some "no" } := by
    decide +kernel
  obtain ⟨b, hget, hguard⟩ := Option.bind_eq_some_iff.mp hline
  have hpasses :=
    rejected_hit_stops_only_exceptions hunasked.1 hselected.1 hget hguard hrejects.1
  have hstops :=
    rejected_hit_stops_only_exceptions hunasked.2 hselected.2 hexception (by decide) hrejects.2
  have hreached : t.Reached := ⟨_, _, _, _, rfl⟩
  have htold : t.transaction.isSome = true ∧ t.outbox.isOpen = true := by decide +kernel
  exact ⟨⟨hrejects.1, (hpasses.1 rfl).2.1⟩,
    hrejects.2, (hstops.2 rfl hreached htold.1 htold.2).2⟩

/-- The guard of a breakpoint for exceptions does not hold, and an exception stops all the same. -/
theorem exception_ignores_guard :
    let s := (opened {} refusing {}).run
      (runToGuard { kind := .exception, exception := some "E" })
    let event := Hook.exception "E" "m"
    s.transaction = some "1" ∧ s.Unasked ∧
      ((s.selected? event).bind s.registry.get?).bind Breakpoint.guard? = some "no" ∧
        s.rejects event "no" = true ∧ (s.hook event).1.wait? = some (.resumption 1 false) := by
  decide +kernel

end Session

end ScriptDebugger
