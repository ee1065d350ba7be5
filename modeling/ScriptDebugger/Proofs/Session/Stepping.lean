import ScriptDebugger.Proofs.Session.Nesting
import ScriptDebugger.Proofs.Session.RunRequest

namespace ScriptDebugger

def StepMode.allows (mode : StepMode) (asked depth : Nat) : Bool :=
  match mode with
  | .none => false
  | .into => true
  | .over => decide (depth ≤ asked)
  | .out => decide (depth < asked)

namespace Context

/-- The client asked for this step at this depth, and for nothing else. -/
structure Seeks (c : Context) (mode : StepMode) (asked : Nat) : Prop where
  step : c.step = mode
  stepDepth : c.stepDepth = asked
  breakRequested : c.breakRequested = false

namespace Seeks

variable {c : Context} {mode : StepMode} {asked : Nat}

theorem stopPending (h : c.Seeks mode asked) : c.stopPending = mode.allows asked c.depth := by
  rw [Context.stopPending, h.step, h.stepDepth, h.breakRequested, Bool.false_or]
  cases mode with
  | none => rfl
  | _ => rfl

theorem withFrames (h : c.Seeks mode asked) (frames : List Frame) :
    { c with frames := frames }.Seeks mode asked :=
  ⟨h.step, h.stepDepth, h.breakRequested⟩

theorem moveTo (h : c.Seeks mode asked) (file : String) (line : Nat) :
    (c.moveTo file line).Seeks mode asked := by
  obtain ⟨frames, hmoved⟩ := c.moveTo_eq file line
  rw [hmoved]
  exact h.withFrames frames

end Seeks

end Context

namespace Session

theorem entryStep_onLine (s : Session) (c : Context) (location : Location) :
    (s.onLine c location).2.entryStep = false := by
  have hsuspend : ∀ (middle : Session) next leaving reason,
      (middle.suspend next leaving reason).2.entryStep = middle.entryStep :=
    entryStep_hidesContexts.suspend entryStep_hidesTalk
  simp only [onLine]
  split
  · rw [hsuspend]
  · cases s.entryStep with
    | true => exact hsuspend _ _ _ _
    | false =>
        simp only [Bool.false_eq_true, if_false]
        split
        · exact hsuspend _ _ _ _
        · rfl

theorem entryStep_hook_line {s : Session} {file : String} {line : Nat} {wait : Wait}
    (hwait : (s.hook (.line file line)).1.wait? = some wait) :
    (s.hook (.line file line)).2.entryStep = false := by
  unfold hook at hwait ⊢
  cases hclosed : s.closed with
  | true =>
      rw [hclosed] at hwait
      cases hwait
  | false =>
      cases hcurrent : s.current? with
      | none =>
          rw [hclosed, hcurrent] at hwait
          cases hwait
      | some c => exact entryStep_onLine s c ⟨file, line⟩

theorem entryStep_after {s : Session} {operation : Operation}
    (hhook : ∀ event, operation ≠ .hook event) (hresume : ∀ mode, operation ≠ .resume mode)
    (hresumes : operation.resumes = false) : (s.after operation).entryStep = s.entryStep := by
  cases operation with
  | command line =>
      rcases s.dispatch_effect line with ⟨hsame, _⟩ | ⟨command, hparse, heffect⟩
      · exact congrArg entryStep hsame
      · change (s.dispatch line).entryStep = _
        generalize s.dispatch line = result at heffect
        cases heffect with
        | resumed hmode =>
            rw [resumes_of_mode? hparse hmode] at hresumes
            cases hresumes
        | interrupted _ _ => exact entryStep_hidesContexts.requestBreak s
        | stopped _ => exact (entryStep_close _).trans (entryStep_hidesTalk.reportEnd s)
        | answered _ _ => rfl
  | hook event => exact absurd rfl (hhook event)
  | resume mode => exact absurd rfl (hresume mode)
  | awaitStart => exact entryStep_hidesContexts.settle s .start
  | proceed wait => exact entryStep_hidesContexts.settle s wait
  | enterContext =>
      simp only [after, perform, enterContext]
      split
      · rename_i h
        split at h
        · cases h
        · cases h
          rfl
      · rfl
  | adopt transaction => exact entryStep_hidesTalk.adopt s transaction
  | requestBreak => exact entryStep_hidesContexts.requestBreak s
  | reportBreak reason => exact entryStep_hidesTalk.reportBreak s reason
  | reportEnd => exact entryStep_hidesTalk.reportEnd s
  | finish => exact (entryStep_close _).trans (entryStep_hidesTalk.reportEnd s)
  | close => exact entryStep_close s
  | write stream text => exact entryStep_hidesTalk.write s stream text
  | exitContext id | markInitialized | announce fileUri | addListener tag | removeListener id
  | breakpoints operation | configure settings | redirect streams | mutate heap | dropClient
  | collect => rfl

theorem wait?_hook_of_unheard {s : Session} (hs : s.Grounded) (hheard : s.outbox.isOpen = false)
    (event : Hook) : (s.hook event).1.wait? = none := by
  rcases s.hook_effect event with ⟨_, h⟩ | ⟨_, _, h⟩ | ⟨hopen, c, hcurrent, heffect⟩
  · rw [h]
    rfl
  · rw [h]
    rfl
  · have hrunning : c.stopped = false := hs.stopped_eq hopen (hs.current?_eq_some hcurrent).2
    generalize s.hook event = result at heffect
    cases heffect with
    | passed _ _ => rfl
    | asked _ hmoved leaving reason _ =>
        rw [suspend_eq _ (hmoved.stopped.trans hrunning)]
        dsimp only
        rw [hheard, Bool.and_false]
        rfl

namespace Scene

variable {x : Scene} {operation : Operation} {id : ContextId} {c : Context}

/-- The thread of the debuggee waits in a context at a line that it reached. -/
inductive AtLine : Scene → ContextId → Prop where
  | reached {x : Scene} {file : String} {line : Nat} {id : ContextId} (hx : x.Threaded)
      (hturn : x.InTurn (.hook (.line file line)))
      (hwait : (x.after (.hook (.line file line))).waiting = some (.resumption id false)) :
      AtLine (x.after (.hook (.line file line))) id
  | since {x : Scene} {operation : Operation} {id : ContextId} (h : AtLine x id)
      (hturn : x.InTurn operation)
      (hwait : (x.after operation).waiting = some (.resumption id false)) :
      AtLine (x.after operation) id

theorem exists_resume_of_resumes (hcurrent : x.session.current? = some c)
    (hsuspended : c.isSuspended = true)
    (hresumes : operation.resumes = true ∨ ∃ mode, operation = .resume mode) :
    ∃ mode, (x.after operation).session.context? c.id = some (c.resume mode) := by
  have hresumed : ∀ {s : Session} mode, s.current? = some c →
      (s.resume mode).context? c.id = some (c.resume mode) := by
    intro s mode hs
    rw [resume_of_suspended hs hsuspended]
    exact context?_setContext_self s.markInitialized (c.resume mode)
  rcases hresumes with hresumes | ⟨mode, rfl⟩
  · obtain ⟨line, command, mode, rfl, hparse, hmode⟩ := exists_mode?_of_resumes hresumes
    have hdispatch : x.session.dispatch line = (x.session.adopt command.transaction?).resume mode :=
      dispatch_of_parse hparse (execute_of_mode? hmode)
    refine ⟨mode, (congrArg (fun s => s.context? c.id) hdispatch).trans (hresumed mode ?_)⟩
    exact (current?_congr (stage_hidesTalk.adopt _ _)).trans hcurrent
  · exact ⟨mode, hresumed mode hcurrent⟩

namespace AtLine

theorem threaded (h : x.AtLine id) : x.Threaded := by
  induction h with
  | reached hx hturn _ => exact .step hx hturn
  | since _ hturn _ ih => exact .step ih hturn

theorem waiting (h : x.AtLine id) : x.waiting = some (.resumption id false) := by
  cases h with
  | reached _ _ hwait => exact hwait
  | since _ _ hwait => exact hwait

theorem entryStep (h : x.AtLine id) (hopen : x.session.closed = false)
    (hget : x.session.context? id = some c) (hsuspended : c.isSuspended = true) :
    x.session.entryStep = false := by
  induction h generalizing c with
  | reached _ _ hwait => exact entryStep_hook_line hwait
  | @since x operation id h hturn _ ih =>
      have hhook : ∀ event, operation ≠ .hook event := by
        rintro event rfl
        cases h.waiting.symm.trans hturn
      have hbefore := closed_of_after hopen
      have hnested := h.threaded.nested hbefore
      obtain ⟨before, hwas, hheld⟩ :=
        suspended_of_after hnested.grounded hhook hopen hget hsuspended
      obtain rfl := hnested.grounded.id_eq hwas
      have hcurrent : x.session.current? = some before :=
        current?_eq_some_iff.mpr ⟨_, hnested.current h.waiting, hwas⟩
      have hnever : ¬(operation.resumes = true ∨ ∃ mode, operation = .resume mode) := by
        intro hresumes
        obtain ⟨mode, hresumed⟩ := exists_resume_of_resumes hcurrent hheld hresumes
        cases hget.symm.trans hresumed
        cases hsuspended
      obtain ⟨hresumes, hresume⟩ := not_or.mp hnever
      have hsame : (x.session.after operation).entryStep = x.session.entryStep :=
        entryStep_after hhook (not_exists.mp hresume) (Bool.eq_false_iff.mpr hresumes)
      exact hsame.trans (ih hbefore hwas hheld)

end AtLine

def first? (x : Scene) (p : Scene → Operation → Bool) : List Operation → Option Nat
  | [] => none
  | operation :: rest =>
      if p x operation then some 0 else ((x.after operation).first? p rest).map (· + 1)

def stopsAt (x : Scene) (operation : Operation) : Bool :=
  (x.after operation).waiting.isSome

def endsStep (id : ContextId) (mode : StepMode) (asked : Nat) (x : Scene) : Operation → Bool
  | .hook (.line file line) =>
      x.session.current?.any fun c => c.id == id && mode.allows asked (c.moveTo file line).depth
  | _ => false

/-- The thread of the debuggee waits in a context, and no step or other request is left. -/
structure Stepped (x : Scene) (c : Context) : Prop extends Paused x c false where
  step : c.step = .none
  breakRequested : c.breakRequested = false
  entryStep : x.session.entryStep = false

/-- A context has a step left, those above it have none, and somebody waits to hear of its end. -/
structure Stepping (x : Scene) (id : ContextId) (mode : StepMode) (asked : Nat) : Prop where
  nested : x.Nested
  running : x.waiting = none
  awaited : x.session.Awaited
  entered : id ∈ x.session.active
  mine : ∃ c, x.session.context? id = some c ∧ c.Seeks mode asked
  above : ∀ {other c}, other ∈ x.session.active → id < other →
    x.session.context? other = some c → ∃ asked, c.Seeks .none asked

namespace Stepping

variable {mode : StepMode} {asked : Nat}

theorem current (h : x.Stepping id mode asked) {c : Context}
    (hcurrent : x.session.current? = some c) :
    (c.id = id ∧ c.Seeks mode asked) ∨ (id < c.id ∧ ∃ asked, c.Seeks .none asked) := by
  obtain ⟨hhead, hget⟩ := h.nested.grounded.current?_eq_some hcurrent
  rcases Nat.eq_or_lt_of_le (h.nested.le_head h.entered hhead) with heq | hlt
  · obtain ⟨mine, hmine, hseeks⟩ := h.mine
    rw [heq, hget] at hmine
    cases hmine
    exact .inl ⟨heq.symm, hseeks⟩
  · exact .inr ⟨hlt, h.above (List.mem_of_mem_head? hhead) hlt hget⟩

theorem endsStep_line (h : x.Stepping id mode asked) {c : Context}
    (hcurrent : x.session.current? = some c) (file : String) (line : Nat) :
    endsStep id mode asked x (.hook (.line file line)) = (c.moveTo file line).stopPending := by
  rw [endsStep, hcurrent, Option.any_some]
  rcases h.current hcurrent with ⟨hid, hseeks⟩ | ⟨hlt, _, hseeks⟩
  · rw [(hseeks.moveTo file line).stopPending, hid, beq_self_eq_true, Bool.true_and]
  · rw [(hseeks.moveTo file line).stopPending, beq_eq_false_iff_ne.mpr (Nat.ne_of_gt hlt),
      Bool.false_and]
    rfl

theorem stepped_of_endsStep (h : x.Stepping id mode asked)
    (hends : endsStep id mode asked x operation = true) :
    ∃ last : Context, last.id = id ∧ (x.after operation).Stepped last := by
  unfold endsStep at hends
  split at hends
  · rename_i file line
    obtain ⟨c, hcurrent, hc⟩ := (Option.any_eq_true _ _).mp hends
    obtain ⟨hid, _⟩ := Bool.and_eq_true_iff.mp hc
    have hpending : (c.moveTo file line).stopPending = true :=
      (h.endsStep_line hcurrent file line).symm.trans hends
    have hmoved := Context.Moved.moveTo c file line
    have hhook := h.awaited.hook_line_of_pending h.nested.grounded hcurrent hpending
    rw [← hmoved.id] at hhook
    have hhead : x.session.active.head? = some (c.moveTo file line).halt.id :=
      (h.nested.grounded.current?_eq_some hcurrent).1.trans (congrArg some hmoved.id.symm)
    refine ⟨(c.moveTo file line).halt, hmoved.id.trans (eq_of_beq hid), ?_⟩
    constructor
    case toPaused =>
      refine .of_hook hhook ?_ rfl
      exact current?_eq_some_iff.mpr ⟨_, hhead, context?_setContext_self _ _⟩
    case step => rfl
    case breakRequested => rfl
    case entryStep =>
      exact (congrArg (fun result => result.2.entryStep) hhook).trans h.awaited.entryStep
  · cases hends

theorem same (h : x.Stepping id mode asked) {next : Scene} (hnested : next.Nested)
    (hrunning : next.waiting = none) (hsession : next.session = x.session) :
    next.Stepping id mode asked where
  nested := hnested
  running := hrunning
  awaited := hsession ▸ h.awaited
  entered := hsession ▸ h.entered
  mine := hsession ▸ h.mine
  above := by
    rw [hsession]
    exact h.above

theorem moved (h : x.Stepping id mode asked) {next : Scene} (hnested : next.Nested)
    (hrunning : next.waiting = none) {c : Context} (hcurrent : x.session.current? = some c)
    {frames : List Frame}
    (hsession : next.session = x.session.setContext { c with frames := frames }) :
    next.Stepping id mode asked := by
  have hcontext : ∀ other, next.session.context? other =
      if c.id = other then some { c with frames := frames } else x.session.context? other := by
    intro other
    rw [hsession]
    exact x.session.context?_setContext _ other
  have hwhere := h.current hcurrent
  constructor
  case nested => exact hnested
  case running => exact hrunning
  case awaited =>
    rw [hsession]
    exact h.awaited.setContext _
  case entered =>
    rw [hsession]
    exact h.entered
  case mine =>
    rcases hwhere with ⟨hid, hseeks⟩ | ⟨hlt, _⟩
    · exact ⟨_, (hcontext id).trans (if_pos hid), hseeks.withFrames frames⟩
    · rw [hcontext, if_neg (Nat.ne_of_gt hlt)]
      exact h.mine
  case above =>
    intro other found hmem hlt hget
    rw [hsession] at hmem
    rw [hcontext] at hget
    split at hget
    · rename_i hid
      cases hget
      rcases hwhere with ⟨hmine, _⟩ | ⟨_, asked, hseeks⟩
      · exact absurd (hmine.symm.trans hid) (Nat.ne_of_lt hlt)
      · exact ⟨asked, hseeks.withFrames frames⟩
    · exact h.above hmem hlt hget

theorem hook (h : x.Stepping id mode asked) {event : Hook}
    (hends : endsStep id mode asked x (.hook event) = false) :
    (x.after (.hook event)).Stepping id mode asked := by
  have hopen := h.awaited.opened
  have hturn : x.InTurn (.hook event) := h.running
  have hnested : (x.session.hook event).2.closed = false → (x.after (.hook event)).Nested :=
    h.nested.after hturn
  have hpassed : x.session.hook event = x.session.pass →
      (x.after (.hook event)).Stepping id mode asked := by
    intro hpass
    rw [hpass] at hnested
    exact h.same (hnested hopen) (congrArg (fun result => result.1.wait?) hpass)
      (congrArg Prod.snd hpass)
  cases hcurrent : x.session.current? with
  | none =>
      refine hpassed ?_
      rw [Session.hook, hopen, hcurrent]
      rfl
  | some c =>
      have hnever : ∀ file line, event = .line file line →
          (c.moveTo file line).stopPending = false := by
        rintro file line rfl
        exact (h.endsStep_line hcurrent file line).symm.trans hends
      rcases hook_of_silent h.awaited.silent h.awaited.entryStep hopen hcurrent event hnever with
        hpass | ⟨frames, hmoved⟩
      · exact hpassed hpass
      · rw [hmoved] at hnested
        exact h.moved (hnested hopen) (congrArg (fun result => result.1.wait?) hmoved) hcurrent
          (congrArg Prod.snd hmoved)

theorem enterContext (h : x.Stepping id mode asked) :
    (x.after .enterContext).Stepping id mode asked := by
  have hopen := h.awaited.opened
  have hafter : (x.after .enterContext).session =
      { x.session.setContext { id := x.session.contexts.length + 1 } with
        active := (x.session.contexts.length + 1) :: x.session.active } :=
    after_enterContext hopen
  have hkept : ∀ {other c}, x.session.context? other = some c →
      (x.after .enterContext).session.context? other = some c := fun hget =>
    (h.nested.numbered.context?_enterContext hopen hget).trans hget
  constructor
  case nested =>
    refine h.nested.after h.running ?_
    rw [hafter]
    exact hopen
  case running => exact h.running
  case awaited =>
    rw [hafter]
    exact ⟨h.awaited.silent, h.awaited.entryStep, hopen, h.awaited.pending, h.awaited.heard⟩
  case entered =>
    rw [hafter]
    exact List.mem_cons_of_mem _ h.entered
  case mine =>
    obtain ⟨c, hget, hseeks⟩ := h.mine
    exact ⟨c, hkept hget, hseeks⟩
  case above =>
    intro other c hmem hlt hget
    rw [hafter] at hmem hget
    rw [context?_of_set rfl] at hget
    split at hget
    · cases hget
      exact ⟨0, rfl, rfl, rfl⟩
    · rename_i hne
      exact h.above ((List.mem_cons.mp hmem).resolve_left (Ne.symm hne)) hlt hget

theorem exitContext (h : x.Stepping id mode asked) {other : ContextId} (hne : other ≠ id) :
    (x.after (.exitContext other)).Stepping id mode asked where
  nested := h.nested.after h.running h.awaited.opened
  running := h.running
  awaited := h.awaited.exitContext other
  entered := List.mem_filter.mpr ⟨h.entered, decide_eq_true (Ne.symm hne)⟩
  mine := h.mine
  above := fun hmem hlt hget => h.above (List.mem_filter.mp hmem).1 hlt hget

theorem after (h : x.Stepping id mode asked) (hreport : operation.isReport = true)
    (hstays : operation ≠ .exitContext id) (hends : endsStep id mode asked x operation = false) :
    (x.after operation).Stepping id mode asked := by
  cases operation with
  | hook event => exact h.hook hends
  | enterContext => exact h.enterContext
  | exitContext other =>
      refine h.exitContext ?_
      rintro rfl
      exact hstays rfl
  | _ => cases hreport

/-- The first report that stops the debuggee is the first line where the step ends. -/
theorem first?_stopsAt (h : x.Stepping id mode asked) {reports : List Operation}
    (hreports : ∀ operation ∈ reports, operation.isReport = true)
    (hstays : .exitContext id ∉ reports) :
    x.first? stopsAt reports = x.first? (endsStep id mode asked) reports ∧
      ∀ n, x.first? stopsAt reports = some n →
        ∃ last : Context, last.id = id ∧ (x.run (reports.take (n + 1))).Stepped last := by
  induction reports generalizing x with
  | nil => exact ⟨rfl, nofun⟩
  | cons operation rest ih =>
      obtain ⟨hreport, hrest⟩ := List.forall_mem_cons.mp hreports
      have hne := List.ne_of_not_mem_cons hstays
      have hlater := List.not_mem_of_not_mem_cons hstays
      cases hends : endsStep id mode asked x operation with
      | true =>
          obtain ⟨last, hid, hstepped⟩ := h.stepped_of_endsStep hends
          have hstops : stopsAt x operation = true := by
            rw [stopsAt, hstepped.waiting]
            rfl
          rw [first?, first?, if_pos hstops, if_pos hends]
          refine ⟨rfl, ?_⟩
          intro n hn
          cases hn
          exact ⟨last, hid, hstepped⟩
      | false =>
          have hnext := h.after hreport (Ne.symm hne) hends
          have hstops : stopsAt x operation = false := by
            rw [stopsAt, hnext.running]
            rfl
          obtain ⟨hfirst, hstepped⟩ := ih hnext hrest hlater
          simp only [first?, hstops, hends, Bool.false_eq_true, if_false]
          refine ⟨congrArg _ hfirst, ?_⟩
          intro n hn
          obtain ⟨m, hm, rfl⟩ := Option.map_eq_some_iff.mp hn
          exact hstepped m hm

end Stepping

theorem first?_stopsAt_of_unheard {reports : List Operation} (hs : x.session.Grounded)
    (hrunning : x.waiting = none) (hheard : x.session.outbox.isOpen = false)
    (hreports : ∀ operation ∈ reports, operation.isReport = true) :
    x.first? stopsAt reports = none := by
  induction reports generalizing x with
  | nil => rfl
  | cons operation rest ih =>
      obtain ⟨hreport, hrest⟩ := List.forall_mem_cons.mp hreports
      have hafter : (x.after operation).waiting = none := by
        cases operation with
        | hook event => exact wait?_hook_of_unheard hs hheard event
        | enterContext | exitContext id => exact hrunning
        | _ => cases hreport
      have hunheard : (x.after operation).session.outbox.isOpen = false := by
        refine Bool.eq_false_iff.mpr fun hopen => ?_
        rw [((x.session.after_traffic operation).isOpen hopen).1] at hheard
        cases hheard
      have hstops : stopsAt x operation = false := by
        rw [stopsAt, hafter]
        rfl
      rw [first?, hstops, ih (hs.after operation) hafter hunheard hrest]
      rfl

variable {line : String} {command : Command} {mode : StepMode} {transaction : String}

theorem session_command (hcurrent : x.session.current? = some c)
    (hsuspended : c.isSuspended = true) (hparse : Command.parse line = .ok command)
    (hmode : command.mode? = some mode) (htransaction : command.transaction? = some transaction) :
    (x.after (.command line)).session =
      (x.session.markInitialized.setContext (c.resume mode)).release .running none
        (some transaction) := by
  have hdispatch : x.session.dispatch line =
      (x.session.adopt command.transaction?).resume mode :=
    dispatch_of_parse hparse (execute_of_mode? hmode)
  rw [htransaction, resume_adopt, resume_of_suspended hcurrent hsuspended, adopt_eq] at hdispatch
  exact hdispatch

theorem after_proceed {outcome : Except Error Unit} (hget : x.session.context? id = some c)
    (houtcome : c.outcome? = some outcome) :
    (x.after (.proceed (.resumption id false))).session = x.session ∧
      (x.after (.proceed (.resumption id false))).waiting = none := by
  have hsettle := settle_of_outcome hget houtcome false
  exact ⟨congrArg Prod.snd hsettle, congrArg (fun result => result.1.wait?) hsettle⟩

theorem AtLine.stepping (hx : x.AtLine c.id) (hcurrent : x.session.current? = some c)
    (hsuspended : c.isSuspended = true) (hopen : x.session.closed = false)
    (hbreak : c.breakRequested = false) (hparse : Command.parse line = .ok command)
    (hmode : command.mode? = some mode) (htransaction : command.transaction? = some transaction) :
    let y := (x.after (.command line)).after (.proceed (.resumption c.id false))
    y.waiting = none ∧ y.session.Grounded ∧ y.session.outbox.isOpen = x.session.outbox.isOpen ∧
      (x.session.registry.Silent → x.session.outbox.isOpen = true →
        y.Stepping c.id mode c.depth) := by
  intro y
  have hnested := hx.threaded.nested hopen
  obtain ⟨hhead, hget⟩ := hnested.grounded.current?_eq_some hcurrent
  have hentry := hx.entryStep hopen hget hsuspended
  have hcommand := session_command hcurrent hsuspended hparse hmode htransaction
  have hcommanded : (x.after (.command line)).Nested := by
    have hturn : x.InTurn (.command line) := trivial
    refine hnested.after hturn ?_
    rw [hcommand]
    exact hopen
  have hresumed : (x.after (.command line)).session.context? c.id = some (c.resume mode) := by
    rw [hcommand]
    exact context?_setContext_self x.session.markInitialized (c.resume mode)
  have houtcome : (c.resume mode).outcome? = some (.ok ()) := by
    have hstopped : c.stopped = false := hnested.grounded.stopped_eq hopen hget
    rw [Context.outcome?, show (c.resume mode).stopped = false from hstopped]
    rfl
  obtain ⟨hsame, hrunning⟩ : y.session = (x.after (.command line)).session ∧ y.waiting = none :=
    after_proceed hresumed houtcome
  have hy : y.Nested := by
    have hturn : (x.after (.command line)).InTurn (.proceed (.resumption c.id false)) := hx.waiting
    refine hcommanded.after hturn ?_
    rw [hsame, hcommand]
    exact hopen
  have hmine : y.session.context? c.id = some (c.resume mode) := by
    rw [hsame]
    exact hresumed
  rw [hcommand] at hsame
  have hhead : y.session.active.head? = some c.id := by
    rw [hsame]
    exact hhead
  have houtbox : y.session.outbox.isOpen = x.session.outbox.isOpen := by
    rw [hsame]
    exact x.session.outbox.isOpen_sendAll _
  refine ⟨hrunning, hy.grounded, houtbox, ?_⟩
  intro hsilent hheard
  constructor
  case nested => exact hy
  case running => exact hrunning
  case awaited =>
    have hheard := houtbox.trans hheard
    rw [hsame] at hheard ⊢
    exact ⟨hsilent, hentry, hopen, rfl, hheard⟩
  case entered => exact List.mem_of_head? hhead
  case mine => exact ⟨c.resume mode, hmine, rfl, rfl, hbreak⟩
  case above =>
    intro other found hmem hlt _
    exact absurd (hy.le_head hmem hhead) (Nat.not_le_of_lt hlt)

/-- A context that waits at a line is told to step.  As long as the debuggee does not leave it,
the first report that stops is the next line of this context at which the step may end: any line
for a step into, one that is no deeper for a step over, a shallower one for a step out.  The
request is used up then.  If the client is gone nothing stops. -/
theorem step_ends_at_first_line (hx : x.AtLine c.id) (hcurrent : x.session.current? = some c)
    (hsuspended : c.isSuspended = true) (hopen : x.session.closed = false)
    (hsilent : x.session.registry.Silent) (hbreak : c.breakRequested = false)
    (hparse : Command.parse line = .ok command) (hmode : command.mode? = some mode)
    (htransaction : command.transaction? = some transaction) :
    let y := (x.after (.command line)).after (.proceed (.resumption c.id false))
    y.waiting = none ∧
      ∀ reports : List Operation, (∀ operation ∈ reports, operation.isReport = true) →
        .exitContext c.id ∉ reports →
        y.first? stopsAt reports =
            (if x.session.outbox.isOpen then y.first? (endsStep c.id mode c.depth) reports
              else none) ∧
          ∀ n, y.first? stopsAt reports = some n →
            ∃ last : Context, last.id = c.id ∧ (y.run (reports.take (n + 1))).Stepped last := by
  intro y
  obtain ⟨hrunning, hs, houtbox, hstepping⟩ :=
    hx.stepping hcurrent hsuspended hopen hbreak hparse hmode htransaction
  refine ⟨hrunning, ?_⟩
  intro reports hreports hstays
  cases hheard : x.session.outbox.isOpen with
  | true => exact (hstepping hsilent hheard).first?_stopsAt hreports hstays
  | false =>
      have hnever := first?_stopsAt_of_unheard hs hrunning (houtbox.trans hheard) hreports
      refine ⟨hnever, ?_⟩
      intro n hn
      cases hnever.symm.trans hn

theorem step_ends_at_first_line_over_call :
    let x : Scene := ({ session := opened {} (Host.ofTable none []) {} : Scene }).run
      [.command "step_into -i 1", .enterContext, .hook (.line "/a.js" 1)]
    let y := (x.after (.command "step_over -i 2")).after (.proceed (.resumption 1 false))
    let reports : List Operation :=
      [.hook (.enter { file := "/a.js", line := 7, function := "f" }), .hook (.line "/a.js" 8),
        .enterContext, .hook (.line "/b.js" 1), .exitContext 2,
        .hook (.exception "Error" "caught"), .hook .exit, .hook (.line "/a.js" 2)]
    x.AtLine 1 ∧ y.first? stopsAt reports = some 7 ∧
      ∃ last : Context, last.id = 1 ∧ (y.run reports).Stepped last := by
  intro x y reports
  have hx : x.AtLine 1 :=
    .reached (.step (.step (.opened _ _ _) trivial) rfl) rfl (by decide +kernel)
  have hparse : Command.parse "step_over -i 2" =
      .ok { name := "step_over", options := [("i", "2")] } :=
    Command.parse_eq_ok (by decide +kernel)
  let c : Context :=
    { id := 1, frames := [{ file := "/a.js", line := 1 }], run := .suspended }
  have hcurrent : x.session.current? = some c := by decide +kernel
  obtain ⟨_, hstops⟩ := step_ends_at_first_line (c := c) hx hcurrent rfl (by decide +kernel)
    ⟨by decide +kernel, by decide +kernel⟩ rfl hparse rfl rfl
  obtain ⟨hfirst, hstepped⟩ := hstops reports (by decide) (by simp [reports, c])
  have hends : y.first? stopsAt reports = some 7 := by
    rw [hfirst]
    decide +kernel
  exact ⟨hx, hends, hstepped 7 hends⟩

end Scene

end Session

end ScriptDebugger
