import ScriptDebugger.Proofs.Session.Breakpoints
import ScriptDebugger.Proofs.Session.QuietRun

namespace ScriptDebugger

namespace Session

theorem resume_adopt (s : Session) (transaction : Option String) (mode : StepMode) :
    (s.adopt transaction).resume mode = (s.resume mode).adopt transaction := by
  rw [adopt_eq, adopt_eq]
  unfold resume
  rw [show (s.release .running none transaction).current? = s.current? from rfl]
  split
  · rfl
  · rfl

theorem entryStep_resume (s : Session) : (s.resume .none).entryStep = s.entryStep := by
  unfold resume
  split
  · rfl
  · exact Bool.or_false _

theorem context?_resume {s : Session} (hs : s.Grounded) {id : ContextId}
    (hne : s.active.head? ≠ some id) (mode : StepMode) :
    (s.resume mode).context? id = s.context? id := by
  unfold resume
  split
  · rename_i c hfilter
    obtain ⟨hhead, _⟩ := hs.current?_eq_some (Option.filter_eq_some_iff.mp hfilter).1
    refine (context?_setContext _ _ _).trans (if_neg ?_)
    intro hid
    exact hne (hid ▸ hhead)
  · rfl

def entered (s : Session) : List Context :=
  s.active.filterMap s.context?

/-- A context below the current one has a step left. -/
def KeepsStep (s : Session) : Prop :=
  ∃ c ∈ s.entered, s.active.head? ≠ some c.id ∧ c.canStep = true

theorem mem_entered {s : Session} {id : ContextId} {c : Context} (hmem : id ∈ s.active)
    (hget : s.context? id = some c) : c ∈ s.entered :=
  List.mem_filterMap.mpr ⟨id, hmem, hget⟩

theorem unarmed_resume {s : Session} (hs : s.Grounded) (hsilent : s.registry.Silent)
    (hentry : s.entryStep = false) (hbreak : ∀ c ∈ s.entered, c.breakRequested = false)
    (hidle : ∀ c ∈ s.current?, c.canStep = true → 0 < c.depth ∨ c.isSuspended = true)
    (hkeeps : ¬s.KeepsStep) : (s.resume .none).Unarmed where
  silent := (registry_aside.resume s .none).symm ▸ hsilent
  entryStep := s.entryStep_resume.trans hentry
  requests := by
    intro id c hmem hget
    rw [active_aside.resume s] at hmem
    by_cases hhead : s.active.head? = some id
    · unfold resume at hget
      split at hget
      · rename_i before hfilter
        obtain ⟨hcurrent, _⟩ := Option.filter_eq_some_iff.mp hfilter
        obtain ⟨hid, hbefore⟩ := hs.current?_eq_some hcurrent
        obtain rfl := Option.some.inj (hid.symm.trans hhead)
        have hresumed := context?_setContext_self s.markInitialized (before.resume .none)
        obtain rfl := Option.some.inj (hresumed.symm.trans hget)
        exact ⟨hbreak before (mem_entered hmem hbefore), rfl⟩
      · rename_i hfilter
        have hget : s.context? id = some c := hget
        have hcurrent : s.current? = some c := current?_eq_some_iff.mpr ⟨id, hhead, hget⟩
        refine ⟨hbreak c (mem_entered hmem hget), Bool.eq_false_iff.mpr ?_⟩
        intro hstep
        rw [hcurrent] at hfilter
        rcases hidle c hcurrent hstep with hdepth | hsuspended
        · simp [Option.filter, hdepth] at hfilter
        · simp [Option.filter, hsuspended] at hfilter
    · rw [context?_resume hs hhead] at hget
      have hentered := mem_entered hmem hget
      refine ⟨hbreak c hentered, Bool.eq_false_iff.mpr ?_⟩
      intro hstep
      exact hkeeps ⟨c, hentered, by rwa [hs.id_eq hget], hstep⟩

def Operation.isReport : Operation → Bool
  | .hook _ | .enterContext | .exitContext _ => true
  | _ => false

/-- The client waits to hear of a stop, and nothing but a request can be the cause of one. -/
structure Awaited (s : Session) : Prop where
  silent : s.registry.Silent
  entryStep : s.entryStep = false
  opened : s.closed = false
  pending : s.transaction.isSome = true
  heard : s.outbox.isOpen = true

namespace Awaited

variable {s : Session}

theorem setContext (h : s.Awaited) (c : Context) : (s.setContext c).Awaited :=
  ⟨h.silent, h.entryStep, h.opened, h.pending, h.heard⟩

theorem exitContext (h : s.Awaited) (id : ContextId) : (s.exitContext id).Awaited :=
  ⟨h.silent, h.entryStep, h.opened, h.pending, h.heard⟩

theorem of_run (hsilent : s.registry.Silent) (hentry : s.entryStep = false)
    (hopen : s.closed = false) (hheard : s.outbox.isOpen = true) (transaction : String) :
    ((s.resume .none).adopt (some transaction)).Awaited := by
  obtain ⟨houtbox, _, hclosed⟩ := channel_eq_iff.mp (channel_hidesContexts.resume channel_hidesStart s .none)
  rw [adopt_eq]
  constructor
  case silent => exact (registry_aside.resume s .none).symm ▸ hsilent
  case entryStep => exact s.entryStep_resume.trans hentry
  case opened => exact hclosed.trans hopen
  case pending => rfl
  case heard =>
    rw [release, Outbox.isOpen_sendAll, houtbox]
    exact hheard

theorem hook_line_of_pending (h : s.Awaited) (hs : s.Grounded) {c : Context}
    (hcurrent : s.current? = some c) {file : String} {line : Nat}
    (hpending : (c.moveTo file line).stopPending = true) :
    s.hook (.line file line) =
      (.waiting (.resumption c.id false),
        (s.release .break (some ("Step to " ++ (⟨file, line⟩ : Location).text)) none).setContext
          (c.moveTo file line).halt) := by
  have hplace := Context.Moved.moveTo c file line
  have hmoved := hplace.trans (.takePendingStop _)
  have hstopped : (c.moveTo file line).takePendingStop.2.stopped = false :=
    hmoved.stopped.trans (hs.stopped_eq h.opened (hs.current?_eq_some hcurrent).2)
  have htold : (s.transaction.isSome && s.outbox.isOpen) = true := by
    rw [h.pending, h.heard]
    rfl
  have hline : s.hook (.line file line) = s.onLine c ⟨file, line⟩ := by
    simp only [hook, h.opened, hcurrent, Bool.false_eq_true, if_false]
  have hset : ∀ s : Session, (s.setContext (c.moveTo file line)).setContext
      (c.moveTo file line).halt = s.setContext (c.moveTo file line).halt :=
    fun s => s.setContext_setContext rfl
  rw [hline, onLine_of_silent h.silent h.entryStep]
  simp only [hpending, if_true]
  rw [suspend_eq _ hstopped, hmoved.id, Context.halt_takePendingStop]
  exact (if_pos htold).trans (congrArg (Prod.mk _) (hset (s.release .break _ none)))

theorem hook_line (h : s.Awaited) (hs : s.Grounded) {c : Context} (hcurrent : s.current? = some c)
    (hstep : c.canStep = true) (hframes : c.frames = []) (file : String) (line : Nat) :
    (s.hook (.line file line)).1 = .waiting (.resumption c.id false) := by
  have hmoved : c.moveTo file line = c.push { file := file, line := line } := by
    rw [Context.moveTo, hframes]
  have hdepth : (c.moveTo file line).depth = 1 := by
    rw [hmoved, Context.depth, Context.frames_push, hframes]
    rfl
  have hsame := Context.SameRequests.moveTo c file line
  have hpending := Context.stopPending_of_canStep (hsame.canStep.trans hstep) hdepth
  rw [h.hook_line_of_pending hs hcurrent hpending]

theorem stops_of_current (h : s.Awaited) (hs : s.Grounded) {c : Context}
    (hcurrent : s.current? = some c) (hstep : c.canStep = true) :
    ∃ operations, (∀ operation ∈ operations, operation.isReport = true) ∧
      ∃ event wait, ((s.run operations).hook event).1.wait? = some wait := by
  generalize hframes : c.frames = frames
  induction frames generalizing s c with
  | nil =>
      have hwait := congrArg Progress.wait? (h.hook_line hs hcurrent hstep hframes "" 0)
      exact ⟨[], List.forall_mem_nil _, _, _, hwait⟩
  | cons f rest ih =>
      obtain ⟨hhead, hget⟩ := hs.current?_eq_some hcurrent
      have hexit : s.after (.hook .exit) = s.setContext c.pop := by
        have hpass : s.hook .exit = s.onExit c := by
          simp only [hook, h.opened, hcurrent, Bool.false_eq_true, if_false]
        rw [after, perform, hpass, onExit_of_silent h.silent]
        rfl
      have hnext : (s.setContext c.pop).current? = some c.pop :=
        current?_eq_some_iff.mpr ⟨c.id, hhead, context?_setContext_self s c.pop⟩
      have hgrounded : (s.setContext c.pop).Grounded := hexit ▸ hs.after (.hook .exit)
      have hrest : c.pop.frames = rest := by rw [Context.frames_pop, hframes, List.tail_cons]
      obtain ⟨operations, hreport, event, wait, hwait⟩ :=
        ih (h.setContext c.pop) hgrounded hnext hstep hrest
      refine ⟨.hook .exit :: operations, ?_, event, wait, ?_⟩
      · exact List.forall_mem_cons.mpr ⟨rfl, hreport⟩
      · rw [run_cons, hexit]
        exact hwait

theorem stops (h : s.Awaited) (hs : s.Grounded) {id : ContextId} {c : Context}
    (hmem : id ∈ s.active) (hget : s.context? id = some c) (hstep : c.canStep = true) :
    ∃ operations, (∀ operation ∈ operations, operation.isReport = true) ∧
      ∃ event wait, ((s.run operations).hook event).1.wait? = some wait := by
  induction hlength : s.active.length using Nat.strongRecOn generalizing s with
  | ind length ih =>
      cases hactive : s.active with
      | nil =>
          rw [hactive] at hmem
          cases hmem
      | cons head rest =>
          by_cases hhead : head = id
          · refine h.stops_of_current hs (current?_eq_some_iff.mpr ⟨id, ?_, hget⟩) hstep
            rw [hactive, hhead]
            rfl
          · have hleft : id ∈ (s.exitContext head).active :=
              List.mem_filter.mpr ⟨hmem, by simpa using Ne.symm hhead⟩
            have hless : (s.exitContext head).active.length < length := by
              rw [← hlength]
              refine List.length_filter_lt_length_iff_exists.mpr ⟨head, ?_, by simp⟩
              rw [hactive]
              exact List.mem_cons_self
            obtain ⟨operations, hreport, event, wait, hwait⟩ :=
              ih _ hless (h.exitContext head) (hs.after (.exitContext head)) hleft hget rfl
            exact ⟨.exitContext head :: operations, List.forall_mem_cons.mpr ⟨rfl, hreport⟩,
              event, wait, hwait⟩

end Awaited

/-- After a command to run nothing stops the debuggee until the client asks for something again,
just when no context below the current one has a step left. -/
theorem quiet_after_run_request {s : Session} (hs : s.Reached) (hopen : s.closed = false)
    (hsilent : s.registry.Silent) (hbreak : ∀ c ∈ s.entered, c.breakRequested = false)
    (hentry : s.entryStep = false)
    (hidle : ∀ c ∈ s.current?, c.canStep = true → 0 < c.depth ∨ c.isSuspended = true)
    {line : String} {command : Command} {transaction : String}
    (hparse : Command.parse line = .ok command) (hname : command.name = "run")
    (htransaction : command.transaction? = some transaction) :
    (¬s.KeepsStep → ∀ operations : List Operation,
      (∀ operation ∈ operations, operation.arms = false) →
        (∀ m ∈ (s.after (.command line)).sentBy operations, m.notice? ≠ some .break) ∧
          ∀ event, (((s.after (.command line)).run operations).hook event).1.wait? = none) ∧
    (s.KeepsStep → s.outbox.isOpen = true → ∃ operations : List Operation,
      (∀ operation ∈ operations, operation.isReport = true) ∧
        ∃ event wait,
          (((s.after (.command line)).run operations).hook event).1.wait? = some wait) := by
  have hgrounded := Grounded.of_reached hs
  have hmode : command.mode? = some .none := by rw [command.mode?_of_name hname]; rfl
  have hafter : s.after (.command line) = (s.resume .none).adopt (some transaction) := by
    rw [← resume_adopt, ← htransaction]
    exact dispatch_of_parse hparse (execute_of_mode? hmode)
  have hnext : (s.after (.command line)).Grounded := hgrounded.after _
  rw [hafter] at hnext ⊢
  constructor
  · intro hkeeps operations harms
    have hunarmed := (unarmed_resume hgrounded hsilent hentry hbreak hidle hkeeps).adopt
      (some transaction)
    obtain ⟨hrun, hsent⟩ := hunarmed.run hnext harms
    exact ⟨hsent, fun event => (hrun.hook (hnext.run operations) event).1⟩
  · rintro ⟨c, hentered, hne, hstep⟩ hheard
    obtain ⟨id, hmem, hget⟩ := List.mem_filterMap.mp hentered
    rw [hgrounded.id_eq hget] at hne
    have hawaited := Awaited.of_run hsilent hentry hopen hheard transaction
    have hstage := stage_hidesTalk.adopt (s.resume .none) (some transaction)
    have hactive : ((s.resume .none).adopt (some transaction)).active = s.active :=
      (stage_eq_iff.mp hstage).2.trans (active_aside.resume s .none)
    have hcontext : ((s.resume .none).adopt (some transaction)).context? id = some c := by
      rw [context?_congr hstage, context?_resume hgrounded hne]
      exact hget
    exact hawaited.stops hnext (hactive ▸ hmem) hcontext hstep

theorem quiet_after_run_request_stepping :
    let s := (opened {} (Host.ofTable none []) {}).run
      [.enterContext, .hook (.line "/a.js" 1), .command "step_into -i 1", .hook (.line "/a.js" 2)]
    s.current?.map Context.isSuspended = some true ∧
      (((s.after (.command "run -i 2")).run [.hook .exit]).hook (.line "/a.js" 3)).1.wait? =
        none := by
  intro s
  have hparse : Command.parse "run -i 2" = .ok { name := "run", options := [("i", "2")] } :=
    Command.parse_eq_ok (by decide +kernel)
  have hquiet := (quiet_after_run_request (s := s) ⟨_, _, _, _, rfl⟩ (by decide +kernel)
    ⟨by decide +kernel, by decide +kernel⟩ (by decide +kernel) (by decide +kernel)
    (by decide +kernel) hparse rfl rfl).1 (by unfold KeepsStep; decide +kernel) [.hook .exit]
    (by decide)
  exact ⟨by decide +kernel, hquiet.2 (.line "/a.js" 3)⟩

/-- A step that was asked for below stops the debuggee after a command to run. -/
theorem step_below_outlives_run_request :
    let s := (opened {} (Host.ofTable none []) {}).run
      [.enterContext, .hook (.line "/a.js" 1), .command "step_into -i 1", .enterContext,
        .hook (.enter { file := "/b.js", line := 1, function := "g" })]
    s.closed = false ∧ s.registry.Silent ∧ (∀ c ∈ s.contexts.values, c.breakRequested = false) ∧
      ((s.run [.command "run -i 2", .exitContext 2]).hook (.line "/a.js" 2)).1.wait? =
        some (.resumption 1 false) := by
  intro s
  exact ⟨by decide +kernel, ⟨by decide +kernel, by decide +kernel⟩, by decide +kernel,
    by decide +kernel⟩

end Session

end ScriptDebugger
