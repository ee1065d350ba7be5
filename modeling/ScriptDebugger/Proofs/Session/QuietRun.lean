import ScriptDebugger.Proofs.Registry.Silent
import ScriptDebugger.Proofs.Session.Notices

namespace ScriptDebugger

def Command.arming : List String :=
  ["step_into", "step_over", "step_out", "break", "breakpoint_set", "breakpoint_update",
    "feature_set"]

namespace Context

def canStep (c : Context) : Bool :=
  match c.step with
  | .none => false
  | .into => true
  | .over => decide (0 < c.stepDepth)
  | .out => decide (1 < c.stepDepth)

structure SameRequests (c after : Context) : Prop where
  id : after.id = c.id
  breakRequested : after.breakRequested = c.breakRequested
  canStep : after.canStep = c.canStep

namespace SameRequests

theorem push (c : Context) (f : Frame) : c.SameRequests (c.push f) := ⟨rfl, rfl, rfl⟩

theorem pop (c : Context) : c.SameRequests c.pop := ⟨rfl, rfl, rfl⟩

theorem moveTo (c : Context) (file : String) (line : Nat) :
    c.SameRequests (c.moveTo file line) := by
  unfold Context.moveTo
  split
  · exact ⟨rfl, rfl, rfl⟩
  · exact push c _

end SameRequests

theorem depth_moveTo_pos (c : Context) (file : String) (line : Nat) :
    0 < (c.moveTo file line).depth := by
  unfold moveTo depth
  split
  · exact Nat.zero_lt_succ _
  · exact Nat.zero_lt_succ _

theorem stopPending_eq_false {c : Context} (hbreak : c.breakRequested = false)
    (hstep : c.canStep = false) (hdepth : 0 < c.depth) : c.stopPending = false := by
  unfold canStep at hstep
  unfold stopPending
  cases hmode : c.step with
  | none => rw [hbreak, Bool.false_or]
  | into =>
      rw [hmode] at hstep
      cases hstep
  | _ =>
      rw [hmode] at hstep
      have hnever := of_decide_eq_false hstep
      rw [hbreak, Bool.false_or]
      exact decide_eq_false (by omega)

theorem stopPending_of_canStep {c : Context} (hstep : c.canStep = true) (hdepth : c.depth = 1) :
    c.stopPending = true := by
  unfold canStep at hstep
  unfold stopPending
  refine Bool.or_eq_true_iff.mpr (.inr ?_)
  cases hmode : c.step with
  | none =>
      rw [hmode] at hstep
      cases hstep
  | into => rfl
  | _ =>
      rw [hmode] at hstep
      rw [hdepth]
      exact hstep

end Context

namespace Session

theorem onEnter_of_silent {s : Session} (h : s.registry.Silent) (c : Context) (f : Frame) :
    s.onEnter c f = (s.setContext (c.push f)).pass := by
  simp [onEnter, Registry.hitCall, h.hit, guarded, h.flags]
  rfl

theorem onLine_of_silent {s : Session} (h : s.registry.Silent) (hentry : s.entryStep = false)
    (c : Context) (location : Location) :
    s.onLine c location =
      let moved := c.moveTo location.file location.line
      if moved.stopPending then
        (s.setContext moved).suspend moved.takePendingStop.2 false ("Step to " ++ location.text)
      else (s.setContext moved).pass := by
  have hsame : ∀ c, { s.setContext c with registry := s.registry, entryStep := false } =
      s.setContext c := by
    intro c
    rw [← hentry]
    rfl
  simp only [onLine, Registry.hitLine, h.hit, guarded, hentry, hsame, Option.filter_none,
    Bool.false_eq_true, if_false]
  cases hpending : (c.moveTo location.file location.line).stopPending with
  | true => simp only [Context.takePendingStop, hpending, if_true]
  | false => simp only [Context.takePendingStop, hpending, Bool.false_eq_true, if_false]

theorem onExit_of_silent {s : Session} (h : s.registry.Silent) (c : Context) :
    s.onExit c = (s.setContext c.pop).pass := by
  simp [onExit, Registry.hitLeave, h.hit, guarded, h.flags]

theorem onException_of_silent {s : Session} (h : s.registry.Silent) (c : Context)
    (className message : String) : s.onException c className message = s.pass := by
  simp [onException, Registry.hitException, h.hit, h.flags]

theorem onRead_of_silent {s : Session} (h : s.registry.Silent) (c : Context) (owner : ObjectId)
    (property : String) : s.onRead c owner property = s.pass := by
  unfold onRead
  split
  · rfl
  · rename_i location _
    have hnone : (s.registry.watchersOf property).any (fun b =>
        b.isEnabled && b.onAccess && decide (b.location = location)) = false := by
      rw [List.any_eq_false]
      intro b hmem
      simp [h.watchersOf hmem]
    simp only [hnone, Bool.false_eq_true, if_false]

theorem onWrite_of_silent {s : Session} (h : s.registry.Silent) (c : Context) (owner : ObjectId)
    (property : String) : s.onWrite c owner property = s.pass := by
  unfold onWrite
  split
  · rfl
  · have hnone : (s.registry.watchersOf property).filter Breakpoint.isEnabled = [] := by
      rw [List.filter_eq_nil_iff]
      intro b hmem
      simp [h.watchersOf hmem]
    simp only [hnone, trackWrite, Bool.false_eq_true, if_false]

theorem hook_of_silent {s : Session} (hsilent : s.registry.Silent) (hentry : s.entryStep = false)
    (hopen : s.closed = false) {c : Context} (hcurrent : s.current? = some c) (event : Hook)
    (hnever : ∀ file line, event = .line file line →
      (c.moveTo file line).stopPending = false) :
    s.hook event = s.pass ∨
      ∃ frames, s.hook event = (s.setContext { c with frames := frames }).pass := by
  unfold hook
  rw [hopen, hcurrent]
  cases event with
  | compile file => exact .inl rfl
  | enter f => exact .inr ⟨f :: c.frames, onEnter_of_silent hsilent c f⟩
  | line file line =>
      obtain ⟨frames, hmoved⟩ := c.moveTo_eq file line
      refine .inr ⟨frames, ?_⟩
      rw [← hmoved]
      exact (onLine_of_silent hsilent hentry c ⟨file, line⟩).trans
        (if_neg (Bool.eq_false_iff.mp (hnever file line rfl)))
  | exit => exact .inr ⟨c.frames.tail, onExit_of_silent hsilent c⟩
  | exception className message => exact .inl (onException_of_silent hsilent c className message)
  | read owner property => exact .inl (onRead_of_silent hsilent c owner property)
  | write owner property => exact .inl (onWrite_of_silent hsilent c owner property)

/-- Nothing that the client has asked for can stop the debuggee. -/
structure Unarmed (s : Session) : Prop where
  silent : s.registry.Silent
  entryStep : s.entryStep = false
  requests : ∀ {id c}, id ∈ s.active → s.context? id = some c →
    c.breakRequested = false ∧ c.canStep = false

def Operation.arms : Operation → Bool
  | .command line =>
      match Command.parse line with
      | .ok c => Command.arming.contains c.name
      | .error _ => false
  | .resume mode => mode != .none
  | .requestBreak | .reportBreak _ | .breakpoints _ => true
  | _ => false

theorem arms_of_parse {line : String} {c : Command} (hparse : Command.parse line = .ok c) :
    (Operation.command line).arms = Command.arming.contains c.name := by
  simp [Operation.arms, hparse]

theorem mode_eq_none {c : Command} {mode : StepMode} (hmode : c.mode? = some mode)
    (hname : ∀ name ∈ Command.arming, c.name ≠ name) : mode = .none := by
  have hmem : (c.name, mode) ∈ Command.modes := Table.mem_of_get? hmode
  simp only [Command.modes, List.mem_cons, List.not_mem_nil, or_false, Prod.mk.injEq] at hmem
  rcases hmem with ⟨_, rfl⟩ | ⟨hstep, rfl⟩ | ⟨hstep, rfl⟩ | ⟨hstep, rfl⟩
  · rfl
  · exact absurd hstep (hname _ (by decide))
  · exact absurd hstep (hname _ (by decide))
  · exact absurd hstep (hname _ (by decide))

theorem remove_of_makes {c : Command} {operation : Registry.Operation}
    (hname : ∀ name ∈ Command.arming, c.name ≠ name) (h : c.Makes operation) :
    ∃ id, operation = .remove id := by
  cases operation with
  | remove id => exact ⟨id, rfl⟩
  | add b => exact absurd h (hname _ (by decide))
  | update id u => exact absurd h (hname _ (by decide))
  | switch change => exact absurd h (hname _ (by decide))
  | _ => cases h

namespace Unarmed

variable {s : Session}

theorem congr {after : Session} (h : s.Unarmed) (hregistry : after.registry = s.registry)
    (hentry : after.entryStep = s.entryStep) (hstage : after.stage = s.stage) :
    after.Unarmed where
  silent := hregistry ▸ h.silent
  entryStep := hentry.trans h.entryStep
  requests := by
    intro id c hmem hget
    rw [context?_congr hstage] at hget
    have hactive : after.active = s.active := (stage_eq_iff.mp hstage).2
    rw [hactive] at hmem
    exact h.requests hmem hget

theorem setContext (h : s.Unarmed) {next : Context}
    (hnext : next.id ∈ s.active → next.breakRequested = false ∧ next.canStep = false) :
    (s.setContext next).Unarmed where
  silent := h.silent
  entryStep := h.entryStep
  requests := by
    intro id c hmem hget
    rw [context?_setContext] at hget
    split at hget
    · rename_i hid
      cases hget
      exact hnext (hid ▸ hmem)
    · exact h.requests hmem hget

theorem moved (h : s.Unarmed) (hs : s.Grounded) {id : ContextId} {c next : Context}
    (hget : s.context? id = some c) (hsame : c.SameRequests next) :
    (s.setContext next).Unarmed := by
  apply h.setContext
  intro hmem
  rw [hsame.id, hs.id_eq hget] at hmem
  rw [hsame.breakRequested, hsame.canStep]
  exact h.requests hmem hget

theorem current (h : s.Unarmed) {c : Context} (hcurrent : s.current? = some c) :
    c.breakRequested = false ∧ c.canStep = false := by
  obtain ⟨id, hhead, hget⟩ := current?_eq_some_iff.mp hcurrent
  exact h.requests (List.mem_of_head? hhead) hget

theorem hook_eq (h : s.Unarmed) (event : Hook) :
    s.hook event = s.returned (.error .terminated) ∨ s.hook event = s.pass ∨
      ∃ c next, s.current? = some c ∧ c.SameRequests next ∧
        s.hook event = (s.setContext next).pass := by
  cases hclosed : s.closed with
  | true => exact .inl (hook_of_closed hclosed event)
  | false =>
      apply Or.inr
      cases hcurrent : s.current? with
      | none =>
          refine .inl ?_
          rw [Session.hook, hclosed, hcurrent]
          rfl
      | some c =>
          have hnever : ∀ file line, event = .line file line →
              (c.moveTo file line).stopPending = false := by
            intro file line _
            have hsame := Context.SameRequests.moveTo c file line
            obtain ⟨hbreak, hstep⟩ := h.current hcurrent
            exact Context.stopPending_eq_false (hsame.breakRequested.trans hbreak)
              (hsame.canStep.trans hstep) (c.depth_moveTo_pos file line)
          rcases hook_of_silent h.silent h.entryStep hclosed hcurrent event hnever with
            hpass | ⟨frames, hmoved⟩
          · exact .inl hpass
          · exact .inr ⟨c, { c with frames := frames }, rfl, ⟨rfl, rfl, rfl⟩, hmoved⟩

theorem hook (h : s.Unarmed) (hs : s.Grounded) (event : Hook) :
    (s.hook event).1.wait? = none ∧ notices s (s.hook event).2 = [] ∧
      (s.hook event).2.Unarmed := by
  rcases h.hook_eq event with heq | heq | ⟨c, next, hcurrent, hsame, heq⟩
  · rw [heq]
    exact ⟨rfl, notices_of_same rfl, h⟩
  · rw [heq]
    exact ⟨rfl, notices_of_same rfl, h⟩
  · rw [heq]
    exact ⟨rfl, notices_of_same rfl, h.moved hs (hs.current?_eq_some hcurrent).2 hsame⟩

theorem resume (h : s.Unarmed) : (s.resume .none).Unarmed := by
  unfold Session.resume
  split
  · rename_i c hfilter
    have hcurrent := (Option.filter_eq_some_iff.mp hfilter).1
    have hmarked : s.markInitialized.Unarmed := h.congr rfl rfl rfl
    exact hmarked.setContext fun _ => ⟨(h.current hcurrent).1, rfl⟩
  · exact h.congr rfl (Bool.or_false _) rfl

theorem settle (h : s.Unarmed) (hs : s.Grounded) (wait : Wait) : (s.settle wait).2.Unarmed := by
  rcases s.settle_effect wait with heq | ⟨id, c, hget, heq⟩
  · rw [heq]
    exact h
  · rw [heq]
    exact h.moved hs hget (.pop c)

theorem close (h : s.Unarmed) : s.close.Unarmed := by
  cases hclosed : s.closed with
  | true =>
      rw [close_of_closed hclosed]
      exact h
  | false =>
      have hclose : s.close.registry = s.registry.clear ∧ s.close.active = [] := by
        rw [Session.close, hclosed]
        exact ⟨rfl, rfl⟩
      obtain ⟨hregistry, hactive⟩ := hclose
      constructor
      case silent =>
        rw [hregistry]
        exact .clear
      case entryStep => exact s.entryStep_close.trans h.entryStep
      case requests =>
        intro id c hmem
        rw [hactive] at hmem
        cases hmem

theorem reportEnd (h : s.Unarmed) : s.reportEnd.Unarmed := by
  rw [reportEnd_eq]
  exact h.congr rfl rfl rfl

theorem adopt (h : s.Unarmed) (transaction : Option String) : (s.adopt transaction).Unarmed := by
  rw [adopt_eq]
  exact h.congr rfl rfl rfl

theorem post (h : s.Unarmed) (m : Message) : (s.post m).Unarmed :=
  h.congr rfl rfl rfl

theorem answer (h : s.Unarmed) (e : Element) : (s.answer e).Unarmed :=
  h.post (.answer e)

theorem command (h : s.Unarmed) {line : String} (harms : (Operation.command line).arms = false) :
    (s.dispatch line).Unarmed := by
  rcases s.dispatch_effect line with ⟨hsame, _⟩ | ⟨c, hparse, heffect⟩
  · rw [hsame]
    exact h
  · have hname : ∀ name ∈ Command.arming, c.name ≠ name := by
      intro name hmem heq
      rw [arms_of_parse hparse, heq, List.contains_iff_mem.mpr hmem] at harms
      cases harms
    generalize s.dispatch line = result at heffect
    cases heffect with
    | @resumed mode hmode =>
        have hrun : mode = .none := mode_eq_none hmode hname
        rw [hrun]
        exact (h.adopt _).resume
    | interrupted _ hbreak => exact absurd hbreak (hname _ (by decide))
    | stopped _ =>
        exact (h.reportEnd.answer _).close
    | answered _ hchanges =>
        constructor
        case silent =>
          exact h.silent.run fun operation hmem => remove_of_makes hname (hchanges operation hmem)
        case entryStep => exact h.entryStep
        case requests => exact h.requests

theorem enterContext (h : s.Unarmed) : (s.after .enterContext).Unarmed := by
  simp only [Session.after, perform, Session.enterContext]
  split
  · rename_i hentered
    split at hentered
    · cases hentered
    · cases hentered
      constructor
      case silent => exact h.silent
      case entryStep => exact h.entryStep
      case requests =>
        intro id c hmem hget
        rw [context?_of_set rfl] at hget
        split at hget
        · cases hget
          exact ⟨rfl, rfl⟩
        · rename_i hne
          exact h.requests ((List.mem_cons.mp hmem).resolve_left (Ne.symm hne)) hget
  · exact h

theorem after (h : s.Unarmed) (hs : s.Grounded) {operation : Operation}
    (harms : operation.arms = false) : (s.after operation).Unarmed := by
  cases operation with
  | command line => exact h.command harms
  | hook event => exact (h.hook hs event).2.2
  | awaitStart => exact h.settle hs .start
  | proceed wait => exact h.settle hs wait
  | enterContext => exact h.enterContext
  | exitContext id =>
      constructor
      case silent => exact h.silent
      case entryStep => exact h.entryStep
      case requests =>
        intro other c hmem hget
        exact h.requests (List.mem_filter.mp hmem).1 hget
  | adopt transaction => exact h.adopt transaction
  | resume mode =>
      cases mode with
      | none => exact h.resume
      | _ => cases harms
  | requestBreak | reportBreak reason | breakpoints operation => cases harms
  | reportEnd => exact h.reportEnd
  | finish => exact h.reportEnd.close
  | close => exact h.close
  | write stream text =>
      rcases s.write_effect stream text with hwrite | hwrite
      · rw [Session.after, perform, hwrite]
        exact h
      · rw [Session.after, perform, hwrite]
        exact h.post _
  | markInitialized | announce fileUri | addListener tag | removeListener id | configure settings
  | redirect streams | mutate heap | dropClient | collect => exact h.congr rfl rfl rfl

theorem break_not_mem_notices (h : s.Unarmed) (hs : s.Grounded) {operation : Operation}
    (harms : operation.arms = false) : .break ∉ notices s (s.after operation) := by
  intro hmem
  rcases (s.after_traffic operation).notices with hnil | ⟨outcome, hone, _, hbreak⟩
  · rw [hnil] at hmem
    cases hmem
  · rw [hone, List.mem_singleton] at hmem
    have hmay := hbreak hmem.symm
    cases operation with
    | hook event =>
        have hnil : notices s (s.after (.hook event)) = [] := (h.hook hs event).2.1
        rw [hnil] at hone
        cases hone
    | reportBreak reason => cases harms
    | _ => cases hmay

theorem run (h : s.Unarmed) (hs : s.Grounded) {operations : List Operation}
    (harms : ∀ operation ∈ operations, operation.arms = false) :
    (s.run operations).Unarmed ∧ ∀ m ∈ s.sentBy operations, m.notice? ≠ some .break := by
  induction operations generalizing s with
  | nil => exact ⟨h, nofun⟩
  | cons operation rest ih =>
      have hfirst := harms operation List.mem_cons_self
      obtain ⟨hrun, hsent⟩ := ih (h.after hs hfirst) (hs.after operation) fun other hmem =>
        harms other (List.mem_cons_of_mem _ hmem)
      refine ⟨hrun, ?_⟩
      intro m hmem hnotice
      rcases List.mem_append.mp hmem with hmem | hmem
      · exact h.break_not_mem_notices hs hfirst (List.mem_filterMap.mpr ⟨m, hmem, hnotice⟩)
      · exact hsent m hmem hnotice

end Unarmed

end Session

end ScriptDebugger
