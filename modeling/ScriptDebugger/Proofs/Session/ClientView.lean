import ScriptDebugger.Proofs.Session.Notices

/-!
What the client can tell from the messages.  One thread of the debuggee reports, and while one of
its reports waits it does nothing else; the client alone lets the debuggee run.  Then a context is
suspended just when a break was the last that the client heard of the run, and it has not let the
debuggee run since.
-/

namespace ScriptDebugger

namespace Session

/-- What the client knows of a run: what it was told, and that it let the debuggee run. -/
inductive Event where
  | noticed (status : RunStatus)
  | resumed
  deriving DecidableEq

def Operation.resumes : Operation → Bool
  | .command line =>
      match Command.parse line with
      | .ok c => c.mode?.isSome
      | .error _ => false
  | _ => false

def events (s : Session) (operation : Operation) : List Event :=
  (notices s (s.after operation)).map .noticed ++
    if operation.resumes then [.resumed] else []

/-- A session with the report that waits, if one does, and what the client knows so far. -/
structure Scene where
  session : Session
  waiting : Option Wait := none
  log : List Event := []

namespace Scene

/-- The thread of the debuggee reports, opens and leaves contexts only while it does not wait, and
leaves the one that it runs in.  Transactions are adopted and contexts resumed by commands only,
and breaks are told of by reports only. -/
def Admits (x : Scene) : Operation → Prop
  | .hook _ | .enterContext => x.waiting = none
  | .exitContext id => x.waiting = none ∧ x.session.active.head? = some id
  | .proceed wait => x.waiting = some wait
  | .adopt _ | .reportBreak _ | .resume _ => False
  | _ => True

def waitingAfter (x : Scene) : Operation → Option Wait
  | .hook event => (x.session.hook event).1.wait?
  | .proceed wait => (x.session.settle wait).1.wait?
  | _ => x.waiting

def after (x : Scene) (operation : Operation) : Scene where
  session := x.session.after operation
  waiting := x.waitingAfter operation
  log := x.log ++ x.session.events operation

inductive Reachable : Scene → Prop where
  | opened (settings : Settings) (host : Host) (heap : Heap) :
      Reachable { session := opened settings host heap }
  | step {x : Scene} {operation : Operation} (h : Reachable x) (hadmits : x.Admits operation) :
      Reachable (x.after operation)

structure Paused (x : Scene) (c : Context) (leaving : Bool) : Prop where
  current : x.session.current? = some c
  suspended : c.isSuspended = true
  waiting : x.waiting = some (.resumption c.id leaving)

/-- A context waits for the client, which knows of it. -/
structure Held (x : Scene) (c : Context) (leaving : Bool) : Prop extends Paused x c leaving where
  others : ∀ {id other}, id ≠ c.id → x.session.context? id = some other →
    other.isSuspended = false
  transaction : x.session.transaction = none
  log : x.log.getLast? = some (.noticed .break)

structure Free (x : Scene) : Prop where
  running : ∀ {id c}, x.session.context? id = some c → c.isSuspended = false
  log : x.log.getLast? ≠ some (.noticed .break)

end Scene

theorem resumes_of_mode? {line : String} {c : Command} {mode : StepMode}
    (hparse : Command.parse line = .ok c) (hmode : c.mode? = some mode) :
    (Operation.command line).resumes = true := by
  simp [Operation.resumes, hparse, hmode]

theorem exists_mode?_of_resumes {operation : Operation} (h : operation.resumes = true) :
    ∃ line command mode, operation = .command line ∧ Command.parse line = .ok command ∧
      command.mode? = some mode := by
  cases operation with
  | command line =>
      cases hparse : Command.parse line with
      | error e =>
          rw [Operation.resumes, hparse] at h
          cases h
      | ok command =>
          rw [Operation.resumes, hparse] at h
          obtain ⟨mode, hmode⟩ := Option.isSome_iff_exists.mp h
          exact ⟨line, command, mode, rfl, hparse, hmode⟩
  | _ => cases h

theorem resumes_of_mode?_eq_none {line : String}
    (h : ∀ c, Command.parse line = .ok c → c.mode? = none) :
    (Operation.command line).resumes = false := by
  cases hparse : Command.parse line with
  | error e => simp [Operation.resumes, hparse]
  | ok c => simp [Operation.resumes, hparse, h c hparse]

theorem getLast?_events {s : Session} {operation : Operation}
    (hbreak : operation.mayBreak = false) (log : List Event)
    (hlog : log.getLast? ≠ some (.noticed .break)) :
    (log ++ s.events operation).getLast? ≠ some (.noticed .break) := by
  intro hlast
  rw [List.getLast?_append] at hlast
  cases hevents : (s.events operation).getLast? with
  | none =>
      rw [hevents] at hlast
      exact hlog hlast
  | some event =>
      rw [hevents] at hlast
      cases hlast
      have hmem := List.mem_of_getLast? hevents
      rcases List.mem_append.mp hmem with hmem | hmem
      · obtain ⟨outcome, hmem, heq⟩ := List.mem_map.mp hmem
        cases heq
        rcases (s.after_traffic operation).notices with hnil | ⟨other, hother, _, hmay⟩
        · rw [hnil] at hmem
          cases hmem
        · rw [hother, List.mem_singleton] at hmem
          rw [hmay hmem.symm] at hbreak
          cases hbreak
      · split at hmem
        · simp at hmem
        · cases hmem

theorem events_eq_nil {s : Session} {operation : Operation} (hnone : s.transaction = none)
    (hresumes : operation.resumes = false) : s.events operation = [] := by
  rw [events, hresumes]
  rcases (s.after_traffic operation).notices with hnil | ⟨_, _, hsome, _⟩
  · rw [hnil]
    rfl
  · rw [hnone] at hsome
    cases hsome

theorem suspended_of_after {s : Session} {operation : Operation} (hs : s.Grounded)
    (hhook : ∀ event, operation ≠ .hook event) (hopen : (s.after operation).closed = false)
    {id : ContextId} {c : Context} (hget : (s.after operation).context? id = some c)
    (hsuspended : c.isSuspended = true) :
    ∃ before, s.context? id = some before ∧ before.isSuspended = true := by
  cases s.after_shift operation with
  | same hstage _ =>
      rw [context?_congr hstage] at hget
      exact ⟨c, hget, hsuspended⟩
  | @moved key before next hbefore hmoved hstage _ =>
      rw [context?_of_set (stage_eq_iff.mp hstage).1] at hget
      split at hget
      · rename_i hid
        cases hget
        have hkey : key = id := (hs.id_eq hbefore).symm.trans (hmoved.id.symm.trans hid)
        exact ⟨before, hkey ▸ hbefore, hmoved.suspended hsuspended⟩
      · exact ⟨c, hget, hsuspended⟩
  | halted next hoperation _ _ _ _ => exact absurd hoperation (hhook _)
  | entered key hstage _ _ =>
      rw [context?_of_set (stage_eq_iff.mp hstage).1] at hget
      split at hget
      · cases hget
        cases hsuspended
      · exact ⟨c, hget, hsuspended⟩
  | left key hstage _ _ =>
      rw [context?, (stage_eq_iff.mp hstage).1] at hget
      exact ⟨c, hget, hsuspended⟩
  | ended told htold _ hend _ =>
      rw [hend, told.closed_close] at hopen
      cases hopen

theorem running_after {s : Session} {operation : Operation} (hs : s.Grounded)
    (hhook : ∀ event, operation ≠ .hook event) (hopen : (s.after operation).closed = false)
    (hrunning : ∀ {id c}, s.context? id = some c → c.isSuspended = false) {id : ContextId}
    {c : Context} (hget : (s.after operation).context? id = some c) : c.isSuspended = false := by
  refine Bool.eq_false_iff.mpr fun hsuspended => ?_
  obtain ⟨before, hbefore, hwas⟩ := suspended_of_after hs hhook hopen hget hsuspended
  rw [hrunning hbefore] at hwas
  cases hwas

namespace Scene

variable {x : Scene}

theorem Free.after {operation : Operation} (h : x.Free) (hs : x.session.Grounded)
    (hhook : ∀ event, operation ≠ .hook event) (hbreak : operation.mayBreak = false)
    (hopen : (x.after operation).session.closed = false) : (x.after operation).Free where
  running := running_after hs hhook hopen h.running
  log := getLast?_events hbreak x.log h.log

theorem Paused.of_hook {event : Hook} {c : Context} {leaving : Bool} {after : Session}
    (hresult : x.session.hook event = (.waiting (.resumption c.id leaving), after))
    (hcurrent : after.current? = some c) (hsuspended : c.isSuspended = true) :
    (x.after (.hook event)).Paused c leaving where
  current := (congrArg (fun result => result.2.current?) hresult).trans hcurrent
  suspended := hsuspended
  waiting := congrArg (fun result => result.1.wait?) hresult

theorem Free.hook (h : x.Free) (hs : x.session.Grounded) (event : Hook) :
    (x.after (.hook event)).Free ∨ ∃ c leaving, (x.after (.hook event)).Held c leaving := by
  have houtcome := hook_outcome hs event
  have hlog : (x.after (.hook event)).log =
      x.log ++ (notices x.session (x.session.hook event).2).map .noticed :=
    congrArg (x.log ++ ·) (List.append_nil _)
  cases hresult : x.session.hook event with
  | mk progress after =>
      have hsession : (x.after (.hook event)).session = after := congrArg Prod.snd hresult
      rw [hresult] at houtcome hlog
      cases houtcome with
      | returned hnotices hsuspended =>
          refine .inl ⟨?_, ?_⟩
          · intro id c hget
            rw [hsession] at hget
            rw [Bool.eq_false_iff]
            intro hc
            obtain ⟨before, hbefore, hwas⟩ := hsuspended hget hc
            rw [h.running hbefore] at hwas
            cases hwas
          · rw [hlog, hnotices, List.map_nil, List.append_nil]
            exact h.log
      | @waiting c leaving _ hnotices hcurrent hsuspended hothers htransaction =>
          refine .inr ⟨c, leaving, ?_⟩
          constructor
          case toPaused => exact .of_hook hresult hcurrent hsuspended
          case others =>
            intro id other hne hget
            rw [hsession] at hget
            exact h.running (hothers hne hget)
          case transaction =>
            rw [hsession]
            exact htransaction
          case log =>
            rw [hlog, hnotices, List.getLast?_append]
            rfl

theorem Paused.same {operation : Operation} {c : Context} {leaving : Bool}
    (h : x.Paused c leaving) (hstage : (x.session.after operation).stage = x.session.stage)
    (hwaiting : x.waitingAfter operation = x.waiting) : (x.after operation).Paused c leaving where
  current := (current?_congr hstage).trans h.current
  suspended := h.suspended
  waiting := hwaiting.trans h.waiting

theorem Paused.stage_requestBreak {c : Context} {leaving : Bool} (h : x.Paused c leaving) :
    x.session.requestBreak.2.stage =
      (x.session.contexts.set c.id c.requestBreak, x.session.active) := by
  rw [Session.requestBreak, h.current]
  rfl

theorem Paused.requestBreak {operation : Operation} {c : Context} {leaving : Bool}
    (h : x.Paused c leaving) (hs : x.session.Grounded)
    (hstage : (x.session.after operation).stage = x.session.requestBreak.2.stage)
    (hwaiting : x.waitingAfter operation = x.waiting) :
    (x.after operation).Paused c.requestBreak leaving := by
  obtain ⟨hhead, _⟩ := hs.current?_eq_some h.current
  have hset := hstage.trans h.stage_requestBreak
  constructor
  case current =>
    refine current?_eq_some_iff.mpr ⟨c.id, ?_, ?_⟩
    · exact (congrArg List.head? (stage_eq_iff.mp hset).2).trans hhead
    · exact (context?_of_set (stage_eq_iff.mp hset).1 c.id).trans (if_pos rfl)
  case suspended => exact h.suspended
  case waiting => exact hwaiting.trans h.waiting

theorem Paused.proceed {c : Context} {leaving : Bool} (h : x.Paused c leaving)
    (hs : x.session.Grounded) (hopen : x.session.closed = false) :
    (x.session.after (.proceed (.resumption c.id leaving))).stage = x.session.stage ∧
      x.waitingAfter (.proceed (.resumption c.id leaving)) = x.waiting := by
  obtain ⟨_, hget⟩ := hs.current?_eq_some h.current
  have hsettle := settle_of_suspended hget (hs.stopped_eq hopen hget) h.suspended leaving
  refine ⟨congrArg (fun result => result.2.stage) hsettle, ?_⟩
  rw [waitingAfter, hsettle, h.waiting]
  rfl

theorem Held.same {operation : Operation} {c : Context} {leaving : Bool} (h : x.Held c leaving)
    (hstage : (x.session.after operation).stage = x.session.stage)
    (hadopts : operation.adopts = []) (hresumes : operation.resumes = false)
    (hwaiting : x.waitingAfter operation = x.waiting) : (x.after operation).Held c leaving where
  toPaused := h.toPaused.same hstage hwaiting
  others := by
    intro id other hne hget
    rw [Scene.after, context?_congr hstage] at hget
    exact h.others hne hget
  transaction := (x.session.after_traffic operation).transaction_none h.transaction hadopts
  log := by
    rw [Scene.after, events_eq_nil h.transaction hresumes, List.append_nil]
    exact h.log

theorem Held.requestBreak {operation : Operation} {c : Context} {leaving : Bool}
    (h : x.Held c leaving) (hs : x.session.Grounded)
    (hstage : (x.session.after operation).stage = x.session.requestBreak.2.stage)
    (hadopts : operation.adopts = []) (hresumes : operation.resumes = false)
    (hwaiting : x.waitingAfter operation = x.waiting) :
    (x.after operation).Held c.requestBreak leaving := by
  have hget := context?_of_set (stage_eq_iff.mp (hstage.trans h.stage_requestBreak)).1
  constructor
  case toPaused => exact h.toPaused.requestBreak hs hstage hwaiting
  case others =>
    intro id other hne hother
    exact h.others hne (((hget id).trans (if_neg (Ne.symm hne))).symm.trans hother)
  case transaction =>
    exact (x.session.after_traffic operation).transaction_none h.transaction hadopts
  case log =>
    rw [Scene.after, events_eq_nil h.transaction hresumes, List.append_nil]
    exact h.log

theorem Held.resume {line : String} {command : Command} {mode : StepMode} {c : Context}
    {leaving : Bool} (h : x.Held c leaving) (hparse : Command.parse line = .ok command)
    (hmode : command.mode? = some mode) : (x.after (.command line)).Free := by
  have hafter : (x.after (.command line)).session =
      (x.session.adopt command.transaction?).resume mode :=
    dispatch_of_parse hparse (execute_of_mode? hmode)
  have hstage := stage_hidesTalk.adopt x.session command.transaction?
  have hcontexts : (x.after (.command line)).session.contexts =
      x.session.contexts.set c.id (c.resume mode) := by
    rw [hafter, resume_of_suspended ((current?_congr hstage).trans h.current) h.suspended]
    exact congrArg (fun k => k.1.set c.id (c.resume mode)) hstage
  constructor
  case running =>
    intro id other hget
    rw [context?_of_set hcontexts] at hget
    split at hget
    · cases hget
      rfl
    · rename_i hne
      exact h.others (Ne.symm hne) hget
  case log =>
    rw [Scene.after, events, resumes_of_mode? hparse hmode, ← List.append_assoc,
      List.getLast?_append]
    exact nofun

theorem Held.command {line : String} {c : Context} {leaving : Bool} (h : x.Held c leaving)
    (hs : x.session.Grounded) (hopen : (x.after (.command line)).session.closed = false) :
    (x.after (.command line)).Free ∨
      ∃ c leaving, (x.after (.command line)).Held c leaving := by
  rcases x.session.dispatch_effect line with ⟨hsame, hmode⟩ | ⟨command, hparse, heffect⟩
  · have hresumes := resumes_of_mode?_eq_none hmode
    exact .inr ⟨c, leaving,
      h.same (congrArg stage hsame) (adopts_of_mode?_eq_none hmode) hresumes rfl⟩
  · cases hmode : command.mode? with
    | some mode => exact .inl (h.resume hparse hmode)
    | none =>
        have hadopts := adopts_of_parse hparse hmode
        have hresumes : (Operation.command line).resumes = false := by
          simp [Operation.resumes, hparse, hmode]
        generalize hresult : x.session.dispatch line = result at heffect
        cases heffect with
        | resumed hsome =>
            rw [hmode] at hsome
            cases hsome
        | interrupted _ _ =>
            have hstage : (x.session.dispatch line).stage = x.session.requestBreak.2.stage := by
              rw [hresult]
              rfl
            exact .inr ⟨c.requestBreak, leaving, h.requestBreak hs hstage hadopts hresumes rfl⟩
        | stopped _ =>
            change (x.session.dispatch line).closed = false at hopen
            rw [hresult, closed_close] at hopen
            cases hopen
        | answered _ _ =>
            have hstage : (x.session.dispatch line).stage = x.session.stage := by
              rw [hresult]
              rfl
            exact .inr ⟨c, leaving, h.same hstage hadopts hresumes rfl⟩

theorem Held.proceed {c : Context} {leaving : Bool} (h : x.Held c leaving)
    (hs : x.session.Grounded) (hopen : x.session.closed = false) :
    (x.after (.proceed (.resumption c.id leaving))).Held c leaving := by
  obtain ⟨hstage, hwaiting⟩ := h.toPaused.proceed hs hopen
  exact h.same hstage rfl rfl hwaiting

theorem agrees_after {operation : Operation} (h : x.Free ∨ ∃ c leaving, x.Held c leaving)
    (hs : x.session.Grounded) (hadmits : x.Admits operation)
    (hopen : (x.after operation).session.closed = false) :
    (x.after operation).Free ∨ ∃ c leaving, (x.after operation).Held c leaving := by
  rcases h with h | ⟨c, leaving, h⟩
  · cases operation with
    | hook event => exact h.hook hs event
    | reportBreak reason => cases hadmits
    | _ => exact .inl (h.after hs nofun rfl hopen)
  · -- The thread of the debuggee waits: it can only ask again whether its wait has ended.
    cases operation with
    | command line => exact h.command hs hopen
    | hook event | enterContext =>
        rw [Admits, h.waiting] at hadmits
        cases hadmits
    | exitContext id =>
        rw [Admits, h.waiting] at hadmits
        cases hadmits.1
    | adopt transaction | reportBreak reason | resume mode => cases hadmits
    | proceed wait =>
        cases h.waiting.symm.trans hadmits
        exact .inr ⟨c, leaving, h.proceed hs (closed_of_after hopen)⟩
    | requestBreak =>
        exact .inr ⟨c.requestBreak, leaving, h.requestBreak hs rfl rfl rfl rfl⟩
    | finish =>
        change x.session.reportEnd.close.closed = false at hopen
        rw [closed_close] at hopen
        cases hopen
    | close =>
        change x.session.close.closed = false at hopen
        rw [closed_close] at hopen
        cases hopen
    | awaitStart =>
        exact .inr ⟨c, leaving, h.same (congrArg stage x.session.settle_start) rfl rfl rfl⟩
    | reportEnd => exact .inr ⟨c, leaving, h.same (stage_hidesTalk.reportEnd x.session) rfl rfl rfl⟩
    | write stream text =>
        exact .inr ⟨c, leaving, h.same (stage_hidesTalk.write x.session stream text) rfl rfl rfl⟩
    | markInitialized | announce fileUri | addListener tag | removeListener id
    | breakpoints operation | configure settings | redirect streams | mutate heap | dropClient
    | collect => exact .inr ⟨c, leaving, h.same rfl rfl rfl rfl⟩

theorem Reachable.agrees (h : x.Reachable) :
    x.session.Grounded ∧
      (x.session.closed = false → x.Free ∨ ∃ c leaving, x.Held c leaving) := by
  induction h with
  | opened settings host heap =>
      exact ⟨.opened settings host heap, fun _ => .inl ⟨nofun, nofun⟩⟩
  | step _ hadmits ih =>
      obtain ⟨hs, hagrees⟩ := ih
      refine ⟨hs.after _, ?_⟩
      intro hopen
      exact agrees_after (hagrees (closed_of_after hopen)) hs hadmits hopen

/-- A context is suspended just when the last that the client knows is a break.  It is the current
one then and the only one, and nothing is pending. -/
theorem Reachable.suspended_iff_break (h : x.Reachable) (hopen : x.session.closed = false) :
    ((∃ id c, x.session.context? id = some c ∧ c.isSuspended = true) ↔
        x.log.getLast? = some (.noticed .break)) ∧
      ∀ {id c}, x.session.context? id = some c → c.isSuspended = true →
        x.session.current? = some c ∧
          (∀ {id' other}, x.session.context? id' = some other → other.isSuspended = true →
            id' = id) ∧
          x.session.transaction = none := by
  obtain ⟨hs, hagrees⟩ := h.agrees
  rcases hagrees hopen with hfree | ⟨c, leaving, hheld⟩
  · have hnever : ∀ {id c}, x.session.context? id = some c → c.isSuspended ≠ true := by
      intro id c hget
      exact Bool.eq_false_iff.mp (hfree.running hget)
    refine ⟨⟨?_, fun hlog => absurd hlog hfree.log⟩, ?_⟩
    · rintro ⟨id, c, hget, hc⟩
      exact absurd hc (hnever hget)
    · intro id c hget hc
      exact absurd hc (hnever hget)
  · obtain ⟨_, hget⟩ := hs.current?_eq_some hheld.current
    have honly : ∀ {id other}, x.session.context? id = some other → other.isSuspended = true →
        id = c.id := by
      intro id other hother hsuspended
      apply Classical.byContradiction
      intro hne
      rw [hheld.others hne hother] at hsuspended
      cases hsuspended
    refine ⟨⟨fun _ => hheld.log, fun _ => ⟨c.id, c, hget, hheld.suspended⟩⟩, ?_⟩
    intro id other hother hsuspended
    obtain rfl := honly hother hsuspended
    obtain rfl := Option.some.inj (hget.symm.trans hother)
    exact ⟨hheld.current, honly, hheld.transaction⟩

theorem suspended_iff_break_stepping :
    let x : Scene := { session := opened {} (Host.ofTable none []) {} }
    let y := ((x.after .enterContext).after (.command "step_into -i 1")).after
      (.hook (.line "/a.js" 1))
    y.Reachable ∧ y.session.closed = false ∧
      ∃ id c, y.session.context? id = some c ∧ c.isSuspended = true := by
  intro x y
  have hreachable : y.Reachable := .step (.step (.step (.opened _ _ _) rfl) trivial) rfl
  have hopen : y.session.closed = false := by decide +kernel
  have hlog : y.log.getLast? = some (.noticed .break) := by decide +kernel
  exact ⟨hreachable, hopen, (hreachable.suspended_iff_break hopen).1.mpr hlog⟩

end Scene

end Session

end ScriptDebugger
