import ScriptDebugger.Debuggee
import ScriptDebugger.Proofs.Session.Attached

namespace ScriptDebugger

theorem Progress.eq_waiting {progress : Progress} {wait : Wait} (h : progress.wait? = some wait) :
    progress = .waiting wait := by
  cases progress with
  | returned outcome => cases h
  | waiting other => exact congrArg Progress.waiting (Option.some.inj h)

namespace Session

/-- A session after its end. -/
structure Over (s : Session) : Prop where
  closed : s.closed = true
  active : s.active = []
  outbox : s.outbox.isOpen = false

theorem stage_resume_of_current? {s : Session} (h : s.current? = none) (mode : StepMode) :
    (s.resume mode).stage = s.stage := by
  rw [resume, h]
  rfl

namespace Over

variable {s : Session}

theorem current?_eq (h : s.Over) : s.current? = none := by
  rw [current?, h.active]
  rfl

theorem of_close (hopen : s.closed = false) : s.close.Over := by
  have hclose : s.close = { s.active.foldl stopContext s with
      closed := true
      transaction := none
      registry := s.registry.clear
      active := []
      outbox := s.outbox.close
      listeners := []
      told := s.told ++ s.listeners } := by
    rw [close, hopen]
    rfl
  rw [hclose]
  exact ⟨rfl, rfl, rfl⟩

theorem stage_command (h : s.Over) (line : String) : (s.dispatch line).stage = s.stage := by
  rcases s.dispatch_effect line with ⟨hsame, _⟩ | ⟨c, _, heffect⟩
  · rw [hsame]
  · generalize s.dispatch line = result at heffect
    cases heffect with
    | resumed _ =>
        have hstage := stage_hidesTalk.adopt s c.transaction?
        rw [stage_resume_of_current? ((current?_congr hstage).trans h.current?_eq), hstage]
    | interrupted _ _ =>
        rw [requestBreak, h.current?_eq]
        rfl
    | stopped _ =>
        have hclosed : ∀ e, (s.reportEnd.answer e).closed = true := fun _ =>
          (closed_aside.talk.reportEnd s).trans h.closed
        rw [close_of_closed (hclosed _)]
        exact stage_hidesTalk.reportEnd s
    | answered _ _ => rfl

theorem stage_after (h : s.Over) {operation : Operation}
    (hproceed : ∀ wait, operation ≠ .proceed wait) : (s.after operation).stage = s.stage := by
  cases operation with
  | command line => exact h.stage_command line
  | hook event => exact congrArg (fun result => result.2.stage) (hook_of_closed h.closed event)
  | awaitStart => exact congrArg stage s.settle_start
  | proceed wait => exact absurd rfl (hproceed wait)
  | enterContext =>
      rw [after, perform, enterContext, if_pos h.closed]
      rfl
  | exitContext id =>
      refine stage_eq_iff.mpr ⟨rfl, ?_⟩
      change s.active.filter _ = s.active
      rw [h.active]
      rfl
  | adopt transaction => exact stage_hidesTalk.adopt s transaction
  | resume mode => exact stage_resume_of_current? h.current?_eq mode
  | requestBreak =>
      rw [after, perform, requestBreak, h.current?_eq]
      rfl
  | reportBreak reason => exact stage_hidesTalk.reportBreak s reason
  | reportEnd => exact stage_hidesTalk.reportEnd s
  | finish =>
      rw [after, perform, finish, close_of_closed ((closed_aside.talk.reportEnd s).trans h.closed)]
      exact stage_hidesTalk.reportEnd s
  | close => exact congrArg stage (close_of_closed h.closed)
  | write stream text => exact stage_hidesTalk.write s stream text
  | markInitialized | announce fileUri | addListener tag | removeListener id
  | breakpoints operation | configure settings | redirect streams | mutate heap | dropClient
  | collect => rfl

theorem after (h : s.Over) (operation : Operation) : (s.after operation).Over where
  closed := (s.after_traffic operation).closed h.closed
  active := by
    by_cases hproceed : ∃ wait, operation = .proceed wait
    · obtain ⟨wait, rfl⟩ := hproceed
      change (s.settle wait).2.active = []
      rcases s.settle_effect wait with hsame | ⟨_, c, _, hpop⟩
      · rw [hsame, h.active]
      · rw [hpop]
        exact h.active
    · exact (stage_eq_iff.mp (h.stage_after (not_exists.mp hproceed))).2.trans h.active
  outbox := by
    rw [Bool.eq_false_iff]
    intro hopen
    have hbefore := ((s.after_traffic operation).isOpen hopen).1
    rw [h.outbox] at hbefore
    cases hbefore

theorem sent_eq_nil (h : s.Over) (operation : Operation) : s.sent operation = [] := by
  have hqueue : ∀ messages, (s.outbox.sendAll messages).queue = s.outbox.queue :=
    Outbox.queue_sendAll_of_not_isOpen h.outbox
  have hnone : s.outbox.queue.drop s.outbox.queue.length = [] := List.drop_length
  cases s.after_traffic operation with
  | kept _ _ _ hchannel | released _ _ _ _ _ _ _ hchannel =>
      rw [sent, (channel_eq_iff.mp hchannel).1, hqueue, hnone]
  | ended _ _ _ hchannel =>
      rw [sent, (channel_eq_iff.mp hchannel).1, Outbox.queue_close, hqueue, hnone]
  | cut _ hchannel => rw [sent, (channel_eq_iff.mp hchannel).1, Outbox.queue_close, hnone]
  | dropped _ hchannel => rw [sent, (channel_eq_iff.mp hchannel).1, hnone]
  | collected _ hchannel => rw [sent, (channel_eq_iff.mp hchannel).1, List.drop_nil]

theorem awaitStart_eq (h : s.Over) : s.awaitStart = s.returned (.error .terminated) := by
  rw [awaitStart, settle, if_pos h.closed]

theorem wait?_perform (h : s.Over) {operation : Operation}
    (hproceed : ∀ wait, operation ≠ .proceed wait) : (s.perform operation).1.wait? = none := by
  cases operation with
  | hook event => exact congrArg (fun result => result.1.wait?) (hook_of_closed h.closed event)
  | awaitStart => exact congrArg (fun result => result.1.wait?) h.awaitStart_eq
  | proceed wait => exact absurd rfl (hproceed wait)
  | enterContext =>
      rw [perform, enterContext, if_pos h.closed]
      rfl
  | _ => rfl

theorem of_reached (h : s.Reached) (hclosed : s.closed = true) : s.Over := by
  obtain ⟨settings, host, heap, operations, rfl⟩ := h
  have hopened : (opened settings host heap).closed = true → (opened settings host heap).Over :=
    fun hclosed => absurd hclosed Bool.false_ne_true
  refine run_induction (motive := fun s => s.closed = true → s.Over) hopened ?_ operations hclosed
  intro s hs operation hafter
  cases hopen : s.closed with
  | true => exact (hs hopen).after operation
  | false =>
      cases s.after_shift operation with
      | same _ hsame | moved _ _ _ _ hsame | halted _ _ _ _ _ hsame | entered _ _ hsame _
      | left _ _ hsame _ =>
          rw [hsame, hopen] at hafter
          cases hafter
      | ended told _ hbefore hend _ =>
          rw [hend]
          exact .of_close hbefore

end Over

theorem context?_close {s : Session} (h : s.Reached) (id : ContextId) :
    s.close.context? id = (s.context? id).map fun c => if id ∈ s.active then c.stop else c := by
  cases hclosed : s.closed with
  | true =>
      rw [close_of_closed hclosed, (Over.of_reached h hclosed).active]
      simp
  | false => exact context?_close_of_open (Grounded.of_reached h).id_eq hclosed id

/-- A session with the waits of all calls that have not returned. -/
structure Crowd where
  session : Session
  waits : List Wait := []

namespace Crowd

/-- Only a call that waits can go on. -/
def Admits (x : Crowd) : Operation → Prop
  | .proceed wait => wait ∈ x.waits
  | _ => True

def others (x : Crowd) : Operation → List Wait
  | .proceed wait => x.waits.erase wait
  | _ => x.waits

def after (x : Crowd) (operation : Operation) : Crowd where
  session := x.session.after operation
  waits := x.others operation ++ (x.session.perform operation).1.wait?.toList

inductive Later (x : Crowd) : Crowd → Prop where
  | refl : Later x x
  | step {y : Crowd} {operation : Operation} (h : Later x y) (hadmits : y.Admits operation) :
      Later x (y.after operation)

def Reachable (x : Crowd) : Prop :=
  ∃ settings host heap, Later { session := opened settings host heap } x

theorem Reachable.reached {x : Crowd} (h : x.Reachable) : x.session.Reached := by
  obtain ⟨settings, host, heap, hlater⟩ := h
  induction hlater with
  | refl => exact ⟨settings, host, heap, [], rfl⟩
  | step _ _ ih => exact ih.after _

def left (x y : Crowd) (id : ContextId) : Nat :=
  x.waits.count (.resumption id true) - y.waits.count (.resumption id true)

def Still (x : Crowd) : Prop :=
  ∀ id c, x.session.context? id = some c → c.outcome? ≠ none

/-- The session is over, calls have gone on, and those that have left a function have dropped its
frame. -/
structure Drained (x y : Crowd) : Prop where
  ended : y.session.Over
  grounded : y.session.Grounded
  fewer : ∀ wait, y.waits.count wait ≤ x.waits.count wait
  context?_eq : ∀ id, y.session.context? id =
    (x.session.context? id).map fun c => { c with frames := c.frames.drop (x.left y id) }

namespace Drained

variable {x y z : Crowd}

theorem refl (hover : x.session.Over) (hgrounded : x.session.Grounded) : Drained x x where
  ended := hover
  grounded := hgrounded
  fewer := fun _ => Nat.le_refl _
  context?_eq := by
    intro id
    simp [left]

theorem still (h : Drained x y) (hstill : x.Still) : y.Still := by
  intro id c hget
  rw [h.context?_eq] at hget
  obtain ⟨before, hbefore, rfl⟩ := Option.map_eq_some_iff.mp hget
  exact hstill id before hbefore

theorem of_same (h : Drained x y) (hover : z.session.Over) (hgrounded : z.session.Grounded)
    (hget : z.session.context? = y.session.context?)
    (hfewer : ∀ wait, z.waits.count wait ≤ y.waits.count wait)
    (hleft : ∀ id c, y.session.context? id = some c →
      z.waits.count (.resumption id true) = y.waits.count (.resumption id true)) :
    Drained x z where
  ended := hover
  grounded := hgrounded
  fewer := fun wait => Nat.le_trans (hfewer wait) (h.fewer wait)
  context?_eq := by
    intro id
    rw [hget, h.context?_eq]
    cases hknown : y.session.context? id with
    | none =>
        rw [h.context?_eq] at hknown
        rw [Option.map_eq_none_iff.mp hknown]
        rfl
    | some c => simp only [left, hleft id c hknown]

theorem wait?_settle (h : Drained x y) (hstill : y.Still) (wait : Wait) :
    (y.session.settle wait).1.wait? = none := by
  cases wait with
  | start => exact congrArg (fun result => result.1.wait?) h.ended.awaitStart_eq
  | resumption id leaving =>
      cases hget : y.session.context? id with
      | none => simp only [settle, hget]; rfl
      | some c =>
          obtain ⟨outcome, houtcome⟩ := Option.ne_none_iff_exists'.mp (hstill id c hget)
          rw [settle_of_outcome hget houtcome]
          rfl

theorem of_pop (h : Drained x y) {id : ContextId} {c : Context}
    (hmem : .resumption id true ∈ y.waits) (hget : y.session.context? id = some c)
    (hsession : z.session = y.session.setContext c.pop)
    (hwaits : z.waits = y.waits.erase (.resumption id true)) (hover : z.session.Over)
    (hgrounded : z.session.Grounded) : Drained x z where
  ended := hover
  grounded := hgrounded
  fewer := by
    intro wait
    rw [hwaits]
    exact Nat.le_trans (List.erase_sublist.count_le wait) (h.fewer wait)
  context?_eq := by
    intro other
    have hid : c.id = id := h.grounded.id_eq hget
    rw [hsession, context?_setContext, show c.pop.id = id from hid]
    by_cases hsame : id = other
    · subst hsame
      have hpositive := List.count_pos_iff.mpr hmem
      have hfewer := h.fewer (.resumption id true)
      have hnext : x.left z id = x.left y id + 1 := by
        simp only [left, hwaits, List.count_erase_self]
        omega
      rw [h.context?_eq] at hget
      obtain ⟨before, hbefore, rfl⟩ := Option.map_eq_some_iff.mp hget
      rw [if_pos rfl, hbefore, hnext]
      simp [Context.pop]
    · have hother : x.left z other = x.left y other := by
        simp only [left, hwaits]
        rw [List.count_erase_of_ne (by simpa using Ne.symm hsame)]
      rw [if_neg hsame, h.context?_eq, hother]

theorem proceed {wait : Wait} (h : Drained x y) (hstill : y.Still) (hmem : wait ∈ y.waits) :
    Drained x (y.after (.proceed wait)) := by
  have hwaits : (y.after (.proceed wait)).waits = y.waits.erase wait := by
    change y.waits.erase wait ++ (y.session.settle wait).1.wait?.toList = _
    rw [h.wait?_settle hstill, Option.toList_none, List.append_nil]
  have hover := h.ended.after (.proceed wait)
  have hgrounded := h.grounded.after (.proceed wait)
  have hkept : (y.session.settle wait).2 = y.session →
      (∀ id c, y.session.context? id = some c → wait ≠ .resumption id true) →
      Drained x (y.after (.proceed wait)) := by
    intro hsession hother
    refine h.of_same hover hgrounded (congrArg context? hsession) ?_ ?_
    · intro other
      rw [hwaits]
      exact List.erase_sublist.count_le other
    · intro id c hget
      rw [hwaits, List.count_erase_of_ne (Ne.symm (hother id c hget))]
  cases wait with
  | start => exact hkept y.session.settle_start (by rintro _ _ _ ⟨⟩)
  | resumption id leaving =>
      cases hget : y.session.context? id with
      | none =>
          apply hkept
          · simp only [settle, hget]
            rfl
          · intro other c hother hwait
            cases hwait
            rw [hget] at hother
            cases hother
      | some c =>
          obtain ⟨outcome, houtcome⟩ := Option.ne_none_iff_exists'.mp (hstill id c hget)
          have hsettle := settle_of_outcome hget houtcome leaving
          cases leaving with
          | false => exact hkept (congrArg Prod.snd hsettle) (by rintro _ _ _ ⟨⟩)
          | true => exact h.of_pop hmem hget (congrArg Prod.snd hsettle) hwaits hover hgrounded

theorem after {operation : Operation} (h : Drained x y) (hstill : x.Still)
    (hadmits : y.Admits operation) : Drained x (y.after operation) := by
  by_cases hproceed : ∃ wait, operation = .proceed wait
  · obtain ⟨wait, rfl⟩ := hproceed
    exact h.proceed (h.still hstill) hadmits
  · have hother := not_exists.mp hproceed
    have hothers : y.others operation = y.waits := by
      cases operation with
      | proceed wait => exact absurd rfl (hother wait)
      | _ => rfl
    have hwaits : (y.after operation).waits = y.waits := by
      change y.others operation ++ (y.session.perform operation).1.wait?.toList = _
      rw [hothers, h.ended.wait?_perform hother, Option.toList_none, List.append_nil]
    refine h.of_same (h.ended.after operation) (h.grounded.after operation)
      (context?_congr (h.ended.stage_after hother)) ?_ ?_
    · intro wait
      exact Nat.le_of_eq (congrArg (List.count wait) hwaits)
    · intro id c _
      rw [hwaits]

theorem later (hover : x.session.Over) (hgrounded : x.session.Grounded) (hstill : x.Still)
    (hlater : Later x y) : Drained x y := by
  induction hlater with
  | refl => exact .refl hover hgrounded
  | step _ hadmits ih => exact ih.after hstill hadmits

end Drained

theorem over_after_close {x : Crowd} (h : x.Reachable) : (x.after .close).session.Over := by
  cases hclosed : x.session.closed with
  | true =>
      have hsame : (x.after .close).session = x.session := close_of_closed hclosed
      rw [hsame]
      exact .of_reached h.reached hclosed
  | false => exact .of_close hclosed

theorem still_after_close {x : Crowd} (h : x.Reachable)
    (hentered : ∀ id c, x.session.context? id = some c → c.isSuspended = true →
      id ∈ x.session.active) : (x.after .close).Still := by
  intro id c hget
  have hclose := context?_close h.reached id
  rw [show x.session.close.context? id = some c from hget] at hclose
  obtain ⟨before, hbefore, hc⟩ := Option.map_eq_some_iff.mp hclose.symm
  split at hc
  · subst hc
    exact Option.some_ne_none _
  · subst hc
    cases hsuspended : before.isSuspended with
    | true => exact absurd (hentered id before hbefore hsuspended) ‹_›
    | false =>
        simp only [Context.outcome?, hsuspended]
        split
        · exact Option.some_ne_none _
        · exact Option.some_ne_none _

end Crowd

theorem ofRun_goOn_of_terminated {stage : Script.Stage} {wait : Wait}
    (h : (stage.session.settle wait).1 = .returned (.error .terminated)) (p : Script.Program)
    (context : ContextId) (rest : List Script.Action) :
    (Debuggee.ofRun p context (stage.goOn p wait rest)).1 = .inl (.error .terminated) := by
  simp only [Script.Stage.goOn, Script.Stage.turn, h]
  rfl

namespace Crowd

theorem settle_blocked {x y : Crowd} (hx : x.Reachable)
    (hentered : ∀ id c, x.session.context? id = some c → c.isSuspended = true →
      id ∈ x.session.active)
    (hy : Drained (x.after .close) y) {wait : Wait}
    (hblocked : (x.session.settle wait).1 = .waiting wait) :
    (y.session.settle wait).1 = .returned (.error .terminated) := by
  cases wait with
  | start => exact congrArg Prod.fst hy.ended.awaitStart_eq
  | resumption id leaving =>
      cases hget : x.session.context? id with
      | none =>
          simp only [settle, hget] at hblocked
          cases hblocked
      | some c =>
          have hsuspended : c.isSuspended = true := by
            cases houtcome : c.outcome? with
            | some outcome =>
                rw [settle_of_outcome hget houtcome] at hblocked
                cases hblocked
            | none =>
                simp only [Context.outcome?] at houtcome
                split at houtcome
                · cases houtcome
                · split at houtcome
                  · assumption
                  · cases houtcome
          have hclose : (x.after .close).session.context? id = some c.stop := by
            refine (context?_close hx.reached id).trans ?_
            rw [hget, Option.map_some, if_pos (hentered id c hget hsuspended)]
          have hy := hy.context?_eq id
          rw [hclose, Option.map_some] at hy
          exact congrArg Prod.fst (settle_of_outcome hy rfl leaving)

/-- When a session is closed, with its suspended contexts all entered, the calls that are blocked
fail, whenever they look.  From then on nothing is sent, nothing is let in and nobody waits, and
the frames of a context stay as they are, but for those that calls of its threads leave that were
leaving a function already. -/
theorem closed_is_final {x y : Crowd} (hx : x.Reachable)
    (hentered : ∀ id c, x.session.context? id = some c → c.isSuspended = true →
      id ∈ x.session.active)
    (hy : Later (x.after .close) y) :
    (∀ wait ∈ x.waits, (x.session.settle wait).1 = .waiting wait →
      (y.session.settle wait).1 = .returned (.error .terminated) ∧
        ∀ printed p context rest,
          (Debuggee.ofRun p context
            (Script.Stage.goOn { session := y.session, printed := printed } p wait rest)).1 =
            .inl (.error .terminated)) ∧
    (∀ operation, y.session.sent operation = []) ∧
    y.session.enterContext = .error .terminated ∧
    (∀ event, (y.session.hook event).1 = .returned (.error .terminated)) ∧
    y.session.awaitStart.1 = .returned (.error .terminated) ∧
    y.session.active = [] ∧ y.session.requestBreak.1 = false ∧ y.session.isConnected = false ∧
    ∀ id c, x.session.context? id = some c → ∃ after, y.session.context? id = some after ∧
      after.frames = c.frames.drop (x.left y id) := by
  have hdrained : Drained (x.after .close) y :=
    .later (over_after_close hx) ((Grounded.of_reached hx.reached).after .close)
      (still_after_close hx hentered) hy
  have hover := hdrained.ended
  refine ⟨?_, hover.sent_eq_nil, ?_, ?_, ?_, hover.active, ?_, ?_, ?_⟩
  · intro wait _ hblocked
    have hsettle := settle_blocked hx hentered hdrained hblocked
    exact ⟨hsettle, fun printed p context rest => ofRun_goOn_of_terminated hsettle p context rest⟩
  · rw [enterContext, if_pos hover.closed]
  · intro event
    rw [hook_of_closed hover.closed]
  · rw [hover.awaitStart_eq]
    rfl
  · rw [requestBreak, hover.current?_eq]
  · rw [isConnected, hover.closed]
    rfl
  · intro id c hget
    have hclose := context?_close hx.reached id
    have hy := hdrained.context?_eq id
    rw [show (x.after .close).session.context? id = _ from hclose, hget, Option.map_some,
      Option.map_some] at hy
    have hleft : (x.after .close).left y id = x.left y id :=
      congrArg (fun waits => waits.count (.resumption id true) - _) (List.append_nil x.waits)
    refine ⟨_, hy, ?_⟩
    rw [hleft]
    split
    · rfl
    · rfl

theorem closed_is_final_leaving :
    let x : Crowd := { session := opened {} (Host.ofTable none []) {} }
    let held := ((((x.after .enterContext).after
      (.hook (.enter { file := "/a.js", line := 1, function := "f" }))).after
      (.command "feature_set -i 1 -n suspend_on_exit -v 1")).after (.command "run -i 2")).after
      (.hook .exit)
    let y := (held.after .close).after (.proceed (.resumption 1 true))
    held.waits = [.resumption 1 true] ∧
      (held.session.settle (.resumption 1 true)).1 = .waiting (.resumption 1 true) ∧
      (y.session.settle (.resumption 1 true)).1 = .returned (.error .terminated) ∧
      ∃ after, y.session.context? 1 = some after ∧ after.frames = [] := by
  intro x held y
  have hreachable : held.Reachable :=
    ⟨_, _, _, .step (.step (.step (.step (.step .refl trivial) trivial) trivial) trivial) trivial⟩
  have hall : ∀ entry ∈ held.session.contexts, entry.1 ∈ held.session.active := by decide +kernel
  have hwaits : held.waits = [.resumption 1 true] := by decide +kernel
  have hblocked : (held.session.settle (.resumption 1 true)).1 = .waiting (.resumption 1 true) :=
    Progress.eq_waiting (by decide +kernel)
  have hadmits : (held.after .close).Admits (.proceed (.resumption 1 true)) := by
    change Wait.resumption 1 true ∈ (held.after .close).waits
    decide +kernel
  have hfinal := closed_is_final hreachable
    (fun _ _ hget _ => hall _ (Table.mem_of_get? hget)) (.step .refl hadmits)
  refine ⟨hwaits, hblocked, (hfinal.1 _ ?_ hblocked).1, ?_⟩
  · rw [hwaits]
    exact List.mem_singleton_self _
  · have hdepth : (held.session.context? 1).map Context.depth = some 1 := by decide +kernel
    obtain ⟨c, hget, hframes⟩ := Option.map_eq_some_iff.mp hdepth
    obtain ⟨after, hafter, hdropped⟩ := hfinal.2.2.2.2.2.2.2.2 1 c hget
    have hleft : held.left y 1 = 1 := by decide +kernel
    refine ⟨after, hafter, ?_⟩
    rw [hdropped, hleft, List.drop_eq_nil_of_le (Nat.le_of_eq hframes)]

end Crowd

end Session

end ScriptDebugger
