import ScriptDebugger.Proofs.Session.ClientView

/-!
Requests to run that take two steps.  A worker adopts the transaction of a request and then lets
the debuggee run, and between the two other workers and the thread of the debuggee go on.  A break
that the client hears of lasts until some request takes its second step.  That request may be one
that began before the break, and even the one that the break was an answer to.
-/

namespace ScriptDebugger

namespace Session

namespace Scene

variable {x : Scene} {c : Context} {leaving : Bool}

theorem Paused.command {line : String} (h : x.Paused c leaving) (hs : x.session.Grounded)
    (hresumes : (Operation.command line).resumes = false)
    (hopen : (x.after (.command line)).session.closed = false) :
    ∃ next : Context, next.id = c.id ∧ (x.after (.command line)).Paused next leaving := by
  rcases x.session.dispatch_effect line with ⟨hsame, _⟩ | ⟨command, hparse, heffect⟩
  · exact ⟨c, rfl, h.same (congrArg stage hsame) rfl⟩
  · have hsession : x.session.after (.command line) = x.session.dispatch line := rfl
    change (x.session.dispatch line).closed = false at hopen
    generalize x.session.dispatch line = result at heffect hsession hopen
    cases heffect with
    | resumed hmode =>
        rw [resumes_of_mode? hparse hmode] at hresumes
        cases hresumes
    | interrupted _ _ =>
        refine ⟨c.requestBreak, rfl, h.requestBreak hs ?_ rfl⟩
        rw [hsession]
        rfl
    | stopped _ =>
        rw [closed_close] at hopen
        cases hopen
    | answered _ _ =>
        refine ⟨c, rfl, h.same ?_ rfl⟩
        rw [hsession]
        rfl

theorem Paused.after {operation : Operation} (h : x.Paused c leaving) (hs : x.session.Grounded)
    (hadmits : x.Admits operation) (hresumes : operation.resumes = false)
    (hopen : (x.after operation).session.closed = false) :
    ∃ next : Context, next.id = c.id ∧ (x.after operation).Paused next leaving := by
  cases operation with
  | command line => exact h.command hs hresumes hopen
  | hook event | enterContext =>
      rw [Admits, h.waiting] at hadmits
      cases hadmits
  | exitContext other =>
      rw [Admits, h.waiting] at hadmits
      cases hadmits.1
  | adopt transaction | reportBreak reason | resume mode => cases hadmits
  | proceed wait =>
      cases h.waiting.symm.trans hadmits
      obtain ⟨hstage, hwaiting⟩ := h.proceed hs (closed_of_after hopen)
      exact ⟨c, rfl, h.same hstage hwaiting⟩
  | requestBreak => exact ⟨c.requestBreak, rfl, h.requestBreak hs rfl rfl⟩
  | finish =>
      change x.session.reportEnd.close.closed = false at hopen
      rw [closed_close] at hopen
      cases hopen
  | close =>
      change x.session.close.closed = false at hopen
      rw [closed_close] at hopen
      cases hopen
  | awaitStart => exact ⟨c, rfl, h.same (congrArg stage x.session.settle_start) rfl⟩
  | reportEnd => exact ⟨c, rfl, h.same (stage_hidesTalk.reportEnd x.session) rfl⟩
  | write stream text => exact ⟨c, rfl, h.same (stage_hidesTalk.write x.session stream text) rfl⟩
  | markInitialized | announce fileUri | addListener tag | removeListener other
  | breakpoints operation | configure settings | redirect streams | mutate heap | dropClient
  | collect => exact ⟨c, rfl, h.same rfl rfl⟩

theorem Paused.resume (h : x.Paused c leaving) (mode : StepMode) :
    (x.after (.resume mode)).session.context? c.id = some (c.resume mode) := by
  have hcontexts : (x.session.resume mode).contexts =
      x.session.contexts.set c.id (c.resume mode) := by
    rw [resume_of_suspended h.current h.suspended]
    rfl
  exact (context?_of_set hcontexts c.id).trans (if_pos rfl)

theorem paused_of_sent {event : Hook} {transaction : String} {reason : Option String}
    (hs : x.session.Grounded)
    (hsent : .status .break transaction reason ∈ x.session.sent (.hook event)) :
    ∃ c leaving, (x.after (.hook event)).Paused c leaving := by
  have hnotice : RunStatus.break ∈ notices x.session (x.session.hook event).2 :=
    List.mem_filterMap.mpr ⟨_, hsent, rfl⟩
  have houtcome := hook_outcome hs event
  cases hresult : x.session.hook event with
  | mk progress after =>
      rw [hresult] at houtcome hnotice
      cases houtcome with
      | returned hnone _ =>
          rw [hnone] at hnotice
          cases hnotice
      | @waiting c leaving _ _ hcurrent hsuspended _ _ =>
          exact ⟨c, leaving, .of_hook hresult hcurrent hsuspended⟩

end Scene

/-- A request to run whose transaction is adopted.  Requests are numbered as they begin. -/
structure Request where
  number : Nat
  transaction : Option String
  mode : StepMode
  deriving DecidableEq

/-- A session with the report that waits, and the requests that are between their two steps. -/
structure Interplay where
  scene : Scene
  begun : List Request := []
  next : Nat := 0

namespace Interplay

inductive Move where
  | adopt (transaction : Option String) (mode : StepMode)
  | resume (request : Request)
  | operate (operation : Operation)

def Move.operation : Move → Operation
  | .adopt transaction _ => .adopt transaction
  | .resume request => .resume request.mode
  | .operate operation => operation

def session (x : Interplay) : Session :=
  x.scene.session

/-- Commands to run come as requests, and a request takes its steps in order. -/
def Admits (x : Interplay) : Move → Prop
  | .adopt _ _ => True
  | .resume request => request ∈ x.begun
  | .operate operation => x.scene.Admits operation ∧ operation.resumes = false

def begunAfter (x : Interplay) : Move → List Request
  | .adopt transaction mode => x.begun ++ [⟨x.next, transaction, mode⟩]
  | .resume request => x.begun.erase request
  | .operate _ => x.begun

def nextAfter (x : Interplay) : Move → Nat
  | .adopt _ _ => x.next + 1
  | _ => x.next

def after (x : Interplay) (move : Move) : Interplay where
  scene := x.scene.after move.operation
  begun := x.begunAfter move
  next := x.nextAfter move

def run (x : Interplay) (moves : List Move) : Interplay :=
  moves.foldl after x

def Allows (x : Interplay) : List Move → Prop
  | [] => True
  | move :: rest => x.Admits move ∧ (x.after move).Allows rest

def opened (settings : Settings) (host : Host) (heap : Heap) : Interplay where
  scene := { session := Session.opened settings host heap }

def Reachable (x : Interplay) : Prop :=
  ∃ settings host heap moves,
    (opened settings host heap).Allows moves ∧ x = (opened settings host heap).run moves

def Suspends (x : Interplay) (id : ContextId) : Prop :=
  ∃ c, x.session.context? id = some c ∧ c.isSuspended = true

variable {x : Interplay}

theorem grounded_run (h : x.session.Grounded) (moves : List Move) :
    (x.run moves).session.Grounded := by
  induction moves generalizing x with
  | nil => exact h
  | cons move rest ih => exact ih (h.after move.operation)

theorem closed_of_run {moves : List Move} (h : (x.run moves).session.closed = false) :
    x.session.closed = false := by
  induction moves generalizing x with
  | nil => exact h
  | cons move rest ih => exact closed_of_after (ih h)

theorem number_lt_nextAfter (h : ∀ request ∈ x.begun, request.number < x.next) {move : Move} :
    ∀ request ∈ (x.after move).begun, request.number < (x.after move).next := by
  intro request hmem
  cases move with
  | adopt transaction mode =>
      rcases List.mem_append.mp hmem with hmem | hmem
      · exact Nat.lt_succ_of_lt (h request hmem)
      · rw [List.mem_singleton.mp hmem]
        exact Nat.lt_succ_self _
  | resume other => exact h request (List.mem_of_mem_erase hmem)
  | operate operation => exact h request hmem

theorem number_lt_next_run (h : ∀ request ∈ x.begun, request.number < x.next) (moves : List Move) :
    ∀ request ∈ (x.run moves).begun, request.number < (x.run moves).next := by
  induction moves generalizing x with
  | nil => exact h
  | cons move rest ih => exact ih (number_lt_nextAfter h)

theorem paused_after {c : Context} {leaving : Bool} {move : Move} (h : x.scene.Paused c leaving)
    (hs : x.session.Grounded) (hadmits : x.Admits move)
    (hresume : ∀ request, move ≠ .resume request)
    (hopen : (x.after move).session.closed = false) :
    ∃ next : Context, next.id = c.id ∧ (x.after move).scene.Paused next leaving := by
  cases move with
  | adopt transaction mode => exact ⟨c, rfl, h.same (stage_hidesTalk.adopt x.session transaction) rfl⟩
  | resume request => exact absurd rfl (hresume request)
  | operate operation => exact h.after hs hadmits.1 hadmits.2 hopen

theorem paused_run {c : Context} {leaving : Bool} {moves : List Move}
    (h : x.scene.Paused c leaving) (hs : x.session.Grounded) (hallows : x.Allows moves)
    (hopen : (x.run moves).session.closed = false) :
    (∃ last : Context, last.id = c.id ∧ (x.run moves).scene.Paused last leaving) ∨
      ∃ request, .resume request ∈ moves ∧ (x.next ≤ request.number ∨ request ∈ x.begun) := by
  -- by induction on the moves: before one resumes the context, each leaves it suspended, and the
  -- requests begun by then are those of the start and later ones
  induction moves generalizing x c with
  | nil => exact .inl ⟨c, rfl, h⟩
  | cons move rest ih =>
      by_cases hresume : ∃ request, move = .resume request
      · obtain ⟨request, rfl⟩ := hresume
        exact .inr ⟨request, List.mem_cons_self, .inr hallows.1⟩
      · obtain ⟨next, hid, hnext⟩ :=
          paused_after h hs hallows.1 (not_exists.mp hresume) (closed_of_run hopen)
        rcases ih hnext (hs.after move.operation) hallows.2 hopen with
          ⟨last, hlast, hpaused⟩ | ⟨request, hmem, hwhen⟩
        · exact .inl ⟨last, hlast.trans hid, hpaused⟩
        · refine .inr ⟨request, List.mem_cons_of_mem move hmem, ?_⟩
          cases move with
          | adopt transaction mode =>
              rcases hwhen with hlater | hbegun
              · exact .inl (Nat.le_of_succ_le hlater)
              · rcases List.mem_append.mp hbegun with hbegun | hbegun
                · exact .inr hbegun
                · rw [List.mem_singleton.mp hbegun]
                  exact .inl (Nat.le_refl _)
          | resume other => exact absurd ⟨other, rfl⟩ hresume
          | operate operation => exact hwhen

theorem released_of_resume {c : Context} {leaving : Bool} (h : x.scene.Paused c leaving)
    (request : Request) : ¬ (x.after (.resume request)).Suspends c.id := by
  rintro ⟨other, hget, hsuspended⟩
  have hother := (h.resume request.mode).symm.trans hget
  cases hother
  cases hsuspended

/-- A break that the client hears of stops the thread of the debuggee until the session is closed
or a request resumes the context: one that began after the break, or one that was between its two
steps at the break.  The first to take its second step does resume it. -/
theorem break_lasts_until_resumption {event : Hook} {transaction : String} {reason : Option String}
    (hx : x.Reachable)
    (hsent : .status .break transaction reason ∈ x.session.sent (.hook event)) :
    let y := x.after (.operate (.hook event))
    (∀ request ∈ x.begun, request.number < x.next) ∧
    ∃ c leaving, y.scene.Paused c leaving ∧
      ∀ moves, y.Allows moves → (y.run moves).session.closed = false →
        (∃ last : Context, last.id = c.id ∧ (y.run moves).scene.Paused last leaving ∧
          ∀ request, ¬ ((y.run moves).after (.resume request)).Suspends c.id) ∨
        ∃ request, .resume request ∈ moves ∧ (x.next ≤ request.number ∨ request ∈ x.begun) := by
  intro y
  obtain ⟨settings, host, heap, before, _, rfl⟩ := hx
  have hopened : (opened settings host heap).session.Grounded := .opened settings host heap
  have hs : ((opened settings host heap).run before).session.Grounded := grounded_run hopened before
  have hy : y.session.Grounded := hs.after (.hook event)
  have hnumbers : ∀ request ∈ (opened settings host heap).begun,
      request.number < (opened settings host heap).next :=
    fun _ hmem => absurd hmem List.not_mem_nil
  obtain ⟨c, leaving, hpaused⟩ := Scene.paused_of_sent hs hsent
  refine ⟨number_lt_next_run hnumbers before, c, leaving, hpaused, ?_⟩
  intro moves hallows hopen
  rcases paused_run hpaused hy hallows hopen with
    ⟨last, hid, hlast⟩ | hrequest
  · refine .inl ⟨last, hid, hlast, ?_⟩
    intro request
    rw [← hid]
    exact released_of_resume hlast request
  · exact .inr hrequest

theorem exists_break_of_reported {messages : List Message} {transaction : String}
    (hreported : reported messages = [transaction])
    (hnotices : messages.filterMap Message.notice? = [.break]) :
    ∃ reason, .status .break transaction reason ∈ messages := by
  have hmem : transaction ∈ reported messages := hreported ▸ List.mem_singleton_self _
  obtain ⟨m, hm, hid⟩ := List.mem_filterMap.mp hmem
  cases m with
  | status outcome id reason =>
      have hnotice : outcome ∈ messages.filterMap Message.notice? :=
        List.mem_filterMap.mpr ⟨_, hm, rfl⟩
      rw [hnotices, List.mem_singleton] at hnotice
      cases hid
      cases hnotice
      exact ⟨reason, hm⟩
  | init _ _ | answer _ | output _ _ => cases hid

theorem break_lasts_until_resumption_stepping :
    let x := (opened {} (Host.ofTable none []) {}).run
      [.operate .enterContext, .adopt (some "1") .into, .resume ⟨0, some "1", .into⟩]
    let y := x.after (.operate (.hook (.line "/a.js" 1)))
    x.Reachable ∧
      (∃ reason, .status .break "1" reason ∈ x.session.sent (.hook (.line "/a.js" 1))) ∧
      ∃ c leaving, (y.run [.adopt (some "2") .none]).scene.Paused c leaving := by
  intro x y
  have hallows : (opened {} (Host.ofTable none []) {}).Allows
      [.operate .enterContext, .adopt (some "1") .into, .resume ⟨0, some "1", .into⟩] :=
    ⟨⟨rfl, rfl⟩, trivial, List.mem_singleton_self _, trivial⟩
  have hreachable : x.Reachable := ⟨_, _, _, _, hallows, rfl⟩
  have hsent : ∃ reason,
      Message.status .break "1" reason ∈ x.session.sent (.hook (.line "/a.js" 1)) :=
    exists_break_of_reported (by decide +kernel) (by decide +kernel)
  refine ⟨hreachable, hsent, ?_⟩
  obtain ⟨reason, hreason⟩ := hsent
  obtain ⟨_, c, leaving, _, hlasts⟩ := break_lasts_until_resumption hreachable hreason
  rcases hlasts [.adopt (some "2") .none] ⟨trivial, trivial⟩ (by decide +kernel) with
    ⟨last, _, hpaused, _⟩ | ⟨request, hmem, _⟩
  · exact ⟨last, leaving, hpaused⟩
  · cases List.mem_singleton.mp hmem

/-- The second step of a request resumes a debuggee that was stopped after its first step, though
the client has heard of the break as the answer to this very request. -/
theorem break_undone_by_its_request :
    let b : Breakpoint := { kind := .line, file := "/a.js", line := 1 }
    let request : Request := ⟨0, some "1", .none⟩
    let x := (opened {} (Host.ofTable none []) {}).run
      [.operate (.breakpoints (.add b)), .operate .enterContext, .adopt (some "1") .none]
    let y := x.after (.operate (.hook (.line "/a.js" 1)))
    x.Reachable ∧ x.Admits (.operate (.hook (.line "/a.js" 1))) ∧
      (∃ reason, .status .break "1" reason ∈ x.session.sent (.hook (.line "/a.js" 1))) ∧
      y.Suspends 1 ∧ y.Admits (.resume request) ∧
      (y.after (.resume request)).session.closed = false ∧
      ¬ (y.after (.resume request)).Suspends 1 := by
  intro b request x y
  have hallows : (opened {} (Host.ofTable none []) {}).Allows
      [.operate (.breakpoints (.add b)), .operate .enterContext, .adopt (some "1") .none] :=
    ⟨⟨trivial, rfl⟩, ⟨rfl, rfl⟩, trivial, trivial⟩
  have hsuspended : (y.session.context? 1).map Context.isSuspended = some true := by decide +kernel
  have hresumed : ((y.after (.resume request)).session.context? 1).map Context.isSuspended =
      some false := by decide +kernel
  refine ⟨⟨_, _, _, _, hallows, rfl⟩, ⟨rfl, rfl⟩,
    exists_break_of_reported (by decide +kernel) (by decide +kernel),
    Option.map_eq_some_iff.mp hsuspended, List.mem_singleton_self _, by decide +kernel, ?_⟩
  rintro ⟨c, hget, hc⟩
  rw [hget] at hresumed
  cases hc.symm.trans (Option.some.inj hresumed)

end Interplay

end Session

end ScriptDebugger
