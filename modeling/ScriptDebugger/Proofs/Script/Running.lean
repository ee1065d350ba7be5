import ScriptDebugger.Proofs.Script.Play
import ScriptDebugger.Proofs.Session.AssignedSlot
import ScriptDebugger.Proofs.Session.Attached

/-!
Scripts beside a client that does what it likes.  The locals of a script stay one object that is
read and written as it is, and from the report of its call to that of its exit the script executes
in one frame, which sees them.
-/

namespace ScriptDebugger

namespace Heap

structure IsPlain (h : Heap) (owner : ObjectId) : Prop where
  lt : owner < h.objects.length
  bare : (h.object owner).bare = {}

namespace IsPlain

variable {h after : Heap} {owner : ObjectId}

theorem exists_set (hplain : h.IsPlain owner) (id : PropertyId) (value : Value) :
    ∃ after, h.set owner id value = .ok after := by
  have hwritable : (h.object owner).readOnly = none :=
    show (h.object owner).bare.readOnly = none by rw [hplain.bare]
  cases hset : h.set owner id value with
  | ok after => exact ⟨after, rfl⟩
  | error e =>
      rw [set, Object.set, hwritable] at hset
      cases hset

theorem get_of_slot? (hplain : h.IsPlain owner) {id : PropertyId} {value : Value}
    (hslot : h.slot? (owner, id) = some value) : h.get owner id = .ok value := by
  have hreadable : (h.object owner).unreadable = [] :=
    show (h.object owner).bare.unreadable = [] by rw [hplain.bare]
  have hlookup : (h.object owner).slots.lookup id = some value := hslot
  rw [get, Object.get, hreadable, List.lookup_nil, hlookup]
  rfl

theorem writes (hplain : h.IsPlain owner) {slot : Slot} {value : Value}
    (hwrites : h.Writes slot value after) : after.IsPlain owner := by
  refine ⟨hwrites.size.symm ▸ hplain.lt, ?_⟩
  by_cases hsame : owner = slot.1
  · rw [hsame, hwrites.bare, ← hsame, hplain.bare]
  · rw [hwrites.elsewhere owner hsame, hplain.bare]

end IsPlain

end Heap

namespace Session

def WritesTo (s : Session) (operation : Operation) (slot : Slot) : Prop :=
  ∃ line c a frame, operation = .command line ∧ Command.parse line = .ok c ∧ c.Assigns a ∧
    s.frameAt a.depth = .ok frame ∧ s.AssignsTo frame a.scope a.path slot

theorem heap_after_of_isOutside {s : Session} {operation : Operation}
    (h : operation.isOutside = true) :
    (s.after operation).heap = s.heap ∨
      ∃ slot value, s.WritesTo operation slot ∧
        s.heap.Writes slot value (s.after operation).heap := by
  cases hassigns : operation.assigns with
  | false => exact .inl ((s.objects_after operation).2.1 hassigns)
  | true =>
      cases operation with
      | command line =>
          rw [Operation.assigns] at hassigns
          split at hassigns
          · rename_i c hparse
            have hname : c.name = "property_set" := eq_of_beq hassigns
            have hassigned := (assignment_writes_one_slot (s := s) hparse hname).1
            change (s.dispatch line).heap = s.heap ∨ _
            generalize hresult : s.dispatch line = result at hassigned
            have hafter : (s.after (.command line)).heap = result.heap :=
              congrArg Session.heap hresult
            rw [hafter]
            cases hassigned with
            | unread _ => exact .inl rfl
            | refused _ _ => exact .inl rfl
            | written hassigns hframe _ hslot hwrites =>
                exact .inr ⟨_, _, ⟨line, c, _, _, rfl, hparse, hassigns, hframe, hslot⟩, hwrites⟩
          · cases hassigns
      | mutate _ => cases h
      | _ => cases hassigns

theorem heap_run {s : Session} {operations : List Operation}
    (h : ∀ operation ∈ operations, operation.assigns = false) :
    (s.run operations).heap = s.heap := by
  induction operations generalizing s with
  | nil => rfl
  | cons operation rest ih =>
      obtain ⟨hfirst, hrest⟩ := List.forall_mem_cons.mp h
      exact (ih hrest).trans ((s.objects_after operation).2.1 hfirst)

theorem Attached.run {s : Session} {id : ContextId} (h : s.Attached id) (hs : s.Grounded)
    {operations : List Operation}
    (hkeeps : ∀ operation ∈ operations,
      operation ≠ .enterContext ∧ ∀ other, operation ≠ .exitContext other) :
    (s.run operations).Attached id := by
  induction operations generalizing s with
  | nil => exact h
  | cons operation rest ih =>
      obtain ⟨⟨henter, hexit⟩, hrest⟩ := List.forall_mem_cons.mp hkeeps
      exact ih (h.after hs henter hexit) (hs.after operation) hrest

end Session

namespace Script

theorem isPlain_locals (script : Script) (h : Heap) :
    (script.install h).2.IsPlain (script.install h).1.locals := by
  constructor
  case lt => simp [install, Heap.create]
  case bare => simp [install, Heap.create, Heap.object, Object.bare]

theorem keeps_of_asked (stage : Stage) (p : Program) (action : Action) :
    ∀ operation ∈ stage.asked p action,
      operation ≠ .enterContext ∧ ∀ id, operation ≠ .exitContext id := by
  cases action with
  | start | report _ | perform _ | print _ => simp [Stage.asked]
  | store name value =>
      rw [Stage.asked]
      split
      · simp
      · simp

theorem heap_act (stage : Stage) (p : Program) (action : Action) :
    (stage.act p action).2.session.heap = stage.session.heap ∨
      ∃ name value, action = .store name value ∧
        stage.session.heap.Writes (p.scopes.locals, .name name) value
          (stage.act p action).2.session.heap := by
  have hasked := stage.session_act p action
  cases action with
  | start | report _ | print _ =>
      rw [hasked]
      exact .inl (Session.heap_run (List.forall_mem_singleton.mpr rfl))
  | perform _ => exact .inl rfl
  | store name value =>
      cases hset : stage.session.heap.set p.scopes.locals (.name name) value with
      | error e =>
          rw [Stage.asked, hset] at hasked
          exact .inl (congrArg Session.heap hasked)
      | ok heap =>
          rw [Stage.act_store hset]
          exact .inr ⟨name, value, rfl, Heap.writes_of_set hset⟩

theorem heap_advance (p : Program) (x : Play) :
    (x.advance p).session.heap = x.session.heap ∨
      ∃ name value rest, x.phase = .acting (.store name value :: rest) ∧
        x.session.heap.Writes (p.scopes.locals, .name name) value (x.advance p).session.heap := by
  have hnone : ∀ {operations}, x.asked p = operations →
      (∀ operation ∈ operations, operation.assigns = false) →
        (x.advance p).session.heap = x.session.heap := by
    intro operations hasked hassigns
    rw [x.session_advance p, hasked]
    exact Session.heap_run hassigns
  cases hphase : x.phase with
  | called | waiting _ _ =>
      exact .inl (hnone (by rw [Play.asked, hphase]) (List.forall_mem_singleton.mpr rfl))
  | ended outcome closed =>
      exact .inl (hnone (by rw [Play.asked, hphase]) (Stage.assigns_askedAtEnd _ _))
  | returned outcome closed =>
      exact .inl (hnone (by rw [Play.asked, hphase]) (List.forall_mem_nil _))
  | acting rest =>
      cases rest with
      | nil => exact .inl (hnone (by rw [Play.asked, hphase]) (List.forall_mem_nil _))
      | cons action rest =>
          rw [Play.advance_acting hphase]
          rcases heap_act x.stage p action with hsame | ⟨name, value, rfl, hwrites⟩
          · exact .inl hsame
          · exact .inr ⟨name, value, rest, rfl, hwrites⟩

theorem closed_of_advance {p : Program} {x : Play} (h : (x.advance p).session.closed = false) :
    x.session.closed = false := by
  rw [x.session_advance p] at h
  exact Session.closed_of_run h

namespace Action

def isPrelude : Action → Bool
  | .start | .report (.compile _) => true
  | _ => false

def isCall : Action → Bool
  | .start | .report _ => true
  | _ => false

def isInner : Action → Bool
  | .start | .report (.compile _) | .report (.enter _) | .report .exit => false
  | _ => true

end Action

theorem isInner_of_reading {p : Program} {heap : Heap} {host : Host} {expression : String}
    {use : Value → Action} (huse : ∀ value, (use value).isInner = true) :
    ∀ action ∈ p.reading heap host expression use, action.isInner = true := by
  unfold Program.reading
  split
  · exact List.forall_mem_singleton.mpr rfl
  · split
    · exact List.forall_mem_cons.mpr ⟨rfl, List.forall_mem_singleton.mpr (huse _)⟩
    · exact List.forall_mem_singleton.mpr (huse _)

theorem isInner_of_expand {p : Program} {heap : Heap} {host : Host} (statement : Statement) :
    ∀ action ∈ p.expand heap host statement, action.isInner = true := by
  cases statement with
  | assign name expression => exact isInner_of_reading fun _ => rfl
  | print expression => exact isInner_of_reading fun _ => rfl
  | throw className message => exact List.forall_mem_singleton.mpr rfl
  | nop => exact List.forall_mem_nil _

theorem isInner_body (p : Program) (line : Nat) (lines : List String) :
    ∀ action ∈ p.body line lines, action.isInner = true := by
  induction lines generalizing line with
  | nil => exact List.forall_mem_nil _
  | cons source rest ih =>
      rw [Program.body, List.forall_mem_append]
      refine ⟨?_, ih (line + 1)⟩
      unfold Program.lineActions
      split
      · exact List.forall_mem_nil _
      · exact List.forall_mem_cons.mpr ⟨rfl, List.forall_mem_singleton.mpr rfl⟩

theorem isInner_of_act {stage : Stage} {p : Program} {action : Action} {more : List Action}
    (h : (stage.act p action).1 = .next more) : ∀ next ∈ more, next.isInner = true := by
  have hreport : ∀ {progress : Progress}, Turn.ofProgress progress = .next more →
      ∀ next ∈ more, next.isInner = true := by
    intro progress hturn
    cases progress with
    | waiting wait => cases hturn
    | returned outcome =>
        cases outcome with
        | error e => cases hturn
        | ok value =>
            cases hturn
            exact List.forall_mem_nil _
  cases action with
  | start => exact hreport h
  | report event => exact hreport h
  | perform statement =>
      cases h
      exact isInner_of_expand statement
  | store name value =>
      rw [Stage.act] at h
      split at h
      · cases h
      · cases h
        exact List.forall_mem_singleton.mpr rfl
  | print value =>
      cases h
      exact List.forall_mem_nil _

theorem not_wait_of_act {stage : Stage} {p : Program} {action : Action}
    (h : action.isCall = false) (wait : Wait) : (stage.act p action).1 ≠ .wait wait := by
  cases action with
  | start | report _ => cases h
  | perform statement => rintro ⟨⟩
  | store name value =>
      rw [Stage.act]
      split
      · rintro ⟨⟩
      · rintro ⟨⟩
  | print value => rintro ⟨⟩

structure IsFrame (p : Program) (f : Frame) : Prop where
  scope : f.scope = some p.scopes.locals
  receiver : f.receiver = none

/-- The frames that belong to what is left to do. -/
inductive Place (p : Program) (frames : List Frame) (rest : List Action) : Prop where
  | before {prelude body : List Action} (hframes : frames = [])
      (hprelude : ∀ action ∈ prelude, action.isPrelude = true)
      (hbody : ∀ action ∈ body, action.isInner = true)
      (hrest : rest = prelude ++ .report (.enter p.frame) :: (body ++ [.report .exit]))
  | within {f : Frame} {body : List Action} (hframes : frames = [f]) (hf : IsFrame p f)
      (hbody : ∀ action ∈ body, action.isInner = true) (hrest : rest = body ++ [.report .exit])
  | leaving {f : Frame} (hframes : frames = [f]) (hf : IsFrame p f) (hrest : rest = [])

namespace Place

variable {p : Program} {frames : List Frame} {action : Action} {rest : List Action}

theorem actions (p : Program) : Place p [] p.actions := by
  have hprelude : ∀ action ∈ [Action.report (.compile p.script.path), .start],
      action.isPrelude = true :=
    List.forall_mem_cons.mpr ⟨rfl, List.forall_mem_singleton.mpr rfl⟩
  refine .before rfl hprelude (isInner_body p 1 p.script.lines) ?_
  rw [Program.actions_eq]
  rfl

inductive First (p : Program) (frames : List Frame) (action : Action) (rest : List Action) :
    Prop where
  | prelude (haction : action.isPrelude = true) (hframes : frames = []) (hrest : Place p [] rest)
  | enter (haction : action = .report (.enter p.frame)) (hframes : frames = [])
      (hrest : Place p [p.frame] rest)
  | inner {f : Frame} (haction : action.isInner = true) (hframes : frames = [f])
      (hf : IsFrame p f)
      (hrest : ∀ {next : Frame} {more : List Action}, IsFrame p next →
        (∀ action ∈ more, action.isInner = true) → Place p [next] (more ++ rest))
  | exit {f : Frame} (haction : action = .report .exit) (hframes : frames = [f])
      (hf : IsFrame p f) (hrest : rest = [])

theorem First.inner_of_isCall (h : First p frames action rest) (hcall : action.isCall = false) :
    ∃ f, frames = [f] ∧ IsFrame p f ∧ ∀ {next : Frame} {more : List Action}, IsFrame p next →
      (∀ action ∈ more, action.isInner = true) → Place p [next] (more ++ rest) := by
  cases h with
  | inner _ hframes hf hrest => exact ⟨_, hframes, hf, hrest⟩
  | prelude haction _ _ =>
      cases action with
      | start | report _ => cases hcall
      | _ => cases haction
  | enter haction _ _ | exit haction _ _ _ =>
      rw [haction] at hcall
      cases hcall

theorem first (h : Place p frames (action :: rest)) : First p frames action rest := by
  cases h with
  | @before prelude body hframes hprelude hbody hrest =>
      cases prelude with
      | nil =>
          obtain ⟨rfl, rfl⟩ := List.cons.inj hrest
          exact .enter rfl hframes (.within rfl ⟨rfl, rfl⟩ hbody rfl)
      | cons first others =>
          obtain ⟨rfl, rfl⟩ := List.cons.inj hrest
          obtain ⟨hfirst, hothers⟩ := List.forall_mem_cons.mp hprelude
          exact .prelude hfirst hframes (.before rfl hothers hbody rfl)
  | @within f body hframes hf hbody hrest =>
      cases body with
      | nil =>
          obtain ⟨rfl, rfl⟩ := List.cons.inj hrest
          exact .exit rfl hframes hf rfl
      | cons first others =>
          obtain ⟨rfl, rfl⟩ := List.cons.inj hrest
          obtain ⟨hfirst, hothers⟩ := List.forall_mem_cons.mp hbody
          refine .inner hfirst hframes hf fun hnext hmore => ?_
          refine .within rfl hnext (List.forall_mem_append.mpr ⟨hmore, hothers⟩) ?_
          exact (List.append_assoc _ _ _).symm
  | leaving _ _ hrest => cases hrest

end Place

/-- What a turn leaves to do is in its place.  A script that waits to leave its frame has nothing
left to do. -/
structure Placed (p : Program) (frames : List Frame) (rest : List Action) (turn : Turn) :
    Prop where
  next : ∀ more, turn = .next more → more ++ rest = [] ∨ Place p frames (more ++ rest)
  wait : ∀ wait, turn = .wait wait → Place p frames rest ∧ (wait.leaves = true → rest = [])

theorem ofProgress_eq_next {progress : Progress} {more : List Action}
    (h : Turn.ofProgress progress = .next more) : more = [] ∧ progress.wait? = none := by
  cases progress with
  | waiting wait => cases h
  | returned outcome =>
      cases outcome with
      | error e => cases h
      | ok value =>
          cases h
          exact ⟨rfl, rfl⟩

theorem ofProgress_eq_wait {progress : Progress} {wait : Wait}
    (h : Turn.ofProgress progress = .wait wait) : progress = .waiting wait := by
  cases progress with
  | waiting _ =>
      cases h
      rfl
  | returned outcome =>
      cases outcome with
      | error e => cases h
      | ok value => cases h

theorem IsFrame.moveTo {p : Program} {f : Frame} (hf : IsFrame p f) {c : Context}
    (hframes : c.frames = [f]) (file : String) (line : Nat) :
    ∃ next, (c.moveTo file line).frames = [next] ∧ IsFrame p next := by
  unfold Context.moveTo
  split
  · rename_i top rest hsplit
    rw [hframes] at hsplit
    cases hsplit
    exact ⟨_, rfl, hf.scope, hf.receiver⟩
  · rename_i hsplit
    rw [hframes] at hsplit
    cases hsplit

namespace Placed

variable {p : Program} {frames : List Frame} {rest : List Action}

theorem report {c : Context} {event : Hook} {result : Progress × Session}
    (h : Session.Framed c event result) (hplace : Place p c.frames (.report event :: rest)) :
    Placed p result.2.frames rest (.ofProgress result.1) := by
  have hat : Place p (event.framesAt c) rest ∧ (event.isExit = true → rest = []) ∧
      (rest = [] ∨ Place p (event.framesAfter c) rest) := by
    cases hplace.first with
    | prelude haction hframes hrest =>
        have hsame : Place p c.frames rest := hframes ▸ hrest
        cases event with
        | compile file => exact ⟨hsame, nofun, .inr hsame⟩
        | _ => cases haction
    | enter haction hframes hrest =>
        cases haction
        have hat : Place p (p.frame :: c.frames) rest := hframes ▸ hrest
        exact ⟨hat, nofun, .inr hat⟩
    | @inner f haction hframes hf hrest =>
        have hsame : Place p c.frames rest := hframes ▸ hrest hf (List.forall_mem_nil _)
        cases event with
        | line file number =>
            obtain ⟨next, hmoved, hnext⟩ := hf.moveTo hframes file number
            have hat : Place p (c.moveTo file number).frames rest :=
              hmoved ▸ hrest hnext (List.forall_mem_nil _)
            exact ⟨hat, nofun, .inr hat⟩
        | compile _ | enter _ | exit => cases haction
        | exception _ _ | read _ _ | write _ _ => exact ⟨hsame, nofun, .inr hsame⟩
    | exit haction hframes hf hrest =>
        cases haction
        exact ⟨.leaving hframes hf hrest, fun _ => hrest, .inl hrest⟩
  obtain ⟨hwaits, hexit, hgoes⟩ := hat
  constructor
  case next =>
    intro more hturn
    obtain ⟨rfl, hgone⟩ := ofProgress_eq_next hturn
    rw [h.goes hgone]
    exact hgoes
  case wait =>
    intro wait hturn
    obtain ⟨hleaves, hframes⟩ := h.waits wait (ofProgress_eq_wait hturn)
    rw [hframes, hleaves]
    exact ⟨hwaits, hexit⟩

theorem settle {s : Session} {wait : Wait} (hplace : Place p s.frames rest)
    (hleaves : wait.leaves = true → rest = []) :
    Placed p (s.settle wait).2.frames rest (.ofProgress (s.settle wait).1) := by
  constructor
  case next =>
    intro more hturn
    obtain ⟨rfl, _⟩ := ofProgress_eq_next hturn
    cases hstays : wait.leaves with
    | true => exact .inl (hleaves hstays)
    | false =>
        rw [Session.settle_of_stays hstays]
        exact .inr hplace
  case wait =>
    intro next hturn
    obtain ⟨rfl, hsame⟩ := Session.settle_of_waits (ofProgress_eq_wait hturn)
    rw [hsame]
    exact ⟨hplace, hleaves⟩

theorem inner {turn : Turn} {f : Frame} (hframes : frames = [f]) (hf : IsFrame p f)
    (hrest : ∀ {next : Frame} {more : List Action}, IsFrame p next →
      (∀ action ∈ more, action.isInner = true) → Place p [next] (more ++ rest))
    (hmore : ∀ more, turn = .next more → ∀ action ∈ more, action.isInner = true)
    (hwait : ∀ wait, turn ≠ .wait wait) : Placed p frames rest turn where
  next more hturn := .inr (hframes ▸ hrest hf (hmore more hturn))
  wait wait hturn := absurd hturn (hwait wait)

/-- Each action of a script in its place leaves the others in theirs. -/
theorem act {stage : Stage} {action : Action} (hs : stage.session.Grounded)
    (hopen : stage.session.closed = false) {context : ContextId}
    (hattached : stage.session.Attached context)
    (hplace : Place p stage.session.frames (action :: rest)) :
    Placed p (stage.act p action).2.session.frames rest (stage.act p action).1 := by
  have hinner : action.isCall = false →
      (stage.act p action).2.session.frames = stage.session.frames →
        Placed p (stage.act p action).2.session.frames rest (stage.act p action).1 := by
    intro hcall hsame
    obtain ⟨f, hframes, hf, hrest⟩ := hplace.first.inner_of_isCall hcall
    exact .inner (hsame.trans hframes) hf hrest (fun _ => isInner_of_act) (not_wait_of_act hcall)
  cases action with
  | report event =>
      obtain ⟨c, hcurrent, _⟩ := hattached.current? hopen
      have hframes : stage.session.frames = c.frames := by rw [Session.frames, hcurrent]
      rw [hframes] at hplace
      exact .report (Session.framed_hook hs hopen hcurrent event) hplace
  | start =>
      cases hplace.first with
      | prelude _ hframes hrest =>
          have hsettled : Placed p (stage.session.settle .start).2.frames rest
              (.ofProgress (stage.session.settle .start).1) :=
            .settle (hframes ▸ hrest) fun hleaves => by cases hleaves
          exact hsettled
      | enter haction _ _ => cases haction
      | inner haction _ _ _ => cases haction
      | exit haction _ _ _ => cases haction
  | perform statement => exact hinner rfl rfl
  | store name value =>
      refine hinner rfl ?_
      rw [Stage.act]
      split
      · rfl
      · rename_i after hstore
        obtain ⟨heap, _, rfl⟩ := map_eq_ok.mp hstore
        rfl
  | print value =>
      exact hinner rfl (Session.frames_congr (Session.stage_hidesTalk.write stage.session .stdout _))

end Placed

/-- Where a script stands in its session, as long as that is open. -/
inductive Position (p : Program) (s : Session) (context : ContextId) : Phase → Prop where
  | called : Position p s context .called
  | acting {rest : List Action} (hattached : s.Attached context)
      (hplace : s.closed = false → Place p s.frames rest) : Position p s context (.acting rest)
  | waiting {wait : Wait} {rest : List Action} (hattached : s.Attached context)
      (hwait : wait.IsFor context)
      (hplace : s.closed = false → Place p s.frames rest ∧ (wait.leaves = true → rest = [])) :
      Position p s context (.waiting wait rest)
  | ended {outcome : Except Error Unit} {closed : Bool} :
      Position p s context (.ended outcome closed)
  | returned {outcome : Except Error Unit} {closed : Bool} :
      Position p s context (.returned outcome closed)

namespace Position

variable {p : Program} {s : Session} {context : ContextId} {rest : List Action}

theorem next {turn : Turn} (hattached : s.Attached context)
    (hwait : ∀ wait, turn = .wait wait → wait.IsFor context)
    (hplaced : s.closed = false → Placed p s.frames rest turn) :
    Position p s context (.next s rest turn) := by
  cases turn with
  | next more =>
      rw [Phase.next]
      split
      · exact .ended
      · rename_i hsome
        exact .acting hattached fun hopen => ((hplaced hopen).next more rfl).resolve_left hsome
  | wait wait => exact .waiting hattached (hwait wait rfl) fun hopen => (hplaced hopen).wait wait rfl
  | fail e => exact .ended

theorem isFor_of_call {progress : Progress} (h : Session.CallEffect s context progress) :
    ∀ wait, Turn.ofProgress progress = .wait wait → wait.IsFor context := by
  intro wait hturn
  cases h with
  | refused _ => cases hturn
  | passed _ => cases hturn
  | waits _ hwait =>
      cases hturn
      exact hwait

theorem beside {phase : Phase} (h : Position p s context phase) (hs : s.Grounded)
    {operation : Session.Operation} (houtside : operation.isOutside = true) :
    Position p (s.after operation) context phase := by
  have hattached : s.Attached context → (s.after operation).Attached context := by
    intro hattached
    refine hattached.after hs ?_ ?_
    · rintro rfl
      cases houtside
    · rintro other rfl
      cases houtside
  have hframes : (s.after operation).closed = false → (s.after operation).frames = s.frames :=
    Session.frames_after_of_isOutside hs houtside
  cases h with
  | called => exact .called
  | acting hstill hplace =>
      refine .acting (hattached hstill) fun hopen => ?_
      rw [hframes hopen]
      exact hplace (Session.closed_of_after hopen)
  | waiting hstill hwait hplace =>
      refine .waiting (hattached hstill) hwait fun hopen => ?_
      rw [hframes hopen]
      exact hplace (Session.closed_of_after hopen)
  | ended => exact .ended
  | returned => exact .returned

theorem isFor_of_act {stage : Stage} {action : Action} (hs : stage.session.Grounded)
    (hattached : stage.session.Attached context) :
    ∀ wait, (stage.act p action).1 = .wait wait → wait.IsFor context := by
  cases action with
  | start => exact isFor_of_call (hattached.settle hs trivial)
  | report event => exact isFor_of_call (hattached.hook hs event)
  | perform _ | store _ _ | print _ =>
      exact fun wait hturn => absurd hturn (not_wait_of_act rfl wait)

end Position

/-- What holds of every execution. -/
structure Running (script : Script) (h : Heap) (x : Play) : Prop where
  grounded : x.session.Grounded
  host : x.session.host = host (script.install h).1
  locals : x.session.heap.IsPlain (script.install h).1.locals
  position : Position (script.installed h) x.session x.context x.phase

namespace Running

variable {script : Script} {h : Heap} {x : Play}

theorem beside (hx : Running script h x) {operation : Session.Operation}
    (houtside : operation.isOutside = true) : Running script h (x.beside operation) where
  grounded := hx.grounded.after operation
  host := (x.session.objects_after operation).1.trans hx.host
  locals := by
    change (x.session.after operation).heap.IsPlain _
    rcases Session.heap_after_of_isOutside (s := x.session) houtside with
      hsame | ⟨_, _, _, hwrites⟩
    · rw [hsame]
      exact hx.locals
    · exact hx.locals.writes hwrites
  position := hx.position.beside hx.grounded houtside

end Running

namespace Position

variable {p : Program} {x : Play}

theorem enter {context : ContextId} {entered : Session}
    (henter : x.session.enterContext = .ok (context, entered)) :
    Position p entered context (.acting p.actions) := by
  have hframes : entered.frames = [] := by
    unfold Session.enterContext at henter
    split at henter
    · cases henter
    · cases henter
      exact Session.frames_setContext (c := { id := x.session.contexts.length + 1 })
        (s := { x.session with
          active := (x.session.contexts.length + 1) :: x.session.active }) rfl
  exact .acting (.enterContext henter) fun _ => hframes.symm ▸ .actions p

theorem act {action : Action} {rest : List Action} (hs : x.session.Grounded)
    (h : Position p x.session x.context (.acting (action :: rest))) :
    Position p (x.stage.act p action).2.session x.context
      (.next (x.stage.act p action).2.session rest (x.stage.act p action).1) := by
  cases h with
  | acting hattached hplace =>
      have hasked := x.stage.session_act p action
      refine .next ?_ (isFor_of_act hs hattached) fun hopen => ?_
      · rw [hasked]
        exact hattached.run hs (keeps_of_asked x.stage p action)
      · have hbefore : x.session.closed = false := by
          rw [hasked] at hopen
          exact Session.closed_of_run hopen
        exact .act hs hbefore hattached (hplace hbefore)

theorem settle {wait : Wait} {rest : List Action} (hs : x.session.Grounded)
    (h : Position p x.session x.context (.waiting wait rest)) :
    Position p (x.session.settle wait).2 x.context
      (.next (x.session.settle wait).2 rest (.ofProgress (x.session.settle wait).1)) := by
  cases h with
  | waiting hattached hwait hplace =>
      have hstill : (x.session.after (.proceed wait)).Attached x.context :=
        hattached.after hs nofun nofun
      refine .next hstill (isFor_of_call (hattached.settle hs hwait)) fun hopen => ?_
      have hafter : (x.session.after (.proceed wait)).closed = false := hopen
      obtain ⟨hat, hleaves⟩ := hplace (Session.closed_of_after hafter)
      exact .settle hat hleaves

theorem advance (hs : x.session.Grounded) (h : Position p x.session x.context x.phase) :
    Position p (x.advance p).session (x.advance p).context (x.advance p).phase := by
  cases hphase : x.phase with
  | called =>
      cases henter : x.session.enterContext with
      | ok entered =>
          rw [Play.advance_entered hphase henter]
          exact .enter henter
      | error e =>
          rw [Play.advance_refused hphase henter]
          exact .returned
  | acting rest =>
      cases rest with
      | nil =>
          rw [Play.advance_acting_nil hphase]
          exact .ended
      | cons action rest =>
          rw [hphase] at h
          rw [Play.advance_acting hphase]
          exact h.act hs
  | waiting wait rest =>
      rw [hphase] at h
      rw [Play.advance_waiting hphase]
      exact h.settle hs
  | ended outcome closed =>
      rw [Play.advance_ended hphase]
      exact .returned
  | returned outcome closed =>
      rw [Play.advance_returned hphase]
      exact h

end Position

theorem Running.advance {script : Script} {h : Heap} {x : Play} (hx : Running script h x) :
    Running script h (x.advance (script.installed h)) := by
  have hasked := x.session_advance (script.installed h)
  constructor
  case grounded =>
    rw [hasked]
    exact Session.run_induction hx.grounded (fun hs => hs.after) _
  case host =>
    rw [hasked]
    exact Session.run_induction (motive := fun s => s.host = Script.host (script.install h).1) hx.host
      (fun hs operation => (Session.objects_after _ operation).1.trans hs) _
  case locals =>
    rcases heap_advance (script.installed h) x with hsame | ⟨_, _, _, _, hwrites⟩
    · rw [hsame]
      exact hx.locals
    · exact hx.locals.writes hwrites
  case position => exact hx.position.advance hx.grounded

theorem Reachable.running {script : Script} {h : Heap} {x : Play}
    (hx : Reachable Session.Operation.isOutside script h x) : Running script h x := by
  induction hx with
  | @called stage hs hheap hhost =>
      refine ⟨.of_reached hs, hhost, ?_, .called⟩
      change stage.session.heap.IsPlain _
      rw [hheap]
      exact isPlain_locals script h
  | advance _ ih => exact ih.advance
  | beside _ houtside ih => exact ih.beside houtside

end Script

end ScriptDebugger
