import ScriptDebugger.Proofs.Session.ClientView

/-!
Nested contexts.  One thread of the debuggee enters and leaves contexts, in whatever order, and
while one of its reports waits it does neither.  The contexts that stand are then those entered and
not yet left.  The latest of them is the current one, and nothing that happens reaches the others.
-/

namespace ScriptDebugger

namespace Session

def enters? (s : Session) : Operation → Option ContextId
  | .enterContext => s.enterContext.toOption.map Prod.fst
  | _ => none

def Operation.leaves : Operation → ContextId → Bool
  | .exitContext id, other => id == other
  | _, _ => false

def stays (operations : List Operation) (id : ContextId) : Bool :=
  operations.all fun operation => !operation.leaves id

/-- The contexts that operations enter and do not leave later, in the order of entry. -/
def standing (s : Session) : List Operation → List ContextId
  | [] => []
  | operation :: rest =>
      (s.enters? operation).toList.filter (stays rest) ++ (s.after operation).standing rest

def Numbered (s : Session) : Prop :=
  s.contexts.keys = List.range' 1 s.contexts.length

section Step

variable {s : Session} {operation : Operation}

theorem mem_keys_of_context? {id : ContextId} {c : Context} (h : s.context? id = some c) :
    id ∈ s.contexts.keys :=
  (Table.mem_keys_iff _ _).mpr ⟨c, h⟩

theorem Numbered.le (h : s.Numbered) {id : ContextId} {c : Context}
    (hget : s.context? id = some c) : id ≤ s.contexts.length := by
  have hmem := mem_keys_of_context? hget
  rw [h, List.mem_range'_1, Nat.add_comm] at hmem
  exact Nat.le_of_lt_succ hmem.2

theorem Numbered.set {after : Session} (h : s.Numbered) {c : Context}
    (hmem : c.id ∈ s.contexts.keys) (hset : after.contexts = s.contexts.set c.id c) :
    after.Numbered ∧ after.contexts.length = s.contexts.length := by
  have hkeys := Table.keys_set_of_mem s.contexts c hmem
  have hlength := congrArg List.length hkeys
  simp only [Table.keys, List.length_map] at hlength
  rw [Numbered, hset, hkeys, hlength]
  exact ⟨h, rfl⟩

theorem Numbered.enter {after : Session} (h : s.Numbered) {c : Context}
    (hset : after.contexts = s.contexts.set (s.contexts.length + 1) c) :
    after.Numbered ∧ after.contexts.length = s.contexts.length + 1 := by
  have hnew : s.contexts.length + 1 ∉ s.contexts.keys := by
    rw [h, List.mem_range'_1]
    omega
  have hkeys := Table.keys_set_of_not_mem s.contexts c hnew
  have hlength := congrArg List.length hkeys
  simp only [Table.keys, List.length_map, List.length_append, List.length_singleton] at hlength
  rw [Numbered, hset, hkeys, hlength, h, List.range'_1_concat, Nat.add_comm 1]
  exact ⟨rfl, rfl⟩

theorem Numbered.after (h : s.Numbered) (hs : s.Grounded)
    (hopen : (s.after operation).closed = false) :
    (s.after operation).Numbered ∧ s.contexts.length ≤ (s.after operation).contexts.length := by
  have hset : ∀ {id c next}, s.context? id = some c → next.id = c.id →
      (s.after operation).contexts = s.contexts.set next.id next →
      (s.after operation).Numbered ∧
        s.contexts.length ≤ (s.after operation).contexts.length := by
    intro id c next hget hid hcontexts
    have hkey : next.id ∈ s.contexts.keys := by
      rw [hid, hs.id_eq hget]
      exact mem_keys_of_context? hget
    obtain ⟨hnumbered, hlength⟩ := h.set hkey hcontexts
    exact ⟨hnumbered, Nat.le_of_eq hlength.symm⟩
  cases s.after_shift operation with
  | same hstage _ =>
      rw [Numbered, (stage_eq_iff.mp hstage).1]
      exact ⟨h, Nat.le_refl _⟩
  | moved next hget hmoved hstage _ _ => exact hset hget hmoved.id (stage_eq_iff.mp hstage).1
  | halted next _ hcurrent hmoved hstage _ =>
      obtain ⟨id, _, hget⟩ := current?_eq_some_iff.mp hcurrent
      have hid : next.halt.id = _ := hmoved.id
      exact hset hget hid (stage_eq_iff.mp hstage).1
  | entered id hstage _ _ hid =>
      rw [hid] at hstage
      obtain ⟨hnumbered, hlength⟩ := h.enter (stage_eq_iff.mp hstage).1
      exact ⟨hnumbered, hlength ▸ Nat.le_succ _⟩
  | left id hstage _ _ =>
      rw [Numbered, (stage_eq_iff.mp hstage).1]
      exact ⟨h, Nat.le_refl _⟩
  | ended told _ _ hend _ =>
      rw [hend, told.closed_close] at hopen
      cases hopen

theorem active_after (henter : operation ≠ .enterContext)
    (hexit : ∀ id, operation ≠ .exitContext id) (hopen : (s.after operation).closed = false) :
    (s.after operation).active = s.active := by
  cases s.after_shift operation with
  | same hstage _ => exact (stage_eq_iff.mp hstage).2
  | moved _ _ _ hstage _ _ => exact (stage_eq_iff.mp hstage).2
  | halted _ _ _ _ hstage _ => exact (stage_eq_iff.mp hstage).2
  | entered _ _ _ hoperation _ => exact absurd hoperation henter
  | left id _ _ hoperation => exact absurd hoperation (hexit id)
  | ended told _ _ hend _ =>
      rw [hend, told.closed_close] at hopen
      cases hopen

theorem enterContext_eq (hopen : s.closed = false) :
    s.enterContext = .ok (s.contexts.length + 1,
      { s.setContext { id := s.contexts.length + 1 } with
        active := (s.contexts.length + 1) :: s.active }) := by
  rw [enterContext, hopen]
  rfl

theorem after_enterContext (hopen : s.closed = false) :
    s.after .enterContext =
      { s.setContext { id := s.contexts.length + 1 } with
        active := (s.contexts.length + 1) :: s.active } := by
  rw [Session.after, perform, enterContext_eq hopen]
  rfl

theorem Numbered.context?_enterContext (h : s.Numbered) (hopen : s.closed = false)
    {id : ContextId} {c : Context} (hget : s.context? id = some c) :
    (s.after .enterContext).context? id = s.context? id := by
  rw [after_enterContext hopen]
  refine (s.context?_setContext _ id).trans (if_neg ?_)
  have hle := h.le hget
  rintro rfl
  exact absurd hle (Nat.not_succ_le_self _)

theorem enters?_eq_some {id : ContextId} (h : s.enters? operation = some id) :
    operation = .enterContext ∧ s.closed = false ∧ id = s.contexts.length + 1 := by
  cases operation with
  | enterContext =>
      cases hclosed : s.closed with
      | true =>
          rw [enters?, enterContext, hclosed] at h
          cases h
      | false =>
          rw [enters?, enterContext_eq hclosed] at h
          cases h
          exact ⟨rfl, rfl, rfl⟩
  | _ => cases h

theorem filter_leaves (hexit : ∀ id, operation ≠ .exitContext id) (ids : List ContextId) :
    ids.filter (fun id => !operation.leaves id) = ids := by
  apply List.filter_eq_self.mpr
  intro id _
  cases operation with
  | exitContext other => exact absurd rfl (hexit other)
  | _ => rfl

theorem active_step (hopen : (s.after operation).closed = false) :
    (s.after operation).active.reverse =
      s.active.reverse.filter (fun id => !operation.leaves id) ++ (s.enters? operation).toList := by
  cases operation with
  | enterContext =>
      have hbefore := closed_of_after hopen
      rw [after_enterContext hbefore, enters?, enterContext_eq hbefore,
        filter_leaves (by intro _; nofun)]
      exact List.reverse_cons
  | exitContext id =>
      change (s.active.filter fun other => decide (other ≠ id)).reverse = _
      rw [show s.enters? (.exitContext id) = none from rfl, Option.toList_none, List.append_nil,
        ← List.filter_reverse]
      congr 1
      funext other
      by_cases h : other = id
      · simp [Operation.leaves, h]
      · simp [Operation.leaves, h, Ne.symm h]
  | _ =>
      rw [active_after (by nofun) (by intro _; nofun) hopen, filter_leaves (by intro _; nofun)]
      exact (List.append_nil _).symm

theorem closed_of_run {operations : List Operation} (h : (s.run operations).closed = false) :
    s.closed = false := by
  induction operations generalizing s with
  | nil => exact h
  | cons operation rest ih => exact closed_of_after (ih h)

/-- The contexts that stand are those that did and were not left, and the ones entered since. -/
theorem active_run {operations : List Operation} (hopen : (s.run operations).closed = false) :
    (s.run operations).active.reverse =
      s.active.reverse.filter (stays operations) ++ s.standing operations := by
  induction operations generalizing s with
  | nil =>
      have hall : s.active.reverse.filter (stays []) = s.active.reverse :=
        List.filter_eq_self.mpr fun _ _ => rfl
      rw [hall, standing, List.append_nil]
      rfl
  | cons operation rest ih =>
      have hafter : (s.after operation).closed = false := closed_of_run hopen
      calc (s.run (operation :: rest)).active.reverse
          = (s.after operation).active.reverse.filter (stays rest) ++
              (s.after operation).standing rest := ih hopen
        _ = (s.active.reverse.filter (fun id => !operation.leaves id)).filter (stays rest) ++
              ((s.enters? operation).toList.filter (stays rest) ++
                (s.after operation).standing rest) := by
            rw [active_step hafter, List.filter_append, List.append_assoc]
        _ = s.active.reverse.filter (stays (operation :: rest)) ++
              s.standing (operation :: rest) := by
            rw [List.filter_filter, standing]
            congr 2
            funext id
            simp [stays, Bool.and_comm]

theorem wait?_settle_eq {wait next : Wait} (h : (s.settle wait).1.wait? = some next) :
    next = wait := by
  cases wait with
  | start =>
      simp only [settle] at h
      split at h
      · cases h
      · split at h <;> cases h
        rfl
  | resumption id leaving =>
      simp only [settle] at h
      split at h
      · cases h
      · split at h <;> cases h
        rfl

end Step

namespace Scene

/-- One thread of the debuggee reports, and enters and leaves contexts, while it does not wait. -/
def InTurn (x : Scene) : Operation → Prop
  | .hook _ | .enterContext | .exitContext _ => x.waiting = none
  | .proceed wait => x.waiting = some wait
  | _ => True

def run (x : Scene) (operations : List Operation) : Scene :=
  operations.foldl after x

def AllInTurn (x : Scene) : List Operation → Prop
  | [] => True
  | operation :: rest => x.InTurn operation ∧ (x.after operation).AllInTurn rest

/-- Contexts are numbered by entry, those that stand are stacked in that order, and the thread
waits for the uppermost. -/
structure Nested (x : Scene) : Prop where
  grounded : x.session.Grounded
  numbered : x.session.Numbered
  ascending : x.session.active.reverse.Pairwise (· < ·)
  entered : ∀ id ∈ x.session.active, id ≤ x.session.contexts.length
  current : ∀ {id leaving}, x.waiting = some (.resumption id leaving) →
    x.session.active.head? = some id

variable {x : Scene} {operation : Operation} {operations : List Operation}

theorem session_run (x : Scene) (operations : List Operation) :
    (x.run operations).session = x.session.run operations := by
  induction operations generalizing x with
  | nil => rfl
  | cons operation rest ih => exact ih (x.after operation)

namespace Nested

theorem opened (settings : Settings) (host : Host) (heap : Heap) :
    Nested { session := opened settings host heap } where
  grounded := .opened settings host heap
  numbered := rfl
  ascending := .nil
  entered := nofun
  current := nofun

theorem kept (h : x.Nested) (hturn : x.InTurn operation)
    (hopen : (x.after operation).session.closed = false) {id : ContextId} {c : Context}
    (hget : x.session.context? id = some c) (hother : x.session.active.head? ≠ some id) :
    (x.after operation).session.context? id = some c := by
  have hset : ∀ {next : Context}, x.session.active.head? = some next.id →
      (x.session.after operation).contexts = x.session.contexts.set next.id next →
      (x.after operation).session.context? id = some c := by
    intro next hhead hcontexts
    refine (context?_of_set hcontexts id).trans ((if_neg ?_).trans hget)
    rintro rfl
    exact hother hhead
  cases x.session.after_shift operation with
  | same hstage _ => exact (congrFun (context?_congr hstage) id).trans hget
  | moved next hbefore hmoved hstage _ hwhere =>
      have hid := hmoved.id.trans (h.grounded.id_eq hbefore)
      refine hset ?_ (stage_eq_iff.mp hstage).1
      rw [hid]
      rcases hwhere with hhead | ⟨leaving, rfl⟩
      · exact hhead
      · exact h.current hturn
  | halted next _ hcurrent hmoved hstage _ =>
      have hhead : x.session.active.head? = some next.halt.id := by
        rw [show next.halt.id = _ from hmoved.id]
        exact (h.grounded.current?_eq_some hcurrent).1
      exact hset hhead (stage_eq_iff.mp hstage).1
  | entered other hstage hclosed hoperation _ =>
      rw [hoperation] at hclosed hopen ⊢
      exact (h.numbered.context?_enterContext (closed_of_after hopen) hget).trans hget
  | left other hstage _ _ =>
      rw [context?, Scene.after, (stage_eq_iff.mp hstage).1]
      exact hget
  | ended told _ _ hend _ =>
      rw [Scene.after, hend, told.closed_close] at hopen
      cases hopen

theorem current_after (h : x.Nested) (hturn : x.InTurn operation)
    (hopen : (x.after operation).session.closed = false) {id : ContextId} {leaving : Bool}
    (hwait : (x.after operation).waiting = some (.resumption id leaving)) :
    (x.after operation).session.active.head? = some id := by
  cases operation with
  | hook event =>
      have hgrounded := h.grounded.after (.hook event)
      have houtcome := hook_outcome h.grounded event
      change (x.session.hook event).1.wait? = _ at hwait
      change (x.session.hook event).2.Grounded at hgrounded
      change (x.session.hook event).2.active.head? = _
      generalize x.session.hook event = result at houtcome hwait hgrounded
      cases houtcome with
      | returned _ _ => cases hwait
      | waiting c _ hcurrent _ _ _ =>
          cases hwait
          exact (hgrounded.current?_eq_some hcurrent).1
  | proceed wait =>
      cases wait?_settle_eq hwait
      rw [Scene.after, active_after (by rintro ⟨⟩) (by rintro _ ⟨⟩) hopen]
      exact h.current hturn
  | enterContext | exitContext other =>
      cases hturn.symm.trans hwait
  | _ =>
      rw [Scene.after, active_after (by rintro ⟨⟩) (by rintro _ ⟨⟩) hopen]
      exact h.current hwait

theorem after (h : x.Nested) (hturn : x.InTurn operation)
    (hopen : (x.after operation).session.closed = false) : (x.after operation).Nested := by
  obtain ⟨hnumbered, hlength⟩ := h.numbered.after h.grounded hopen
  have hactive : (x.after operation).session.active.reverse =
      x.session.active.reverse.filter (fun id => !operation.leaves id) ++
        (x.session.enters? operation).toList := active_step hopen
  constructor
  case grounded => exact h.grounded.after operation
  case numbered => exact hnumbered
  case ascending =>
    rw [hactive, List.pairwise_append]
    refine ⟨h.ascending.sublist List.filter_sublist, ?_, ?_⟩
    · cases x.session.enters? operation with
      | none => exact .nil
      | some id => exact List.pairwise_singleton _ _
    · intro old hold new hnew
      have hle := h.entered old (List.mem_reverse.mp (List.mem_filter.mp hold).1)
      obtain ⟨_, _, rfl⟩ := enters?_eq_some (Option.mem_toList.mp hnew)
      exact Nat.lt_succ_of_le hle
  case entered =>
    intro id hmem
    rw [← List.mem_reverse, hactive, List.mem_append] at hmem
    rcases hmem with hold | hnew
    · exact Nat.le_trans (h.entered id (List.mem_reverse.mp (List.mem_filter.mp hold).1)) hlength
    · obtain ⟨rfl, hbefore, rfl⟩ := enters?_eq_some (Option.mem_toList.mp hnew)
      rw [Scene.after, after_enterContext hbefore]
      exact Nat.le_of_eq (h.numbered.enter rfl).2.symm
  case current => exact h.current_after hturn hopen

theorem run (h : x.Nested) (hturns : x.AllInTurn operations)
    (hopen : (x.run operations).session.closed = false) : (x.run operations).Nested := by
  induction operations generalizing x with
  | nil => exact h
  | cons operation rest ih =>
      have hafter : (x.after operation).session.closed = false := by
        rw [session_run] at hopen
        exact Session.closed_of_run hopen
      exact ih (h.after hturns.1 hafter) hturns.2 hopen

theorem le_head (h : x.Nested) {mine top : ContextId} (hmem : mine ∈ x.session.active)
    (hhead : x.session.active.head? = some top) : mine ≤ top := by
  have hascending := h.ascending
  obtain ⟨rest, hactive⟩ := List.head?_eq_some_iff.mp hhead
  rw [hactive] at hmem hascending
  rw [List.pairwise_reverse, List.pairwise_cons] at hascending
  rcases List.mem_cons.mp hmem with rfl | hmem
  · exact Nat.le_refl _
  · exact Nat.le_of_lt (hascending.1 mine hmem)

theorem run_kept (h : x.Nested) (hturns : x.AllInTurn operations) {mine : ContextId}
    (hmem : mine ∈ x.session.active) (hstays : stays operations mine = true)
    (hopen : (x.run operations).session.closed = false) {id : ContextId} {c : Context}
    (hget : x.session.context? id = some c) (hbelow : id < mine) :
    (x.run operations).session.context? id = some c := by
  induction operations generalizing x with
  | nil => exact hget
  | cons operation rest ih =>
      have hafter : (x.after operation).session.closed = false := by
        rw [session_run] at hopen
        exact Session.closed_of_run hopen
      simp only [stays, List.all_cons, Bool.and_eq_true] at hstays
      have hother : x.session.active.head? ≠ some id := by
        intro hhead
        exact absurd (h.le_head hmem hhead) (Nat.not_le_of_lt hbelow)
      have hstands : mine ∈ (x.after operation).session.active := by
        rw [← List.mem_reverse, Scene.after, active_step hafter]
        exact List.mem_append_left _ (List.mem_filter.mpr ⟨List.mem_reverse.mpr hmem, hstays.1⟩)
      exact ih (h.after hturns.1 hafter) hturns.2 hstands hstays.2 hopen
        (h.kept hturns.1 hafter hget hother)

end Nested

inductive Threaded : Scene → Prop where
  | opened (settings : Settings) (host : Host) (heap : Heap) :
      Threaded { session := Session.opened settings host heap }
  | step {x : Scene} {operation : Operation} (h : Threaded x) (hturn : x.InTurn operation) :
      Threaded (x.after operation)

theorem Threaded.nested (h : x.Threaded) (hopen : x.session.closed = false) : x.Nested := by
  induction h with
  | opened settings host heap => exact .opened settings host heap
  | step _ hturn ih => exact (ih (closed_of_after hopen)).after hturn hopen

/-- The contexts that stand are those entered and not left, in the order of entry and of their
ids.  No operation changes another context than the current one, and none of those between the
entry of a context and its end changes a context that was there before. -/
theorem contexts_nest {settings : Settings} {host : Host} {heap : Heap}
    (hturns : AllInTurn { session := opened settings host heap } operations)
    (hopen : ((opened settings host heap).run operations).closed = false) :
    let y := run { session := opened settings host heap } operations
    y.session.active.reverse = (opened settings host heap).standing operations ∧
      y.session.active.reverse.Pairwise (· < ·) ∧
      (∀ next, y.InTurn next → (y.after next).session.closed = false →
        ∀ {id c}, y.session.context? id = some c → y.session.active.head? ≠ some id →
          (y.after next).session.context? id = some c) ∧
      ∀ {mine entered}, y.InTurn .enterContext → y.session.enterContext = .ok (mine, entered) →
        ∀ inner, (y.after .enterContext).AllInTurn inner → stays inner mine = true →
          ((y.after .enterContext).run inner).session.closed = false →
          ∀ {id c}, y.session.context? id = some c →
            ((y.after .enterContext).run inner).session.context? id = some c ∧
            (((y.after .enterContext).run inner).after (.exitContext mine)).session.context? id =
              some c := by
  intro y
  have hsession : y.session = (opened settings host heap).run operations := session_run _ _
  have hy : y.session.closed = false := hsession ▸ hopen
  have hnested : y.Nested := (Nested.opened settings host heap).run hturns hy
  refine ⟨?_, hnested.ascending, ?_, ?_⟩
  · rw [hsession, active_run hopen]
    rfl
  · intro next hturn hnext id c
    exact hnested.kept hturn hnext
  · intro mine entered hturn henter inner hinner hstays hlast id c hget
    have hmine : y.session.enters? .enterContext = some mine := by rw [enters?, henter]; rfl
    obtain ⟨_, _, hid⟩ := enters?_eq_some hmine
    have hentered : (y.after .enterContext).session.closed = false := by
      rw [session_run] at hlast
      exact Session.closed_of_run hlast
    have hbelow : id < mine := by
      rw [hid]
      exact Nat.lt_succ_of_le (hnested.numbered.le hget)
    have hcurrent : mine ∈ (y.after .enterContext).session.active := by
      rw [Scene.after, after_enterContext hy, hid]
      exact List.mem_cons_self
    have hfirst : (y.after .enterContext).session.context? id = some c := by
      rw [Scene.after, hnested.numbered.context?_enterContext hy hget, hget]
    have hkept := (hnested.after hturn hentered).run_kept hinner hcurrent hstays hlast hfirst hbelow
    exact ⟨hkept, hkept⟩

theorem contexts_nest_crossing :
    let x : Scene := { session := opened {} (Host.ofTable none []) {} }
    let operations : List Operation :=
      [.enterContext, .hook (.line "/a.js" 1), .command "step_into -i 1", .enterContext,
        .enterContext, .exitContext 2]
    let y := x.run operations
    let next : Operation := .hook (.line "/c.js" 1)
    x.AllInTurn operations ∧ y.session.closed = false ∧
      x.session.standing operations = [1, 3] ∧ y.session.active.reverse = [1, 3] ∧
      y.InTurn next ∧ (y.after next).session.closed = false ∧
      ∃ c, y.session.context? 1 = some c ∧ c.step = .into ∧
        (y.after next).session.context? 1 = some c := by
  intro x operations y next
  have hturns : x.AllInTurn operations := ⟨rfl, rfl, trivial, rfl, rfl, rfl, trivial⟩
  have hopen : (x.session.run operations).closed = false := by decide +kernel
  have hnext : (y.after next).session.closed = false := by decide +kernel
  have hstanding : x.session.standing operations = [1, 3] := by decide +kernel
  have hstep : (y.session.context? 1).map Context.step = some .into := by decide +kernel
  obtain ⟨c, hget, hinto⟩ := Option.map_eq_some_iff.mp hstep
  obtain ⟨hactive, _, hkept, _⟩ := contexts_nest hturns hopen
  have hother : y.session.active.head? ≠ some 1 := by decide +kernel
  exact ⟨hturns, by decide +kernel, hstanding, hactive.trans hstanding, rfl, hnext, c, hget, hinto,
    hkept next rfl hnext hget hother⟩

end Scene

end Session

end ScriptDebugger
