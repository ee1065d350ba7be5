import Mathlib.Data.List.Induction
import ScriptDebugger.Proofs.Registry.Source
import ScriptDebugger.Proofs.Session.Breakpoints
import ScriptDebugger.Proofs.Session.Replies

/-!
The commands on breakpoints.  What a client is shown that asks for a breakpoint, what its commands
say of a breakpoint that they set or update, and where the breakpoints of a session come from when
the program around it leaves them to the client.
-/

namespace ScriptDebugger

namespace Command

variable {c : Command} {α : Type} {key : String} {reader : String → Option α}

theorem read?_of_option? {result : Option α} {value : String}
    (hread : c.read? key reader = .ok result) (hoption : c.option? key = some value) :
    ∃ a, result = some a ∧ reader (Text.trim value) = some a := by
  rw [read?, hoption] at hread
  dsimp only at hread
  split at hread
  · rename_i a ha
    exact ⟨a, (Except.ok.inj hread).symm, ha⟩
  · cases hread

theorem option?_of_read? (hread : c.read? key reader = .ok none) : c.option? key = none := by
  cases hoption : c.option? key with
  | none => rfl
  | some value =>
      obtain ⟨a, hnone, _⟩ := read?_of_option? hread hoption
      cases hnone

theorem read?_of_option?_eq_none (h : c.option? key = none) : c.read? key reader = .ok none := by
  rw [Command.read?, h]

end Command

namespace Session

open ScriptDebugger.Action Breakpoint

def Presents (s : Session) (id : Breakpoint.Id) (e : Element) : Prop :=
  ∀ {line : String} {c : Command}, Command.parse line = .ok c → c.name = "breakpoint_get" →
    targetId c = .ok id →
      s.sent (.command line) = if s.outbox.isOpen then [.answer (c.answer.child e)] else []

theorem presents_of_get? {s : Session} {id : Breakpoint.Id} {b : Breakpoint}
    (hget : s.registry.get? id = some b) : s.Presents id (breakpointElement b) := by
  intro line c hparse hname hid
  have hrun : s.execute c = .ok (s.answer (c.answer.child (breakpointElement b))) := by
    rw [execute, obey_of_name hname rfl, breakpointGetCommand, Action.replyResult, on_bind,
      on_tryCatch, hid, on_read_ok, on_get, hget]
    rfl
  exact sent_of_dispatch (dispatch_of_parse hparse hrun) rfl

theorem lookup_optionalAttribute {name other : String} (h : name ≠ other)
    (value : Option String) : (optionalAttribute other value).lookup name = none := by
  cases value with
  | none => rfl
  | some _ =>
      rw [optionalAttribute, List.lookup_cons, beq_false_of_ne h]
      rfl

theorem attribute?_of_not_mem (b : Breakpoint) {name : String}
    (h : name ∉ ["id", "type", "state", "filename", "lineno", "function", "exception"]) :
    (breakpointElement b).attribute? name =
      [("hit_value", Text.numeral b.hitValue),
        ("hit_condition", (b.hitCondition.getD .atLeast).text),
        ("hit_count", Text.numeral b.hitCount),
        ("temporary", if b.temporary then "1" else "0")].lookup name := by
  simp only [List.mem_cons, List.not_mem_nil, or_false, not_or] at h
  obtain ⟨hid, htype, hstate, hfile, hline, hfunction, hexception⟩ := h
  have hfirst : [("id", Breakpoint.Id.text b.id), ("type", b.kind.text),
      ("state", b.state.text)].lookup name = none := by
    simp [List.lookup_cons, beq_false_of_ne, hid, htype, hstate]
  have hplace : (if b.file.isEmpty then []
      else [("filename", Text.toFileUri b.file), ("lineno", Text.numeral b.line)]).lookup name =
        none := by
    split
    · rfl
    · simp [List.lookup_cons, beq_false_of_ne, hfile, hline]
  rw [Element.attribute?, breakpointElement]
  simp only [List.lookup_append, hfirst, hplace, lookup_optionalAttribute hfunction,
    lookup_optionalAttribute hexception, Option.none_or]

theorem attribute?_hitValue (b : Breakpoint) :
    (breakpointElement b).attribute? "hit_value" = some (Text.numeral b.hitValue) :=
  attribute?_of_not_mem b (by decide)

theorem attribute?_hitCondition (b : Breakpoint) :
    (breakpointElement b).attribute? "hit_condition" =
      some (b.hitCondition.getD .atLeast).text :=
  attribute?_of_not_mem b (by decide)

theorem attribute?_hitCount (b : Breakpoint) :
    (breakpointElement b).attribute? "hit_count" = some (Text.numeral b.hitCount) :=
  attribute?_of_not_mem b (by decide)

theorem attribute?_place {b : Breakpoint} (h : b.file ≠ "") :
    (breakpointElement b).attribute? "filename" = some (Text.toFileUri b.file) ∧
      (breakpointElement b).attribute? "lineno" = some (Text.numeral b.line) := by
  rw [Element.attribute?, Element.attribute?, breakpointElement, if_neg (by simpa using h)]
  exact ⟨rfl, rfl⟩

theorem WatchTarget.read_eq_ok_iff {text : String} {target : WatchTarget} :
    WatchTarget.read text = .ok target ↔ ∃ property access modification, property ≠ [] ∧
      text.toList = property ++ [access, modification] ∧
        target = ⟨String.ofList (Text.trimChars property), access == '1', modification == '1'⟩ := by
  constructor
  · intro h
    unfold WatchTarget.read at h
    split at h
    · rename_i modification access c before hreverse
      cases h
      refine ⟨(c :: before).reverse, access, modification, by simp, ?_, rfl⟩
      rw [← List.reverse_reverse text.toList, hreverse]
      simp
    · cases h
  · rintro ⟨property, access, modification, hne, htext, rfl⟩
    obtain ⟨c, before, hproperty⟩ := List.exists_cons_of_ne_nil (mt List.reverse_eq_nil_iff.mp hne)
    have hreverse : text.toList.reverse = modification :: access :: c :: before := by
      rw [htext, List.reverse_append, hproperty]
      rfl
    have hback : (c :: before).reverse = property := by
      rw [← hproperty, List.reverse_reverse]
    simp only [WatchTarget.read, hreverse, hback]

theorem readHitPolicy_eq_ok {c : Command} {b after : Breakpoint}
    (h : readHitPolicy c b = .ok after) :
    after.kind = b.kind ∧ (after.hitCondition = none → after.hitValue = 0) := by
  obtain ⟨value, _, h⟩ := bind_eq_ok.mp h
  obtain ⟨condition, _, h⟩ := bind_eq_ok.mp h
  obtain rfl := Except.ok.inj h
  refine ⟨rfl, fun hnone => Nat.eq_zero_of_not_pos fun hpositive => ?_⟩
  dsimp only at hnone hpositive
  rw [if_pos hpositive] at hnone
  cases condition <;> cases hnone

theorem readExpression_eq_ok {c : Command} {b after : Breakpoint}
    (h : readExpression c b = .ok after) :
    after.kind = b.kind ∧ after.hitValue = b.hitValue ∧ after.hitCondition = b.hitCondition ∧
      (b.kind = .watch → after.expression.isSome = true) := by
  obtain ⟨data, _, h⟩ := bind_eq_ok.mp h
  cases data with
  | none =>
      dsimp only at h
      split at h
      · cases h
      · rename_i hother
        obtain rfl := Except.ok.inj h
        exact ⟨rfl, rfl, rfl, fun hwatch => absurd hwatch hother⟩
  | some expression =>
      dsimp only at h
      split at h
      · obtain ⟨target, _, h⟩ := bind_eq_ok.mp h
        obtain rfl := Except.ok.inj h
        exact ⟨rfl, rfl, rfl, fun _ => rfl⟩
      · obtain rfl := Except.ok.inj h
        exact ⟨rfl, rfl, rfl, fun _ => rfl⟩

theorem readBreakpoint_eq_ok {c : Command} {b : Breakpoint} (h : readBreakpoint c = .ok b) :
    (b.hitCondition = none → b.hitValue = 0) ∧ (b.kind = .watch → b.expression.isSome = true) := by
  obtain ⟨kind, _, h⟩ := bind_eq_ok.mp h
  obtain ⟨state, _, h⟩ := bind_eq_ok.mp h
  obtain ⟨line, _, h⟩ := bind_eq_ok.mp h
  obtain ⟨middle, hpolicy, h⟩ := bind_eq_ok.mp h
  obtain ⟨_, hvalue⟩ := readHitPolicy_eq_ok hpolicy
  obtain ⟨hkind, hsameValue, hsameCondition, hexpression⟩ := readExpression_eq_ok h
  rw [hsameValue, hsameCondition, hkind]
  exact ⟨hvalue, hexpression⟩

/-- What a command says about the expression of a breakpoint of a kind, and what an update takes
from it. -/
inductive ExpressionRead (c : Command) (kind : Kind) (u : BreakpointUpdate) : Prop where
  | absent (hdata : c.decodedData? = .ok none) (hexpression : u.expression = none)
      (hflags : u.watchFlags = none)
  | watch {text : String} {target : WatchTarget} (hdata : c.decodedData? = .ok (some text))
      (hkind : kind = .watch) (htarget : WatchTarget.read text = .ok target)
      (hexpression : u.expression = some target.property)
      (hflags : u.watchFlags = some (target.onAccess, target.onModification))
  | other {text : String} (hdata : c.decodedData? = .ok (some text)) (hkind : kind ≠ .watch)
      (hexpression : u.expression = some text) (hflags : u.watchFlags = none)

/-- How a command describes an update of a breakpoint of a kind. -/
structure UpdateRead (c : Command) (kind : Kind) (u : BreakpointUpdate) : Prop where
  state : c.read? "s" (fun value => (State.read value).toOption) = .ok u.state
  line : c.number? "n" Text.bound32 = .ok u.line
  hitValue : c.number? "h" Text.bound32 = .ok u.hitValue
  hitCondition : c.read? "o" (fun value => (HitCondition.read value).toOption) = .ok u.hitCondition
  expression : ExpressionRead c kind u

theorem readUpdate_eq_ok {c : Command} {kind : Kind} {u : BreakpointUpdate}
    (h : readUpdate c kind = .ok u) : UpdateRead c kind u := by
  obtain ⟨state, hstate, h⟩ := bind_eq_ok.mp h
  obtain ⟨line, hline, h⟩ := bind_eq_ok.mp h
  obtain ⟨value, hvalue, h⟩ := bind_eq_ok.mp h
  obtain ⟨condition, hcondition, h⟩ := bind_eq_ok.mp h
  obtain ⟨data, hdata, h⟩ := bind_eq_ok.mp h
  cases data with
  | none =>
      obtain rfl := Except.ok.inj h
      exact ⟨hstate, hline, hvalue, hcondition, .absent hdata rfl rfl⟩
  | some text =>
      dsimp only at h
      split at h
      · rename_i hkind
        obtain ⟨target, htarget, h⟩ := bind_eq_ok.mp h
        obtain rfl := Except.ok.inj h
        exact ⟨hstate, hline, hvalue, hcondition, .watch hdata hkind htarget rfl rfl⟩
      · rename_i hkind
        obtain rfl := Except.ok.inj h
        exact ⟨hstate, hline, hvalue, hcondition, .other hdata hkind rfl rfl⟩

/-! Where the breakpoints of a session come from. -/

def Operation.SparesBreakpoints : Operation → Prop
  | .breakpoints _ => False
  | _ => True

/-- A breakpoint that is there after an operation was set by it, was updated by it, or was there
before and has one more hit at most. -/
inductive Source (s : Session) (operation : Operation) (id : Breakpoint.Id) (b : Breakpoint) :
    Prop where
  | set {c : Command} {a : Breakpoint} (hread : readBreakpoint c = .ok a)
      (hb : b = { a with id := id, hitCount := 0 }) {line : String}
      (hoperation : operation = .command line) (hparse : Command.parse line = .ok c)
      (hname : c.name = "breakpoint_set")
  | updated {line : String} {c : Command} {old : Breakpoint} {u : BreakpointUpdate}
      (hoperation : operation = .command line) (hparse : Command.parse line = .ok c)
      (hname : c.name = "breakpoint_update") (hid : targetId c = .ok id)
      (hget : s.registry.get? id = some old) (hread : UpdateRead c old.kind u)
      (hb : b = old.revised u)
  | kept {old : Breakpoint} (hget : s.registry.get? id = some old)
      (hb : b = old ∨ b = old.counted)

namespace Source

variable {s : Session} {operation : Operation} {id : Breakpoint.Id} {b : Breakpoint}

theorem ofSet {line : String} {c : Command} (hparse : Command.parse line = .ok c)
    (hname : c.name = "breakpoint_set") (hget : (s.dispatch line).registry.get? id = some b) :
    Source s (.command line) id b := by
  have hends := breakpointSetCommand_effect s c
  rw [← obey_of_name hname rfl] at hends
  rcases dispatch_of_ends hparse hends with hsame | heffect
  · exact .kept (hsame ▸ hget) (.inl rfl)
  · generalize s.dispatch line = after at heffect hget
    cases heffect with
    | refused e => exact .kept hget (.inl rfl)
    | @added a _ _ hread hadd =>
        cases Registry.Source.ofAdd hadd hget with
        | added _ hoperation _ hb =>
            cases hoperation
            exact .set hread hb rfl hparse hname
        | revised _ _ hoperation => cases hoperation
        | kept old hold hb => exact .kept hold (.inl (hb.trans (if_neg nofun)))

theorem ofUpdate (h : s.registry.Consistent) {line : String} {c : Command}
    (hparse : Command.parse line = .ok c) (hname : c.name = "breakpoint_update")
    (hget : (s.dispatch line).registry.get? id = some b) : Source s (.command line) id b := by
  have hends := breakpointUpdateCommand_effect s c
  rw [← obey_of_name hname rfl] at hends
  rcases dispatch_of_ends hparse hends with hsame | heffect
  · exact .kept (hsame ▸ hget) (.inl rfl)
  · generalize s.dispatch line = after at heffect hget
    cases heffect with
    | refused e => exact .kept hget (.inl rfl)
    | @updated changed old _ u _ hid hold hread hupdate =>
        cases Registry.Source.ofUpdate h hupdate hget with
        | added _ hoperation => cases hoperation
        | revised stored v hoperation hstored hb =>
            cases hoperation
            cases hold.symm.trans hstored
            exact .updated rfl hparse hname hid hold (readUpdate_eq_ok hread) hb
        | kept stored hstored hb => exact .kept hstored (.inl (hb.trans (if_neg nofun)))

theorem of_get? (h : s.registry.Consistent) (hspares : operation.SparesBreakpoints)
    (hget : (s.after operation).registry.get? id = some b) : Source s operation id b := by
  rcases s.registry_after operation with ⟨selected, hregistry⟩ | ⟨changes, hcauses, hregistry⟩
  · rw [hregistry] at hget
    obtain ⟨old, hold, hb⟩ := h.get?_of_hit hget
    refine .kept hold ?_
    rw [hb]
    split
    · exact .inr rfl
    · exact .inl rfl
  by_cases htakes : ∀ change ∈ changes, change.Takes
  · rw [hregistry] at hget
    exact .kept (h.get?_of_run_takes htakes hget) (.inl rfl)
  obtain ⟨change, hmem, hother⟩ : ∃ change ∈ changes, ¬ change.Takes := by
    simpa using htakes
  cases operation with
  | command line =>
      rcases hcauses change hmem with rfl | ⟨c, hparse, hmakes⟩
      · exact absurd trivial hother
      · cases change with
        | add _ => exact .ofSet hparse hmakes hget
        | update _ _ => exact .ofUpdate h hparse hmakes hget
        | remove _ | switch _ | clear => exact absurd trivial hother
        | hitLine _ _ | hitCall _ | hitLeave _ | hitException _ => exact hmakes.elim
  | breakpoints _ => exact hspares.elim
  | _ =>
      rw [show change = .clear from hcauses change hmem] at hother
      exact absurd trivial hother

end Source

/-- What every operation hands on from the breakpoints before it to those after it holds of the
breakpoints after a history, as long as the program leaves them to the client. -/
theorem source_induction {settings : Settings} {host : Host} {heap : Heap}
    {motive : List Operation → Breakpoint.Id → Breakpoint → Prop}
    (hstep : ∀ before operation id b,
      Source ((opened settings host heap).run before) operation id b →
        (∀ old, ((opened settings host heap).run before).registry.get? id = some old →
          motive before id old) → motive (before ++ [operation]) id b)
    {operations : List Operation} (hspares : ∀ operation ∈ operations, operation.SparesBreakpoints)
    {id : Breakpoint.Id} {b : Breakpoint}
    (hget : ((opened settings host heap).run operations).registry.get? id = some b) :
    motive operations id b := by
  induction operations using List.reverseRecOn generalizing b with
  | nil => cases hget
  | append_singleton before operation ih =>
      have hreached : ((opened settings host heap).run before).Reached :=
        ⟨settings, host, heap, before, rfl⟩
      rw [run_append] at hget
      have hsource := Source.of_get? hreached.consistent.1 (hspares operation (by simp)) hget
      refine hstep before operation id b hsource fun old hold => ?_
      exact ih (fun other hother => hspares other (by simp [hother])) hold

/-- Some history in which the program leaves the breakpoints to the client leads to the session. -/
def Tended (s : Session) : Prop :=
  ∃ settings host heap operations,
    (∀ operation ∈ operations, operation.SparesBreakpoints) ∧
      s = (opened settings host heap).run operations

theorem Tended.reached {s : Session} (h : s.Tended) : s.Reached := by
  obtain ⟨settings, host, heap, operations, _, rfl⟩ := h
  exact ⟨settings, host, heap, operations, rfl⟩

theorem Tended.isSome_expression_of_watch {s : Session} (h : s.Tended) {id : Breakpoint.Id}
    {b : Breakpoint} (hget : s.registry.get? id = some b) (hwatch : b.kind = .watch) :
    b.expression.isSome = true := by
  obtain ⟨settings, host, heap, operations, hspares, rfl⟩ := h
  refine source_induction (motive := fun _ _ b => b.kind = .watch → b.expression.isSome = true)
    ?_ hspares hget hwatch
  intro before operation id b hsource hbefore hkind
  cases hsource with
  | @set _ a hread hb =>
      subst hb
      exact (readBreakpoint_eq_ok hread).2 hkind
  | @updated _ _ old u _ _ _ _ hold _ hb =>
      subst hb
      have hkept := hbefore old hold hkind
      change (u.expression.or old.expression).isSome = true
      rw [Option.isSome_or, hkept, Bool.or_true]
  | @kept old hold hb =>
      rcases hb with rfl | rfl
      · exact hbefore _ hold hkind
      · exact hbefore old hold hkind

end Session

end ScriptDebugger
