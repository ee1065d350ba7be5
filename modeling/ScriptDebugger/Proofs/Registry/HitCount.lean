import Mathlib.Data.List.Induction
import ScriptDebugger.Proofs.Registry.Disabled
import ScriptDebugger.Proofs.Registry.Source

namespace ScriptDebugger

def Breakpoint.Kind.isKeyed : Breakpoint.Kind → Bool
  | .line | .conditional | .call | .leave => true
  | .exception | .watch => false

theorem Breakpoint.policyMet_iff {b : Breakpoint} :
    b.policyMet = true ↔
      ∀ condition, b.hitCondition = some condition →
        condition.isMet b.hitValue b.hitCount = true := by
  unfold policyMet
  cases b.hitCondition with
  | none => simp
  | some condition => simp

namespace Registry

open Breakpoint

def hitKey (r : Registry) : Key → Option Breakpoint × Registry
  | .line location => r.hitLine location.file location.line
  | .call name => r.hitCall name
  | .leave name => r.hitLeave name

def Operation.key? : Operation → Option Key
  | .hitLine file line => some (.line ⟨file, line⟩)
  | .hitCall name => some (.call name)
  | .hitLeave name => some (.leave name)
  | _ => none

/-- Whether an operation tells of an event with the key that a breakpoint has at this moment, while
the breakpoint is enabled. -/
def hits (r : Registry) (id : Breakpoint.Id) (operation : Operation) : Bool :=
  operation.key?.isSome &&
    (r.get? id).any fun b => b.isEnabled && decide (b.key? = operation.key?)

/-- How many operations are hits of a breakpoint, each in the registry that it meets. -/
def hitsOf (r : Registry) (id : Breakpoint.Id) : List Operation → Nat
  | [] => 0
  | operation :: rest => (r.hits id operation).toNat + (r.after operation).hitsOf id rest

theorem hitKey_eq (r : Registry) (k : Key) : r.hitKey k = r.hit (r.lookup k) := by
  cases k <;> rfl

theorem hits_eq_true_iff {r : Registry} {id : Breakpoint.Id} {operation : Operation} {k : Key}
    (h : operation.key? = some k) :
    r.hits id operation = true ↔
      ∃ b, r.get? id = some b ∧ b.isEnabled = true ∧ b.key? = some k := by
  simp [hits, h, Option.any_eq_true]

theorem hits_of_key?_eq_none (r : Registry) (id : Breakpoint.Id) {operation : Operation}
    (h : operation.key? = none) : r.hits id operation = false := by
  rw [hits, h]
  rfl

theorem hitsOf_append (r : Registry) (id : Breakpoint.Id) (first second : List Operation) :
    r.hitsOf id (first ++ second) = r.hitsOf id first + (r.run first).hitsOf id second := by
  induction first generalizing r with
  | nil => exact (Nat.zero_add _).symm
  | cons operation rest ih =>
      rw [List.cons_append, hitsOf, ih, ← Nat.add_assoc]
      rfl

/-- How a breakpoint that is there after an operation comes from before: it was added just now, or
it was there and has one more hit if the operation is one. -/
inductive Origin (r : Registry) (operation : Operation) (id : Breakpoint.Id) (b : Breakpoint) :
    Prop where
  | added (a : Breakpoint) (hoperation : operation = .add a)
      (hissued : r.issued? operation = some id) (hcount : b.hitCount = 0)
  | kept (old : Breakpoint) (hget : r.get? id = some old) (hkind : b.kind = old.kind)
      (hcount : b.hitCount =
        if r.hits id operation then min (old.hitCount + 1) maxHits else old.hitCount)

theorem hits_iff_selected {r : Registry} (h : r.Consistent) (hordered : r.Ordered)
    {operation : Operation} {id : Breakpoint.Id} {b : Breakpoint} (hget : r.get? id = some b)
    (hkeyed : b.kind.isKeyed = true) :
    r.hits id operation = true ↔ r.selected? operation = some id ∧ b.isEnabled = true := by
  have hkey {k : Key} (hoperation : operation.key? = some k)
      (hselected : r.selected? operation = r.lookup k) :
      r.hits id operation = true ↔ r.selected? operation = some id ∧ b.isEnabled = true := by
    rw [hits_eq_true_iff hoperation, hselected, h.lookup_iff, hget]
    simp [and_comm]
  have hnone (hoperation : operation.key? = none) (hselected : r.selected? operation ≠ some id) :
      r.hits id operation = true ↔ r.selected? operation = some id ∧ b.isEnabled = true := by
    rw [r.hits_of_key?_eq_none id hoperation]
    simp [hselected]
  cases operation with
  | hitLine file line => exact hkey (k := .line ⟨file, line⟩) rfl rfl
  | hitCall name => exact hkey (k := .call name) rfl rfl
  | hitLeave name => exact hkey (k := .leave name) rfl rfl
  | hitException className =>
      refine hnone rfl fun hselected => ?_
      obtain ⟨stored, hstored, _, hexception⟩ := exceptionFor?_eq_some h hordered hselected
      cases hstored.symm.trans hget
      rw [hexception] at hkeyed
      cases hkeyed
  | add _ | remove _ | update _ _ | switch _ | clear => exact hnone rfl nofun

theorem Origin.of_get? {r : Registry} {operation : Operation} {id : Breakpoint.Id}
    {b : Breakpoint} (h : r.Consistent) (hordered : r.Ordered) (hkeyed : b.kind.isKeyed = true)
    (hget : (r.after operation).get? id = some b) : Origin r operation id b := by
  cases Source.of_get? h hget with
  | added a hoperation hissued hb => exact .added a hoperation hissued (hb ▸ rfl)
  | revised old u hoperation hold hb =>
      subst hoperation hb
      refine .kept old hold rfl ?_
      rw [r.hits_of_key?_eq_none id rfl]
      rfl
  | kept old hold hb =>
      have hkind : b.kind = old.kind := by
        rw [hb]
        split <;> rfl
      refine .kept old hold hkind ?_
      simp only [hits_iff_selected h hordered hold (hkind ▸ hkeyed)]
      rw [hb]
      split <;> rfl

theorem run_concat (r : Registry) (operations : List Operation) (last : Operation) :
    r.run (operations ++ [last]) = (r.run operations).after last := by
  rw [run, List.foldl_append]
  rfl

theorem hitCount_eq_hitsOf {operations : List Operation} {id : Breakpoint.Id} {b : Breakpoint}
    (hget : (empty.run operations).get? id = some b) (hkeyed : b.kind.isKeyed = true) :
    ∃ before a behind, operations = before ++ .add a :: behind ∧
      (empty.run before).issued? (.add a) = some id ∧
      b.hitCount = min (((empty.run before).after (.add a)).hitsOf id behind) maxHits := by
  -- From the end: the last operation added the breakpoint, or found it with its count so far.
  induction operations using List.reverseRecOn generalizing b with
  | nil => cases hget
  | append_singleton operations last ih =>
      have hconsistent := Consistent.empty.run operations
      have hordered := Ordered.run (r := empty) List.Pairwise.nil .empty operations
      rw [run_concat] at hget
      cases Origin.of_get? hconsistent hordered hkeyed hget with
      | added a hoperation hissued hcount =>
          subst hoperation
          exact ⟨operations, a, [], rfl, hissued, hcount.trans (Nat.zero_min _).symm⟩
      | kept old hold hkind hcount =>
          obtain ⟨before, a, behind, rfl, hissued, hbefore⟩ := ih hold (hkind ▸ hkeyed)
          refine ⟨before, a, behind ++ [last], by simp, hissued, ?_⟩
          have hrun : ((empty.run before).after (.add a)).run behind =
              empty.run (before ++ .add a :: behind) := by
            rw [run, run, run, List.foldl_append]
            rfl
          rw [hitsOf_append, hrun, hcount, hbefore, hitsOf, hitsOf]
          cases (empty.run (before ++ .add a :: behind)).hits id last with
          | false => rfl
          | true =>
              simp only [if_true, Bool.toNat_true]
              omega

/-- A breakpoint for a line, a call or a return counts every event with its key that comes while it
is enabled, from the time that it was added.  It answers such an event with its new count just
when its policy is met, and the event changes no other breakpoint.  No change of the breakpoint
starts the count again. -/
theorem counts_every_hit {operations : List Operation} {id : Breakpoint.Id} {b : Breakpoint}
    (hget : (empty.run operations).get? id = some b) (hkeyed : b.kind.isKeyed = true) :
    (∃ before a behind, operations = before ++ .add a :: behind ∧
      (empty.run before).issued? (.add a) = some id ∧
      b.hitCount = min (((empty.run before).after (.add a)).hitsOf id behind) maxHits) ∧
    (∀ {k}, b.key? = some k → b.isEnabled = true →
      (∀ fired, ((empty.run operations).hitKey k).1 = some fired ↔
        fired = b.counted ∧ ∀ condition, b.hitCondition = some condition →
          condition.isMet b.hitValue b.counted.hitCount = true) ∧
      (∀ c, ((empty.run operations).hitKey k).2.get? id = some c → c = b.counted) ∧
      ∀ other, other ≠ id →
        ((empty.run operations).hitKey k).2.get? other = (empty.run operations).get? other) ∧
    ∀ {u changed after}, (empty.run operations).update id u = .ok (changed, after) →
      after.get? id = some changed ∧ changed.hitCount = b.hitCount := by
  have hconsistent := Consistent.empty.run operations
  refine ⟨hitCount_eq_hitsOf hget hkeyed, ?_, ?_⟩
  · intro k hkey henabled
    have hlookup := hconsistent.lookup_iff.mpr ⟨b, hget, hkey⟩
    rw [hitKey_eq, hlookup]
    refine ⟨?_, ?_, ?_⟩
    · intro fired
      have hpolicy : b.counted.policyMet = true ↔
          ∀ condition, b.hitCondition = some condition →
            condition.isMet b.hitValue b.counted.hitCount = true := policyMet_iff
      rw [fst_hit, Option.bind_some, hget, Option.bind_some, hit?, henabled, Bool.true_and,
        ← hpolicy, Option.ite_none_right_eq_some, Option.some.injEq, and_comm, @eq_comm _ fired]
    · intro c hc
      obtain ⟨old, hold, hc⟩ := hconsistent.get?_of_hit hc
      cases hget.symm.trans hold
      exact hc.trans (if_pos ⟨rfl, henabled⟩)
    · intro other hne
      exact hconsistent.get?_hit_of_ne fun hsame => hne (Option.some.inj hsame).symm
  · intro u changed after hupdate
    obtain ⟨old, hold, hchanged, rfl, _⟩ := hconsistent.update_exchanged hupdate
    cases hget.symm.trans hold
    exact ⟨hchanged, rfl⟩

theorem counts_every_hit_moved :
    let a : Breakpoint :=
      { kind := .line, file := "/a.js", line := 1, hitValue := 3, hitCondition := some .atLeast }
    let b : Breakpoint := { a with id := 1, line := 2, hitCount := 2 }
    let operations : List Operation :=
      [.add a, .hitLine "/a.js" 1, .update 1 { state := some .disabled }, .hitLine "/a.js" 1,
        .update 1 { state := some .enabled, line := some 2 }, .hitLine "/a.js" 2]
    (empty.run operations).get? 1 = some b ∧ b.kind.isKeyed = true ∧
      ((empty.run operations).hitKey (.line ⟨"/a.js", 2⟩)).1 = some b.counted := by
  intro a b operations
  have hget : (empty.run operations).get? 1 = some b := by decide +kernel
  obtain ⟨_, hhit, _⟩ := counts_every_hit hget rfl
  exact ⟨hget, rfl, ((hhit rfl rfl).1 b.counted).mpr ⟨rfl, by decide⟩⟩

end Registry

end ScriptDebugger
