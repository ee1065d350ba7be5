import ScriptDebugger.Proofs.Registry.HitCount
import ScriptDebugger.Proofs.Session.BreakpointCommands

namespace ScriptDebugger

structure HitPolicy where
  condition : HitCondition
  value : Nat
  count : Nat
  deriving DecidableEq, Repr

namespace HitPolicy

def ofElement? (e : Element) : Option HitPolicy := do
  let condition ← (HitCondition.read (← e.attribute? "hit_condition")).toOption
  let value ← Text.readDigits? (← e.attribute? "hit_value").toList
  let count ← Text.readDigits? (← e.attribute? "hit_count").toList
  return ⟨condition, value, count⟩

/-- Whether one more hit meets the policy.  Counting stops at the largest count. -/
def met (p : HitPolicy) : Bool :=
  p.condition.isMet p.value (min (p.count + 1) Breakpoint.maxHits)

end HitPolicy

theorem HitCondition.read_text (condition : HitCondition) : read condition.text = .ok condition := by
  cases condition <;> rfl

theorem Text.readDigits?_numeral (n : Nat) : readDigits? (numeral n).toList = some n := by
  rw [numeral, String.toList_ofList, readDigits?_eq (digits_ne_nil n), readDigitsFrom_digits]

namespace Breakpoint

def shownPolicy (b : Breakpoint) : HitPolicy :=
  ⟨b.hitCondition.getD .atLeast, b.hitValue, b.hitCount⟩

theorem policyMet_counted (b : Breakpoint) :
    b.counted.policyMet = (b.hitCondition.isNone || b.shownPolicy.met) := by
  cases hcondition : b.hitCondition with
  | none => rw [policyMet, counted, hcondition]; rfl
  | some condition => rw [policyMet, counted, hcondition, shownPolicy, hcondition]; rfl

end Breakpoint

namespace Session

open Breakpoint

theorem ofElement?_breakpointElement (b : Breakpoint) :
    HitPolicy.ofElement? (breakpointElement b) = some b.shownPolicy := by
  simp [HitPolicy.ofElement?, attribute?_hitCondition, attribute?_hitValue, attribute?_hitCount,
    HitCondition.read_text, Text.readDigits?_numeral, shownPolicy, Except.toOption]

/-- An operation is an update that gives a breakpoint a hit value and no condition. -/
def GivesBareValue (id : Breakpoint.Id) (value : Nat) (operation : Operation) : Prop :=
  ∃ line c, operation = .command line ∧ Command.parse line = .ok c ∧
    c.name = "breakpoint_update" ∧ targetId c = .ok id ∧
      c.number? "h" Text.bound32 = .ok (some value) ∧ c.option? "o" = none

theorem exists_givesBareValue {settings : Settings} {host : Host} {heap : Heap}
    {operations : List Operation} (hspares : ∀ operation ∈ operations, operation.SparesBreakpoints)
    {id : Breakpoint.Id} {b : Breakpoint}
    (hget : ((opened settings host heap).run operations).registry.get? id = some b)
    (hcondition : b.hitCondition = none) (hvalue : b.hitValue ≠ 0) :
    ∃ operation ∈ operations, GivesBareValue id b.hitValue operation := by
  refine source_induction (motive := fun operations id b => b.hitCondition = none →
    b.hitValue ≠ 0 → ∃ operation ∈ operations, GivesBareValue id b.hitValue operation)
    ?_ hspares hget hcondition hvalue
  intro before operation id b hsource hbefore hnone hpositive
  have hold : ∀ old, ((opened settings host heap).run before).registry.get? id = some old →
      old.hitCondition = none → old.hitValue ≠ 0 →
        ∃ other ∈ before ++ [operation], GivesBareValue id old.hitValue other := by
    intro old hget hnone hpositive
    obtain ⟨other, hother, hgives⟩ := hbefore old hget hnone hpositive
    exact ⟨other, List.mem_append_left _ hother, hgives⟩
  cases hsource with
  | @set _ a hread hb =>
      subst hb
      exact absurd ((readBreakpoint_eq_ok hread).1 hnone) hpositive
  | @updated line c old u hoperation hparse hname hid hget hread hb =>
      subst hb
      obtain ⟨hnew, hkept⟩ := Option.or_eq_none_iff.mp hnone
      have hbare := Command.option?_of_read? (hnew ▸ hread.hitCondition)
      have hgiven := hread.hitValue
      rw [revised] at hpositive ⊢
      cases hu : u.hitValue with
      | none =>
          rw [hu] at hpositive
          exact hold old hget hkept hpositive
      | some value =>
          rw [hu] at hgiven
          exact ⟨operation, List.mem_concat_self, line, c, hoperation, hparse, hname, hid, hgiven,
            hbare⟩
  | @kept old hget hb =>
      rcases hb with rfl | rfl
      · exact hold _ hget hnone hpositive
      · exact hold old hget hnone hpositive

/-- The policy that a client is shown decides whether an event stops the debuggee.  It is not asked
of a breakpoint that got its hit value from an update, and no condition from anywhere. -/
theorem shown_policy_decides {settings : Settings} {host : Host} {heap : Heap}
    {operations : List Operation} (s : Session)
    (hs : s = (opened settings host heap).run operations)
    (hspares : ∀ operation ∈ operations, operation.SparesBreakpoints) {id : Breakpoint.Id}
    {b : Breakpoint} {k : Key} (hget : s.registry.get? id = some b)
    (henabled : b.isEnabled = true) (hkey : b.key? = some k) :
    ∃ e p, s.Presents id e ∧ HitPolicy.ofElement? e = some p ∧
      ((s.registry.hitKey k).1 = (if p.met then some b.counted else none) ∨
        (s.registry.hitKey k).1 = some b.counted ∧ b.hitCondition = none ∧ p.value ≠ 0 ∧
          ∃ operation ∈ operations, GivesBareValue id p.value operation) := by
  have hreached : s.Reached := ⟨settings, host, heap, operations, hs⟩
  have hlookup : s.registry.lookup k = some id :=
    hreached.consistent.1.lookup_iff.mpr ⟨b, hget, hkey⟩
  have hhit : (s.registry.hitKey k).1 = if b.counted.policyMet then some b.counted else none := by
    rw [Registry.hitKey_eq, Registry.fst_hit, hlookup, Option.bind_some, hget, Option.bind_some,
      hit?, henabled, Bool.true_and]
  refine ⟨_, _, presents_of_get? hget, ofElement?_breakpointElement b, ?_⟩
  rw [hhit, policyMet_counted]
  cases hcondition : b.hitCondition with
  | some condition => exact .inl rfl
  | none =>
      by_cases hzero : b.hitValue = 0
      · have hmet : b.shownPolicy.met = true := by
          rw [HitPolicy.met, shownPolicy, hzero, HitCondition.isMet_zero]
        rw [hmet]
        exact .inl rfl
      · subst hs
        exact .inr ⟨rfl, rfl, hzero, exists_givesBareValue hspares hget hcondition hzero⟩

theorem shown_policy_decides_second_hit :
    let s := (opened {} (Host.ofTable none []) {}).run
      [.command "breakpoint_set -i 1 -t line -f /a.js -n 1 -h 2", .enterContext,
        .hook (.line "/a.js" 1)]
    ∃ e p, s.Presents 1 e ∧ HitPolicy.ofElement? e = some p ∧
      (s.registry.hitKey (.line ⟨"/a.js", 1⟩)).1.isSome = p.met := by
  intro s
  have hget : s.registry.get? 1 =
      some { id := 1, kind := .line, file := "/a.js", line := 1, hitValue := 2,
             hitCondition := some .atLeast, hitCount := 1 } := by
    decide +kernel
  obtain ⟨e, p, hpresents, hpolicy, hdecides⟩ :=
    shown_policy_decides (k := .line ⟨"/a.js", 1⟩) s rfl (by simp [Operation.SparesBreakpoints])
      hget (by decide) rfl
  refine ⟨e, p, hpresents, hpolicy, ?_⟩
  rcases hdecides with hdecides | ⟨_, hnone, _⟩
  · rw [hdecides]
    cases p.met <;> rfl
  · cases hnone

/-- A client is shown that the breakpoint waits for five hits, and it stops at the first. -/
theorem shown_policy_ignored :
    let s := (opened {} (Host.ofTable none []) {}).run
      [.command "breakpoint_set -i 1 -t line -f /a.js -n 1",
        .command "breakpoint_update -i 2 -d 1 -h 5"]
    ∃ e p, s.Presents 1 e ∧ HitPolicy.ofElement? e = some p ∧ p = ⟨.atLeast, 5, 0⟩ ∧
      p.met = false ∧ (s.registry.hitKey (.line ⟨"/a.js", 1⟩)).1.isSome = true := by
  intro s
  have hget : s.registry.get? 1 =
      some { id := 1, kind := .line, file := "/a.js", line := 1, hitValue := 5 } := by
    decide +kernel
  exact ⟨_, _, presents_of_get? hget, ofElement?_breakpointElement _, rfl, by decide +kernel,
    by decide +kernel⟩

end Session

end ScriptDebugger
