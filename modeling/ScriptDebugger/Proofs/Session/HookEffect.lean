import ScriptDebugger.Proofs.Session.Verdict

namespace ScriptDebugger

namespace Session

/-- What became of a report to a context. -/
inductive HookEffect (s : Session) (c : Context) (event : Hook) : Progress × Session → Prop where
  | passed {registry : Registry} {entryStep : Bool} {lastWrites : Table ObjectId Location}
      {contexts : Table ContextId Context}
      (hcontexts : contexts = s.contexts ∨
        ∃ after, c.Moved after ∧ contexts = s.contexts.set after.id after)
      (hwrites : lastWrites = s.writesAfter c event) :
      HookEffect s c event
        { s with
          registry := registry
          entryStep := entryStep
          lastWrites := lastWrites
          contexts := contexts }.pass
  | asked {registry : Registry} {entryStep : Bool} {lastWrites : Table ObjectId Location}
      {contexts : Table ContextId Context}
      (hcontexts : contexts = s.contexts ∨
        ∃ after, c.Moved after ∧ contexts = s.contexts.set after.id after)
      {after : Context} (hafter : c.Moved after) (leaving : Bool) (reason : String)
      (hwrites : lastWrites = s.writesAfter c event) :
      HookEffect s c event
        ({ s with
          registry := registry
          entryStep := entryStep
          lastWrites := lastWrites
          contexts := contexts }.suspend after leaving reason)

theorem set_of_moved {s : Session} {c : Context} {contexts : Table ContextId Context}
    (hcontexts : contexts = s.contexts ∨
      ∃ after, c.Moved after ∧ contexts = s.contexts.set after.id after)
    (last : Context) (hid : last.id = c.id) :
    contexts.set last.id last = s.contexts.set last.id last := by
  rcases hcontexts with hsame | ⟨other, hother, hsame⟩
  · rw [hsame]
  · rw [hsame, hid, hother.id, Table.set_set]

namespace HookEffect

variable {s : Session} {c : Context} {event : Hook} {result : Progress × Session}

theorem of_goes (h : Goes s c event result) : HookEffect s c event result := by
  cases h with
  | mk hcontexts _ hwrites =>
      have hmoved := Context.Moved.withFrames c (event.framesAfter c)
      exact .passed (hcontexts.imp And.left fun hset => ⟨_, hmoved, hset⟩) hwrites

theorem of_asks (h : Asks s c event result) : HookEffect s c event result := by
  cases h with
  | mk hcontexts hmoved _ reason hwrites => exact .asked hcontexts hmoved _ reason hwrites

end HookEffect

theorem hook_effect (s : Session) (event : Hook) :
    (s.closed = true ∧ s.hook event = s.returned (.error .terminated)) ∨
      (s.closed = false ∧ s.current? = none ∧ s.hook event = s.pass) ∨
        s.closed = false ∧ ∃ c, s.current? = some c ∧ HookEffect s c event (s.hook event) := by
  unfold hook
  cases hclosed : s.closed with
  | true => exact .inl ⟨rfl, rfl⟩
  | false =>
      cases hcurrent : s.current? with
      | none => exact .inr (.inl ⟨rfl, rfl, rfl⟩)
      | some c =>
          have hverdict := hook_goes_or_asks hclosed hcurrent event
          rw [hook, hclosed, hcurrent] at hverdict
          exact .inr (.inr ⟨rfl, c, rfl, hverdict.elim .of_goes .of_asks⟩)

end Session

end ScriptDebugger
