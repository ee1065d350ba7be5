import ScriptDebugger.Proofs.Session.Suspension

/-!
What becomes of a report in the current context.  Either it goes on, and then it leaves the requests
of the client as they are, or it asks the client to let the context wait.  The frames of the context
are those that the report says.
-/

namespace ScriptDebugger

namespace Hook

def isLine : Hook → Bool
  | .line _ _ => true
  | _ => false

def isExit : Hook → Bool
  | .exit => true
  | _ => false

def framesAt (c : Context) : Hook → List Frame
  | .enter f => f :: c.frames
  | .line file number => (c.moveTo file number).frames
  | _ => c.frames

def framesAfter (c : Context) : Hook → List Frame
  | .exit => c.frames.tail
  | event => event.framesAt c

end Hook

theorem Context.moveTo_eq_withFrames (c : Context) (file : String) (line : Nat) :
    c.moveTo file line = { c with frames := (c.moveTo file line).frames } := by
  obtain ⟨frames, h⟩ := c.moveTo_eq file line
  rw [h]

namespace Session

def writesAfter (s : Session) (c : Context) : Hook → Table ObjectId Location
  | .write owner property =>
      match c.location? with
      | none => s.lastWrites
      | some here =>
          (trackWrite owner here ((s.registry.watchersOf property).filter Breakpoint.isEnabled)
            s.lastWrites).2
  | _ => s.lastWrites

/-- A report goes on.  A line does so only if no break was asked for in its context. -/
inductive Goes (s : Session) (c : Context) (event : Hook) : Progress × Session → Prop where
  | mk {registry : Registry} {entryStep : Bool} {lastWrites : Table ObjectId Location}
      {contexts : Table ContextId Context}
      (hcontexts : (contexts = s.contexts ∧ event.framesAfter c = c.frames) ∨
        contexts = s.contexts.set c.id { c with frames := event.framesAfter c })
      (hrequest : event.isLine = true → c.breakRequested = false)
      (hwrites : lastWrites = s.writesAfter c event) :
      Goes s c event
        { s with
          registry := registry
          entryStep := entryStep
          lastWrites := lastWrites
          contexts := contexts }.pass

/-- A report asks the client to let a context wait. -/
inductive Asks (s : Session) (c : Context) (event : Hook) : Progress × Session → Prop where
  | mk {registry : Registry} {entryStep : Bool} {lastWrites : Table ObjectId Location}
      {contexts : Table ContextId Context} {next : Context}
      (hcontexts : contexts = s.contexts ∨
        ∃ after, c.Moved after ∧ contexts = s.contexts.set after.id after)
      (hmoved : c.Moved next) (hframes : next.frames = event.framesAt c) (reason : String)
      (hwrites : lastWrites = s.writesAfter c event) :
      Asks s c event
        ({ s with
          registry := registry
          entryStep := entryStep
          lastWrites := lastWrites
          contexts := contexts }.suspend next event.isExit reason)

section Hook

variable {s : Session} {c : Context}

theorem Goes.of_not_line {event : Hook} (hline : event.isLine = false) {registry : Registry}
    {entryStep : Bool} {lastWrites : Table ObjectId Location} {contexts : Table ContextId Context}
    (hcontexts : (contexts = s.contexts ∧ event.framesAfter c = c.frames) ∨
      contexts = s.contexts.set c.id { c with frames := event.framesAfter c })
    (hwrites : lastWrites = s.writesAfter c event) :
    Goes s c event
      { s with
        registry := registry
        entryStep := entryStep
        lastWrites := lastWrites
        contexts := contexts }.pass := by
  refine .mk hcontexts (fun hother => ?_) hwrites
  rw [hline] at hother
  cases hother

theorem onEnter_goes_or_asks (f : Frame) :
    Goes s c (.enter f) (s.onEnter c f) ∨ Asks s c (.enter f) (s.onEnter c f) := by
  have hpush := Context.Moved.push c f
  simp only [onEnter]
  split
  · exact .inr (.mk (.inr ⟨_, hpush, rfl⟩) hpush rfl _ rfl)
  · split
    · exact .inr (.mk (.inr ⟨_, hpush, rfl⟩) hpush rfl _ rfl)
    · exact .inl (.of_not_line rfl (.inr rfl) rfl)

theorem onLine_goes_or_asks (location : Location) :
    Goes s c (.line location.file location.line) (s.onLine c location) ∨
      Asks s c (.line location.file location.line) (s.onLine c location) := by
  have hmoved := Context.Moved.moveTo c location.file location.line
  have hset : s.contexts.set (c.moveTo location.file location.line).id
      (c.moveTo location.file location.line) = s.contexts.set c.id
        { c with frames := (c.moveTo location.file location.line).frames } := by
    rw [hmoved.id, ← c.moveTo_eq_withFrames]
  simp only [onLine]
  split
  · exact .inr (.mk (.inr ⟨_, hmoved, rfl⟩) hmoved rfl _ rfl)
  · cases s.entryStep with
    | true => exact .inr (.mk (.inr ⟨_, hmoved, rfl⟩) hmoved rfl _ rfl)
    | false =>
        simp only [Bool.false_eq_true, if_false]
        split
        · have htaken := hmoved.trans (.takePendingStop _)
          refine .inr (.mk (.inr ⟨_, hmoved, rfl⟩) htaken ?_ _ rfl)
          unfold Context.takePendingStop
          split
          · rfl
          · rfl
        · rename_i hgoes
          refine .inl (.mk (.inr hset) (fun _ => Bool.eq_false_iff.mpr fun hrequested => hgoes ?_)
            rfl)
          have hsame : (c.moveTo location.file location.line).breakRequested = true := by
            rw [c.moveTo_eq_withFrames]
            exact hrequested
          rw [Context.takePendingStop, Context.stopPending, hsame]
          rfl

theorem onExit_goes_or_asks :
    Goes s c .exit (s.onExit c) ∨ Asks s c .exit (s.onExit c) := by
  simp only [onExit_eq]
  split
  · exact .inr (.mk (.inl rfl) (.refl c) rfl _ rfl)
  · split
    · exact .inr (.mk (.inl rfl) (.refl c) rfl _ rfl)
    · exact .inl (.of_not_line rfl (.inr rfl) rfl)

theorem onException_goes_or_asks (className message : String) :
    Goes s c (.exception className message) (s.onException c className message) ∨
      Asks s c (.exception className message) (s.onException c className message) := by
  simp only [onException]
  split
  · exact .inr (.mk (.inl rfl) (.refl c) rfl _ rfl)
  · exact .inl (.of_not_line rfl (.inl ⟨rfl, rfl⟩) rfl)

theorem onRead_goes_or_asks (owner : ObjectId) (property : String) :
    Goes s c (.read owner property) (s.onRead c owner property) ∨
      Asks s c (.read owner property) (s.onRead c owner property) := by
  simp only [onRead]
  split
  · exact .inl (.of_not_line rfl (.inl ⟨rfl, rfl⟩) rfl)
  · split
    · exact .inr (.mk (.inl rfl) (.refl c) rfl _ rfl)
    · exact .inl (.of_not_line rfl (.inl ⟨rfl, rfl⟩) rfl)

theorem onWrite_goes_or_asks (owner : ObjectId) (property : String) :
    Goes s c (.write owner property) (s.onWrite c owner property) ∨
      Asks s c (.write owner property) (s.onWrite c owner property) := by
  have hwrites : s.writesAfter c (.write owner property) =
      match c.location? with
      | none => s.lastWrites
      | some here =>
          (trackWrite owner here ((s.registry.watchersOf property).filter Breakpoint.isEnabled)
            s.lastWrites).2 := rfl
  simp only [onWrite]
  cases hlocation : c.location? with
  | none =>
      rw [hlocation] at hwrites
      exact .inl (.of_not_line rfl (.inl ⟨rfl, rfl⟩) hwrites.symm)
  | some here =>
      rw [hlocation] at hwrites
      dsimp only
      split
      · exact .inr (.mk (.inl rfl) (.refl c) rfl _ hwrites.symm)
      · exact .inl (.of_not_line rfl (.inl ⟨rfl, rfl⟩) hwrites.symm)

theorem hook_goes_or_asks (hopen : s.closed = false) (hcurrent : s.current? = some c)
    (event : Hook) : Goes s c event (s.hook event) ∨ Asks s c event (s.hook event) := by
  rw [hook, hopen, hcurrent]
  cases event with
  | compile file => exact .inl (.of_not_line rfl (.inl ⟨rfl, rfl⟩) rfl)
  | enter f => exact onEnter_goes_or_asks f
  | line file line => exact onLine_goes_or_asks ⟨file, line⟩
  | exit => exact onExit_goes_or_asks
  | exception className message => exact onException_goes_or_asks className message
  | read owner property => exact onRead_goes_or_asks owner property
  | write owner property => exact onWrite_goes_or_asks owner property

theorem Goes.breakRequested {event : Hook} {result : Progress × Session}
    (h : Goes s c event result) (hline : event.isLine = true) : c.breakRequested = false := by
  cases h with
  | mk _ hrequest _ => exact hrequest hline

theorem Asks.waits {event : Hook} {result : Progress × Session} (h : Asks s c event result)
    (hrunning : c.stopped = false) (hpending : s.transaction.isSome = true)
    (hheard : s.outbox.isOpen = true) :
    ∃ next : Context, next.id = c.id ∧ next.isSuspended = true ∧
      result.1 = .waiting (.resumption next.id event.isExit) ∧ result.2.active = s.active ∧
      result.2.context? next.id = some next := by
  cases h with
  | @mk _ _ _ _ next _ hmoved _ reason _ =>
      rw [suspend_eq _ (hmoved.stopped.trans hrunning)]
      dsimp only
      rw [hpending, hheard]
      exact ⟨next.halt, hmoved.id, rfl, rfl, rfl, context?_setContext_self _ next.halt⟩

end Hook

end Session

end ScriptDebugger
