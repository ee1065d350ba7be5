import ScriptDebugger.Proofs.Session.Notices
import ScriptDebugger.Proofs.Session.Objects

namespace ScriptDebugger

namespace Session

def here? (s : Session) : Option Location :=
  s.current?.bind Context.location?

def stopsAtMark (mark : Option Location) (b : Breakpoint) : Bool :=
  b.onModification && decide (mark = some b.location)

/-- Whether a write at a place marks its object: a watchpoint stands there, and none before it
stops because of the present mark. -/
def marks (mark : Option Location) (here : Location) : List Breakpoint → Bool
  | [] => false
  | b :: rest => decide (here = b.location) || (!stopsAtMark mark b && marks mark here rest)

theorem get?_trackWrite_other {owner other : ObjectId} (h : owner ≠ other) (here : Location)
    (watchers : List Breakpoint) (writes : Table ObjectId Location) :
    (trackWrite owner here watchers writes).2.get? other = writes.get? other := by
  induction watchers generalizing writes with
  | nil => rfl
  | cons b rest ih =>
      have hsame : (if here = b.location then writes.set owner here else writes).get? other =
          writes.get? other := by
        split
        · exact Table.get?_set_other writes here h
        · rfl
      generalize hwrites : (if here = b.location then writes.set owner here else writes) = writes'
        at hsame
      simp only [trackWrite, hwrites]
      split
      · exact hsame
      · exact (ih _).trans hsame

theorem get?_trackWrite_self (owner : ObjectId) (here : Location) (watchers : List Breakpoint)
    (writes : Table ObjectId Location) :
    (trackWrite owner here watchers writes).2.get? owner =
      if marks (writes.get? owner) here watchers then some here else writes.get? owner := by
  induction watchers generalizing writes with
  | nil => rfl
  | cons b rest ih =>
      rw [trackWrite, marks]
      by_cases hplace : here = b.location
      · simp only [hplace, if_true, decide_true, Bool.true_or]
        split
        · exact Table.get?_set_self _ _ _
        · rw [← hplace, ih, Table.get?_set_self, ite_self]
      · simp only [hplace, if_false, decide_false, Bool.false_or]
        cases hstops : stopsAtMark (writes.get? owner) b with
        | true =>
            have hcondition : (b.onModification &&
                decide (writes.get? owner = some b.location)) = true := hstops
            simp [hcondition]
        | false =>
            have hcondition : (b.onModification &&
                decide (writes.get? owner = some b.location)) = false := hstops
            simp only [hcondition, Bool.false_eq_true, if_false, Bool.not_false, Bool.true_and]
            exact ih writes

def enabledWatchers (s : Session) (property : String) : List Breakpoint :=
  (s.registry.watchersOf property).filter Breakpoint.isEnabled

def mark? (s : Session) (owner : ObjectId) (mark : Option Location) :
    Operation → Option Location
  | .hook (.write written property) =>
      if s.closed = false ∧ written = owner then
        s.here?.filter fun here => marks mark here (s.enabledWatchers property)
      else none
  | _ => none

/-- The mark of an object after operations. -/
def lastMark (s : Session) (owner : ObjectId) (mark : Option Location) :
    List Operation → Option Location
  | [] => mark
  | operation :: rest =>
      (s.after operation).lastMark owner ((s.mark? owner mark operation).or mark) rest

theorem mark?_eq_none {s : Session} (h : s.closed = true ∨ s.current? = none) (owner : ObjectId)
    (mark : Option Location) (operation : Operation) : s.mark? owner mark operation = none := by
  unfold mark?
  split
  · split
    · rename_i hwritten
      rcases h with hclosed | hnone
      · rw [hclosed] at hwritten
        cases hwritten.1
      · rw [here?, hnone]
        rfl
    · rfl
  · rfl

theorem get?_lastWrites_after (s : Session) (owner : ObjectId) (operation : Operation) :
    (s.after operation).lastWrites.get? owner =
      (s.mark? owner (s.lastWrites.get? owner) operation).or (s.lastWrites.get? owner) := by
  have hother := (s.objects_after operation).2.2
  cases operation with
  | hook event =>
      change (s.hook event).2.lastWrites.get? owner = _
      rcases s.objects_hook event with ⟨hidle, h⟩ | ⟨hopen, c, hcurrent, h⟩
      · rw [(objects_eq_iff.mp h).2.2, mark?_eq_none hidle]
        rfl
      · rw [(objects_eq_iff.mp h).2.2]
        cases event with
        | write written property =>
            by_cases howner : written = owner
            · subst howner
              simp only [writesAfter, mark?, here?, hopen, hcurrent, Option.bind_some]
              cases c.location? with
              | none => rfl
              | some here =>
                  change (trackWrite written here (s.enabledWatchers property)
                    s.lastWrites).2.get? written = _
                  rw [get?_trackWrite_self, Option.filter_some]
                  cases marks (s.lastWrites.get? written) here (s.enabledWatchers property) with
                  | true => rfl
                  | false => rfl
            · have hnone : s.mark? owner (s.lastWrites.get? owner)
                  (.hook (.write written property)) = none :=
                if_neg fun h => howner h.2
              rw [hnone, writesAfter]
              split
              · rfl
              · exact get?_trackWrite_other howner _ _ _
        | _ => rfl
  | _ =>
      rw [hother (by rintro event ⟨⟩)]
      rfl

theorem get?_lastWrites_run (s : Session) (owner : ObjectId) (operations : List Operation) :
    (s.run operations).lastWrites.get? owner =
      s.lastMark owner (s.lastWrites.get? owner) operations := by
  induction operations generalizing s with
  | nil => rfl
  | cons operation rest ih => rw [run_cons, ih, get?_lastWrites_after, lastMark]

theorem wait?_onRead {s : Session} {c : Context} (h : c.stopped = false)
    (htold : (s.transaction.isSome && s.outbox.isOpen) = true) (owner : ObjectId)
    (property : String) :
    (s.onRead c owner property).1.wait?.isSome =
      (s.enabledWatchers property).any fun b =>
        b.onAccess && decide (s.lastWrites.get? owner = some b.location) := by
  unfold onRead enabledWatchers
  cases s.lastWrites.get? owner with
  | none => simp [pass, returned, Progress.wait?]
  | some location =>
      have hplace : ∀ b : Breakpoint,
          (b.isEnabled && (b.onAccess && decide (some location = some b.location))) =
            (b.isEnabled && b.onAccess && decide (b.location = location)) := by
        intro b
        simp only [Bool.and_assoc, Option.some.injEq, @eq_comm _ location]
      dsimp only
      rw [List.any_filter]
      simp only [hplace]
      split
      · rename_i hany
        rw [s.wait?_suspend h, htold, hany]
      · rename_i hany
        exact (Bool.eq_false_iff.mpr hany).symm

/-- While the client waits to hear of a stop, reading an object stops just at the enabled access
watchpoints of the property that stand at the last mark of the object. -/
theorem read_waits_iff {settings : Settings} {host : Host} {heap : Heap}
    {operations : List Operation} {s : Session}
    (hrun : s = (opened settings host heap).run operations) (hopen : s.closed = false)
    (hcurrent : s.current?.isSome = true) (htransaction : s.transaction.isSome = true)
    (hqueue : s.outbox.isOpen = true) (owner : ObjectId) (property : String) :
    (s.hook (.read owner property)).1.wait?.isSome = true ↔
      ∃ b ∈ s.enabledWatchers property, b.onAccess = true ∧
        (opened settings host heap).lastMark owner none operations = some b.location := by
  have hmark : s.lastWrites.get? owner =
      (opened settings host heap).lastMark owner none operations := by
    rw [hrun]
    exact get?_lastWrites_run _ _ _
  obtain ⟨c, hc⟩ := Option.isSome_iff_exists.mp hcurrent
  have hgrounded : s.Grounded := .of_reached ⟨_, _, _, _, hrun⟩
  have hstopped : c.stopped = false :=
    hgrounded.stopped_eq hopen (hgrounded.current?_eq_some hc).2
  have htold : (s.transaction.isSome && s.outbox.isOpen) = true := by
    rw [htransaction, hqueue]
    rfl
  have hread : s.hook (.read owner property) = s.onRead c owner property := by
    rw [hook, hopen, hc]
    rfl
  rw [hread, wait?_onRead hstopped htold, List.any_eq_true, hmark]
  simp

def writtenTwice (watchpoints : List Breakpoint) : List Operation :=
  (watchpoints.map fun b => .breakpoints (.add b)) ++
    [.enterContext, .hook (.line "/a.js" 1), .hook (.write 0 "x"), .hook (.line "/a.js" 2),
      .hook (.write 0 "x"), .command "run -i 1"]

def writeWatch : Breakpoint where
  kind := .watch
  file := "/a.js"
  line := 1
  expression := some "x"
  onModification := true

def readWatch : Breakpoint where
  kind := .watch
  file := "/a.js"
  line := 2
  expression := some "x"
  onAccess := true

theorem read_waits_of_read_watch_first :
    let s := (opened {} (Host.ofTable none []) {}).run (writtenTwice [readWatch, writeWatch])
    s.closed = false ∧ s.current?.isSome = true ∧ s.transaction.isSome = true ∧
      s.outbox.isOpen = true ∧ (s.hook (.read 0 "x")).1.wait?.isSome = true := by
  intro s
  have hopen : s.closed = false := by decide +kernel
  have hcurrent : s.current?.isSome = true := by decide +kernel
  have htransaction : s.transaction.isSome = true := by decide +kernel
  have hqueue : s.outbox.isOpen = true := by decide +kernel
  have hstands : ∃ b ∈ s.enabledWatchers "x", b.onAccess = true ∧
      (opened {} (Host.ofTable none []) {}).lastMark 0 none
        (writtenTwice [readWatch, writeWatch]) = some b.location := by
    decide +kernel
  exact ⟨hopen, hcurrent, htransaction, hqueue,
    (read_waits_iff rfl hopen hcurrent htransaction hqueue 0 "x").mpr hstands⟩

/-- The second write is made where the reading watchpoint stands.  It is remembered only if that
watchpoint was set before the other one, which stops the write because of the first. -/
theorem order_of_watchpoints_matters :
    let start := opened {} (Host.ofTable none []) {}
    let s := start.run (writtenTwice [readWatch, writeWatch])
    let t := start.run (writtenTwice [writeWatch, readWatch])
    (s.hook (.read 0 "x")).1.wait?.isSome = true ∧
      (t.hook (.read 0 "x")).1.wait?.isSome = false := by
  decide +kernel

end Session

end ScriptDebugger
