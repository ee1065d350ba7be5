import ScriptDebugger.Proofs.Registry.History

namespace ScriptDebugger

namespace Breakpoint

/-- The breakpoint that an update makes of one.  A line is taken over only by kinds that stop at
one, and the access flags only by watchpoints. -/
def revised (b : Breakpoint) (u : BreakpointUpdate) : Breakpoint :=
  { b with
    state := u.state.getD b.state
    line := if b.kind.isLine then u.line.getD b.line else b.line
    hitValue := u.hitValue.getD b.hitValue
    hitCondition := u.hitCondition.or b.hitCondition
    expression := u.expression.or b.expression
    onAccess := if b.kind = .watch then (u.watchFlags.map Prod.fst).getD b.onAccess else b.onAccess
    onModification :=
      if b.kind = .watch then (u.watchFlags.map Prod.snd).getD b.onModification
      else b.onModification }

/-- What no update changes of a breakpoint. -/
structure SameSubject (old b : Breakpoint) : Prop where
  id : b.id = old.id
  kind : b.kind = old.kind
  file : b.file = old.file
  function : b.function = old.function
  exception : b.exception = old.exception
  temporary : b.temporary = old.temporary
  hitCount : b.hitCount = old.hitCount

theorem sameSubject_revised (b : Breakpoint) (u : BreakpointUpdate) :
    b.SameSubject (b.revised u) :=
  ⟨rfl, rfl, rfl, rfl, rfl, rfl, rfl⟩

theorem key?_congr {old b : Breakpoint} (h : old.SameSubject b) (hline : b.line = old.line) :
    b.key? = old.key? := by
  rw [key?, key?, location, location, h.kind, h.file, h.function, hline]

theorem Kind.ne_watch_of_isLine {kind : Kind} (h : kind.isLine = true) : kind ≠ .watch := by
  rintro rfl
  cases h

theorem Kind.ne_exception_of_isLine {kind : Kind} (h : kind.isLine = true) :
    kind ≠ .exception := by
  rintro rfl
  cases h

theorem watched?_of_ne {b : Breakpoint} (h : b.kind ≠ .watch) : b.watched? = none :=
  if_neg h

theorem key?_of_watch {b : Breakpoint} (h : b.kind = .watch) : b.key? = none := by
  rw [key?, h]

end Breakpoint

namespace Registry

open Breakpoint

/-- A breakpoint has become another one, and its place in the indexes has changed with it.  Nothing
else is different, but that the holder of a line is gone which the breakpoint has come to. -/
structure Exchanged (r : Registry) (old b : Breakpoint) (after : Registry) : Prop where
  others : ∀ other, other ≠ b.id →
    after.get? other =
      if b.kind.isLine ∧ r.lookup (.line b.location) = some other then none else r.get? other
  lookup : ∀ k, after.lookup k =
    if b.key? = some k then some b.id else if old.key? = some k then none else r.lookup k
  watchers : ∀ property, after.watchers property =
    if b.watched? = old.watched? then r.watchers property
    else if b.watched? = some property then r.watchers property ++ [b.id]
    else (r.watchers property).filter (· ≠ b.id)
  flags : after.flags = r.flags
  lastId : after.lastId = r.lastId

namespace Exchanged

variable {r : Registry} {old b c : Breakpoint}

theorem same (h : r.Consistent) (hget : r.get? b.id = some old) (hkey : b.key? = old.key?)
    (hwatched : b.watched? = old.watched?) : r.Exchanged old b r where
  others := by
    intro other hne
    rw [if_neg]
    rintro ⟨hline, hholder⟩
    have hown : r.lookup (.line b.location) = some b.id :=
      h.lookup_iff.mpr ⟨old, hget, hkey ▸ key?_of_isLine hline⟩
    exact hne (Option.some.inj (hholder.symm.trans hown))
  lookup := by
    intro k
    by_cases hk : b.key? = some k
    · rw [if_pos hk]
      exact h.lookup_iff.mpr ⟨old, hget, hkey ▸ hk⟩
    · rw [if_neg hk, if_neg (hkey ▸ hk)]
  watchers := by
    intro property
    rw [if_pos hwatched]
  flags := rfl
  lastId := rfl

theorem ofLine (h : r.Consistent) (hget : r.get? b.id = some old) (hline : b.kind.isLine = true)
    (hid : old.id = b.id) (hkind : old.kind = b.kind) :
    r.Exchanged old b ((r.unindex old).index b) := by
  have hne : b.kind ≠ .exception := Kind.ne_exception_of_isLine hline
  have hkey := key?_of_isLine hline
  have holdKey := key?_of_isLine (b := old) (hkind ▸ hline)
  have hlookup (k : Key) : (r.unindex old).lookup k =
      if old.key? = some k then none else r.lookup k := by
    rw [lookup_unindex]
    by_cases hk : old.key? = some k
    · have hown : r.lookup k = some old.id := h.lookup_iff.mpr ⟨old, hid ▸ hget, hk⟩
      rw [if_pos ⟨hk, hown⟩, if_pos hk]
    · rw [if_neg fun hboth => hk hboth.1, if_neg hk]
  constructor
  case others =>
    intro other hother
    have hdisplaced : (r.unindex old).displaced? b = some other ↔
        b.kind.isLine = true ∧ r.lookup (.line b.location) = some other := by
      rw [displaced?_eq_some_iff, hkey]
      constructor
      · rintro ⟨_, k, hk, hholder⟩
        cases hk
        rw [hlookup] at hholder
        exact ⟨hline, (Option.ite_none_left_eq_some.mp hholder).2⟩
      · rintro ⟨_, hholder⟩
        refine ⟨hother, _, rfl, ?_⟩
        rw [hlookup, if_neg, hholder]
        intro hk
        have hown : r.lookup (.line b.location) = some old.id :=
          h.lookup_iff.mpr ⟨old, hid ▸ hget, hk⟩
        exact hother (Option.some.inj (hholder.symm.trans (hown.trans (congrArg some hid))))
    rw [get?_index, get?_unindex]
    simp only [hdisplaced]
  case lookup =>
    intro k
    rw [lookup_index, hlookup]
  case watchers =>
    intro property
    have hwatched := watched?_of_key? hkey
    have holdWatched := watched?_of_key? holdKey
    rw [watchers_index, watchers_unindex, hwatched, holdWatched]
    rfl
  case flags =>
    rw [flags_index hne, flags_unindex_of_ne (hkind ▸ hne)]
  case lastId =>
    rw [lastId_index, lastId_unindex]

theorem ofWatch (h : r.Consistent) (hget : r.get? b.id = some old) (hid : old.id = b.id)
    (hwatch : b.kind = .watch) (hkind : old.kind = b.kind) (hmoved : b.watched? ≠ old.watched?) :
    r.Exchanged old b ((r.unindex old).index b) := by
  have hne : b.kind ≠ .exception := by
    rw [hwatch]
    decide
  have hkey := key?_of_watch hwatch
  have holdKey := key?_of_watch (hkind.trans hwatch)
  have hmem {property : String} : b.id ∈ r.watchers property ↔ old.watched? = some property := by
    rw [h.mem_watchers_iff, hget]
    simp
  constructor
  case others =>
    intro other hother
    have hnone : (r.unindex old).displaced? b = none := by
      rw [displaced?, hkey]
      rfl
    rw [get?_index, get?_unindex, hnone, if_neg (by simp), if_neg (by simp [hwatch, Kind.isLine])]
  case lookup =>
    intro k
    rw [lookup_index, lookup_unindex, hkey, holdKey]
    simp
  case watchers =>
    intro property
    rw [watchers_index, watchers_unindex, if_neg hmoved, hid]
    by_cases hnew : b.watched? = some property
    · have hold : old.watched? ≠ some property := fun hold => hmoved (hnew.trans hold.symm)
      rw [if_pos hnew, if_pos hnew, if_neg hold]
    · rw [if_neg hnew, if_neg hnew]
      by_cases hold : old.watched? = some property
      · rw [if_pos hold]
      · rw [if_neg hold]
        refine (List.filter_eq_self.mpr fun other hother => decide_eq_true ?_).symm
        exact ne_of_mem_of_not_mem hother fun hb => hold (hmem.mp hb)
  case flags =>
    rw [flags_index hne, flags_unindex_of_ne (hkind ▸ hne)]
  case lastId =>
    rw [lastId_index, lastId_unindex]

theorem put {after : Registry} (h : r.Exchanged old b after) :
    r.Exchanged old b (after.put b) where
  others := by
    intro other hne
    rw [get?_put, if_neg (Ne.symm hne)]
    exact h.others other hne
  lookup := h.lookup
  watchers := h.watchers
  flags := h.flags
  lastId := h.lastId

theorem congr {after : Registry} (h : r.Exchanged old b after) (hsame : b.SameSubject c)
    (hline : c.line = b.line) (hwatched : c.watched? = b.watched?) :
    r.Exchanged old c after := by
  have hlocation : c.location = b.location := by
    rw [location, location, hsame.file, hline]
  have hkey := key?_congr hsame hline
  constructor
  case others => simpa only [hsame.id, hsame.kind, hlocation] using h.others
  case lookup => simpa only [hkey, hsame.id] using h.lookup
  case watchers => simpa only [hwatched, hsame.id] using h.watchers
  case flags => exact h.flags
  case lastId => exact h.lastId

end Exchanged

theorem unindex_congr {old b : Breakpoint} (r : Registry) (hsame : old.SameSubject b)
    (hline : b.line = old.line) (hwatched : b.watched? = old.watched?) :
    r.unindex b = r.unindex old := by
  have hlocation : b.location = old.location := by
    rw [location, location, hsame.file, hline]
  simp only [unindex, hsame.kind, hsame.id, hsame.function, hlocation, hwatched]

namespace Consistent

variable {r : Registry} (h : r.Consistent) {old b : Breakpoint} (hget : r.get? b.id = some old)
  (hsame : old.SameSubject b) (hline : b.line = old.line)

include h hget hsame hline

theorem exchanged_updateLine (hkind : b.kind.isLine = true) (u : BreakpointUpdate) :
    (r.updateLine b u).1 = { b with line := u.line.getD b.line } ∧
      r.Exchanged old (r.updateLine b u).1 (r.updateLine b u).2 := by
  have hkey := key?_congr hsame hline
  have hunwatched : ∀ c : Breakpoint, c.kind.isLine = true → c.watched? = none := fun c hc =>
    watched?_of_key? (key?_of_isLine hc)
  have hold : old.kind.isLine = true := hsame.kind ▸ hkind
  have hwatched : b.watched? = old.watched? := (hunwatched b hkind).trans (hunwatched old hold).symm
  have hindexed : r.lines.get? b.location = some b.id :=
    h.lookup_iff (k := .line b.location).mpr ⟨old, hget, hkey ▸ key?_of_isLine hkind⟩
  unfold Registry.updateLine
  cases u.line with
  | none => exact ⟨rfl, .same h hget hkey hwatched⟩
  | some line =>
      simp only [hkind, if_true, Registry.moveLine, hindexed]
      refine ⟨rfl, ?_⟩
      rw [remove_line_eq_unindex hkind hindexed, r.unindex_congr hsame hline hwatched]
      exact .ofLine (b := { b with line := line }) h hget hkind hsame.id.symm hsame.kind.symm

theorem exchanged_updateExpression (hkind : b.kind = .watch)
    (hexpression : b.expression = old.expression) (u : BreakpointUpdate) :
    (r.updateExpression b u).1 =
        { b with
          expression := u.expression.or b.expression
          onAccess := (u.watchFlags.map Prod.fst).getD b.onAccess
          onModification := (u.watchFlags.map Prod.snd).getD b.onModification } ∧
      r.Exchanged old (r.updateExpression b u).1 (r.updateExpression b u).2 := by
  have hkey := key?_congr hsame hline
  have hwatched : b.watched? = old.watched? := by
    rw [watched?, watched?, hsame.kind, hexpression]
  have hflagged : ∀ access modification, r.Exchanged old
      { b with onAccess := access, onModification := modification } r := fun _ _ =>
    .same (b := { b with onAccess := _, onModification := _ }) h hget hkey hwatched
  have hmoved : ∀ access modification property,
      let flagged := { b with onAccess := access, onModification := modification }
      (r.moveWatch flagged property).1 = { flagged with expression := some property } ∧
        r.Exchanged old (r.moveWatch flagged property).1 (r.moveWatch flagged property).2 := by
    intro access modification property flagged
    unfold Registry.moveWatch
    split
    · rename_i hproperty
      refine ⟨?_, hflagged access modification⟩
      rw [← hproperty]
    · rename_i hproperty
      refine ⟨rfl, ?_⟩
      have hunindex : r.unindex flagged = r.unindex old :=
        r.unindex_congr (b := flagged)
          ⟨hsame.id, hsame.kind, hsame.file, hsame.function, hsame.exception, hsame.temporary,
            hsame.hitCount⟩ hline hwatched
      rw [hunindex]
      refine .ofWatch (b := { flagged with expression := some property }) h hget hsame.id.symm
        hkind hsame.kind.symm ?_
      rw [watched?, watched?, if_pos hkind, if_pos (hsame.kind ▸ hkind), ← hexpression]
      exact Ne.symm hproperty
  unfold Registry.updateExpression
  rw [if_pos hkind]
  cases u.watchFlags <;> cases u.expression
  · exact ⟨rfl, hflagged b.onAccess b.onModification⟩
  · exact hmoved b.onAccess b.onModification _
  · exact ⟨rfl, hflagged _ _⟩
  · exact hmoved _ _ _

end Consistent

theorem withPolicy_eq_error {b : Breakpoint} {u : BreakpointUpdate} {e : Error}
    (h : withPolicy b u = .error e) :
    (b.revised u).hitCondition = some .multiple ∧ (b.revised u).hitValue = 0 ∧
      e = .invalidHitCondition "%0" := by
  have hvalidate : (b.revised u).validate = .error e := by
    change ((b.revised u).validate >>= fun _ => _) = _ at h
    cases hpolicy : (b.revised u).validate with
    | ok value =>
        rw [hpolicy] at h
        cases h
    | error other =>
        rw [hpolicy] at h
        cases h
        rfl
  unfold validate at hvalidate
  split at hvalidate
  · rename_i hbad
    exact ⟨hbad.1, hbad.2, (Except.error.inj hvalidate).symm⟩
  · cases hvalidate

theorem update_eq_error {r : Registry} {id : Breakpoint.Id} {u : BreakpointUpdate} {e : Error}
    (hupdate : r.update id u = .error e) :
    (r.get? id = none ∧ e = .breakpointNotFound (Id.text id)) ∨
      ∃ old, r.get? id = some old ∧ (old.revised u).hitCondition = some .multiple ∧
        (old.revised u).hitValue = 0 ∧ e = .invalidHitCondition "%0" := by
  unfold update at hupdate
  cases hget : r.get? id with
  | none =>
      rw [hget] at hupdate
      exact .inl ⟨rfl, (Except.error.inj hupdate).symm⟩
  | some old =>
      rw [hget] at hupdate
      dsimp only at hupdate
      cases hpolicy : withPolicy old u with
      | ok changed =>
          rw [hpolicy] at hupdate
          cases hupdate
      | error other =>
          rw [hpolicy] at hupdate
          cases hupdate
          exact .inr ⟨old, rfl, withPolicy_eq_error hpolicy⟩

theorem Consistent.update_exchanged {r after : Registry} (h : r.Consistent) {b : Breakpoint}
    {id : Breakpoint.Id} {u : BreakpointUpdate} (hupdate : r.update id u = .ok (b, after)) :
    ∃ old, r.get? id = some old ∧ after.get? id = some b ∧ b = old.revised u ∧
      r.Exchanged old b after := by
  obtain ⟨old, changed, placed, middle, last, hget, hold, hpolicy, hid, hplace, _, hexpression,
    hb, rfl⟩ := h.update_stages hupdate
  obtain ⟨_, hchanged⟩ := withPolicy_eq_ok hpolicy
  have hstored : r.get? changed.id = some old := hid ▸ hget
  have hsame : old.SameSubject changed := by
    rw [hchanged]
    exact ⟨rfl, rfl, rfl, rfl, rfl, rfl, rfl⟩
  have hline : changed.line = old.line := by rw [hchanged]
  have hkept : changed.expression = old.expression := by rw [hchanged]
  suffices hresult : b = old.revised u ∧ r.Exchanged old b last from
    ⟨old, hget, hb ▸ get?_put_self last b, hresult.1, hresult.2.put⟩
  by_cases hkind : changed.kind.isLine = true
  · obtain ⟨hplaced, hexchanged⟩ := h.exchanged_updateLine hstored hsame hline hkind u
    rw [hplace] at hplaced hexchanged
    dsimp only at hplaced hexchanged
    have hwatch : placed.kind ≠ .watch := by
      rw [hplaced]
      exact Kind.ne_watch_of_isLine hkind
    rw [Registry.updateExpression, if_neg hwatch] at hexpression
    obtain ⟨rfl, rfl⟩ := Prod.mk.inj hexpression
    constructor
    · have hlineKind : old.kind.isLine = true := hsame.kind ▸ hkind
      have hother : old.kind ≠ .watch := Kind.ne_watch_of_isLine hlineKind
      rw [hplaced, hchanged, revised, if_pos hlineKind, if_neg hother, if_neg hother]
    · refine hexchanged.congr ⟨rfl, rfl, rfl, rfl, rfl, rfl, rfl⟩ rfl ?_
      exact Eq.trans (if_neg hwatch) (watched?_of_ne hwatch).symm
  · have hunmoved : r.updateLine changed u = (changed, r) := by
      unfold Registry.updateLine
      cases u.line with
      | none => rfl
      | some line => exact if_neg hkind
    have hlineKind : ¬old.kind.isLine = true := hsame.kind ▸ hkind
    obtain ⟨rfl, rfl⟩ := Prod.mk.inj (hunmoved.symm.trans hplace)
    by_cases hwatch : changed.kind = .watch
    · obtain ⟨hlast, hexchanged⟩ :=
        h.exchanged_updateExpression hstored hsame hline hwatch hkept u
      rw [hexpression] at hlast hexchanged
      refine ⟨?_, hexchanged⟩
      have hwatchKind : old.kind = .watch := hsame.kind ▸ hwatch
      rw [show b = _ from hlast, hchanged, revised, if_neg hlineKind, if_pos hwatchKind,
        if_pos hwatchKind]
    · rw [Registry.updateExpression, if_neg hwatch] at hexpression
      obtain ⟨rfl, rfl⟩ := Prod.mk.inj hexpression
      have hother : old.kind ≠ .watch := hsame.kind ▸ hwatch
      have hrevised : { changed with expression := u.expression.or changed.expression } =
          old.revised u := by
        rw [hchanged, revised, if_neg hlineKind, if_neg hother, if_neg hother]
      refine ⟨hrevised, ?_⟩
      rw [hrevised]
      have hunmovedLine : (old.revised u).line = old.line := if_neg hlineKind
      refine .same h (hold ▸ hget) (key?_congr (old.sameSubject_revised u) hunmovedLine) ?_
      exact Eq.trans (if_neg hother) (watched?_of_ne hother).symm

/-- An update that is refused changes nothing.  Any other one makes its breakpoint over and answers
with what is stored then; but for a line that is taken from another breakpoint, which is gone with
it, and for a watchpoint that goes to another property, the rest of the registry is as before. -/
theorem update_all_or_nothing (operations : List Operation) (id : Breakpoint.Id)
    (u : BreakpointUpdate) :
    (∀ e, (empty.run operations).update id u = .error e →
      (empty.run operations).after (.update id u) = empty.run operations ∧
        ((empty.run operations).get? id = none ∧ e = .breakpointNotFound (Id.text id) ∨
          ∃ old, (empty.run operations).get? id = some old ∧
            (old.revised u).hitCondition = some .multiple ∧ (old.revised u).hitValue = 0 ∧
              e = .invalidHitCondition "%0")) ∧
    ∀ b after, (empty.run operations).update id u = .ok (b, after) →
      (empty.run operations).after (.update id u) = after ∧ after.get? id = some b ∧
        ∃ old, (empty.run operations).get? id = some old ∧ old.SameSubject b ∧
          b = old.revised u ∧ (empty.run operations).Exchanged old b after := by
  have hconsistent := Consistent.empty.run operations
  constructor
  · intro e hupdate
    refine ⟨?_, update_eq_error hupdate⟩
    rw [Registry.after, hupdate]
    rfl
  · intro b after hupdate
    obtain ⟨old, hget, hstored, hb, hexchanged⟩ := hconsistent.update_exchanged hupdate
    refine ⟨?_, hstored, old, hget, hb ▸ old.sameSubject_revised u, hb, hexchanged⟩
    rw [Registry.after, hupdate]
    rfl

example :
    let first : Breakpoint := { kind := .line, file := "/a.js", line := 1 }
    let r := empty.run [.add first, .add { first with line := 2 }, .update 1 { line := some 2 }]
    r.list = [{ first with id := 1, line := 2 }] ∧ r.lookup (.line ⟨"/a.js", 2⟩) = some 1 := by
  decide +kernel

end Registry

end ScriptDebugger
