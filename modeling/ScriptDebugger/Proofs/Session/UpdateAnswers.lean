import ScriptDebugger.Proofs.Session.BreakpointCommands
import ScriptDebugger.Proofs.Text.Trim

namespace ScriptDebugger

open Breakpoint

theorem Breakpoint.State.text_of_read {s : String} {state : State} (h : State.read s = .ok state) :
    state.text = Text.trim s := by
  dsimp only [State.read] at h
  split at h
  · rename_i hword
    cases h
    exact hword.symm
  · split at h
    · rename_i hword
      cases h
      exact hword.symm
    · cases h

theorem HitCondition.text_of_read {s : String} {condition : HitCondition}
    (h : HitCondition.read s = .ok condition) : condition.text = Text.trim s := by
  dsimp only [HitCondition.read] at h
  split at h
  · rename_i hword
    cases h
    exact hword.symm
  · split at h
    · rename_i hword
      cases h
      exact hword.symm
    · split at h
      · rename_i hword
        cases h
        exact hword.symm
      · cases h

theorem Breakpoint.key?_eq_line {b : Breakpoint} {location : Location}
    (h : b.key? = some (.line location)) : b.kind.isLine = true ∧ b.location = location := by
  unfold key? at h
  cases hkind : b.kind <;> rw [hkind] at h
  case line | conditional => exact ⟨rfl, by simpa using h⟩
  all_goals simp at h

namespace Registry

/-- A breakpoint stops at a location: at the line itself, or when an object is written there that
has the property of a watchpoint. -/
def TriggersAt (r : Registry) (id : Breakpoint.Id) (location : Location) : Prop :=
  r.lines.get? location = some id ∨
    ∃ property, ∃ b ∈ r.watchersOf property, b.id = id ∧ b.location = location

theorem Consistent.triggersAt_iff {r : Registry} (h : r.Consistent) {id : Breakpoint.Id}
    {b : Breakpoint} (hget : r.get? id = some b) {location : Location} :
    r.TriggersAt id location ↔
      (b.kind.isLine = true ∨ b.watched?.isSome = true) ∧ b.location = location := by
  constructor
  · rintro (hline | ⟨property, c, hmem, rfl, hlocation⟩)
    · obtain ⟨c, hc, hkey⟩ := h.lookup_iff (k := .line location).mp hline
      cases hget.symm.trans hc
      obtain ⟨hkind, hlocation⟩ := key?_eq_line hkey
      exact ⟨.inl hkind, hlocation⟩
    · obtain ⟨id, hid, hc⟩ := List.mem_filterMap.mp hmem
      obtain ⟨d, hd, hwatched⟩ := h.mem_watchers_iff.mp hid
      cases hc.symm.trans hd
      rw [h.id_eq hc] at hget
      cases hget.symm.trans hc
      exact ⟨.inr (Option.isSome_of_eq_some hwatched), hlocation⟩
  · rintro ⟨hkind | hwatched, rfl⟩
    · exact .inl (h.lookup_iff.mpr ⟨b, hget, key?_of_isLine hkind⟩)
    · obtain ⟨property, hproperty⟩ := Option.isSome_iff_exists.mp hwatched
      have hmem : id ∈ r.watchers property := h.mem_watchers_iff.mpr ⟨b, hget, hproperty⟩
      exact .inr ⟨property, b, List.mem_filterMap.mpr ⟨id, hmem, hget⟩, h.id_eq hget, rfl⟩

end Registry

namespace Session

def shownExpression? (e : Element) : Option String :=
  e.content.findSome? fun
    | .element "expression" _ [.payload text] => some text
    | _ => none

/-- What a breakpoint of a kind shows of a text that was given as its expression.  That of a
watchpoint is a property, blanks aside, and two flags. -/
def Expresses (kind : Kind) (text shown : String) : Prop :=
  if kind = .watch then
    ∃ property access modification, text.toList = property ++ [access, modification] ∧
      shown = String.ofList (Text.trimChars property) ++ (if access = '1' then "1" else "0") ++
        (if modification = '1' then "1" else "0")
  else shown = text

structure ShowsUpdate (c : Command) (kind : Kind) (e : Element) : Prop where
  state : ∀ value, c.option? "s" = some value → e.attribute? "state" = some (Text.trim value)
  hitValue : ∀ value, c.option? "h" = some value →
    ∃ n, Text.readNumeral? Text.bound32 (Text.trim value).toList = some n ∧
      e.attribute? "hit_value" = some (Text.numeral n)
  hitCondition : ∀ value, c.option? "o" = some value →
    e.attribute? "hit_condition" = some (Text.trim value)
  expression : ∀ payload, c.data = some payload →
    ∃ text shown, Payload.decode payload = .ok text ∧ shownExpression? e = some shown ∧
      Expresses kind text shown

theorem shownExpression?_breakpointElement {b : Breakpoint} {expression : String}
    (h : b.expression = some expression) :
    shownExpression? (breakpointElement b) = some (expressionText b expression) := by
  rw [shownExpression?, breakpointElement, h]
  rfl

theorem expresses_of_read {text : String} {target : WatchTarget}
    (h : WatchTarget.read text = .ok target) : Expresses .watch text target.text := by
  obtain ⟨property, access, modification, _, htext, rfl⟩ := WatchTarget.read_eq_ok_iff.mp h
  exact ⟨property, access, modification, htext, by simp [WatchTarget.text]⟩

theorem decode_of_data {c : Command} {payload : String} {result : Option String}
    (hdata : c.data = some payload) (h : c.decodedData? = .ok result) :
    ∃ text, Payload.decode payload = .ok text ∧ result = some text := by
  rw [Command.decodedData?, hdata] at h
  obtain ⟨text, hdecode, hresult⟩ := map_eq_ok.mp h
  exact ⟨text, hdecode, hresult.symm⟩

theorem UpdateRead.showsUpdate {c : Command} {old : Breakpoint} {u : BreakpointUpdate}
    (h : UpdateRead c old.kind u) : ShowsUpdate c old.kind (breakpointElement (old.revised u)) where
  state := by
    intro value hoption
    obtain ⟨state, hstate, hread⟩ := Command.read?_of_option? h.state hoption
    have htext := State.text_of_read (eq_ok_of_toOption hread)
    change some (u.state.getD old.state).text = _
    rw [hstate, Option.getD_some, htext, Text.trim_trim]
  hitValue := by
    intro value hoption
    obtain ⟨n, hn, hread⟩ := Command.read?_of_option? h.hitValue hoption
    refine ⟨n, hread, ?_⟩
    rw [attribute?_hitValue, revised, hn, Option.getD_some]
  hitCondition := by
    intro value hoption
    obtain ⟨condition, hcondition, hread⟩ := Command.read?_of_option? h.hitCondition hoption
    have htext := HitCondition.text_of_read (eq_ok_of_toOption hread)
    rw [attribute?_hitCondition, revised, hcondition, Option.some_or, Option.getD_some, htext,
      Text.trim_trim]
  expression := by
    intro payload hpayload
    cases h.expression with
    | absent hdata =>
        obtain ⟨text, _, hnone⟩ := decode_of_data hpayload hdata
        cases hnone
    | @watch text target hdata hkind htarget hexpression hflags =>
        obtain ⟨decoded, hdecode, hsome⟩ := decode_of_data hpayload hdata
        cases hsome
        have hrevised : (old.revised u).expression = some target.property := by
          rw [revised, hexpression, Option.some_or]
        refine ⟨text, _, hdecode, shownExpression?_breakpointElement hrevised, ?_⟩
        have hshown : expressionText (old.revised u) target.property = target.text := by
          rw [expressionText, revised, if_pos hkind, if_pos hkind, if_pos hkind, hflags]
          rfl
        rw [hshown, hkind]
        exact expresses_of_read htarget
    | @other text hdata hkind hexpression _ =>
        obtain ⟨decoded, hdecode, hsome⟩ := decode_of_data hpayload hdata
        cases hsome
        have hrevised : (old.revised u).expression = some text := by
          rw [revised, hexpression, Option.some_or]
        refine ⟨text, _, hdecode, shownExpression?_breakpointElement hrevised, ?_⟩
        rw [Expresses, if_neg hkind]
        exact if_neg hkind

theorem updated_of_succeeds {s : Session} {line : String} {c : Command} {id : Breakpoint.Id}
    {old : Breakpoint} (hparse : Command.parse line = .ok c)
    (hname : c.name = "breakpoint_update") (hid : targetId c = .ok id)
    (hget : s.registry.get? id = some old) (hsuccess : s.succeeds line = true) :
    ∃ u b registry, UpdateRead c old.kind u ∧ s.registry.update id u = .ok (b, registry) ∧
      (s.dispatch line).registry = registry := by
  have hends := breakpointUpdateCommand_effect s c
  rw [← obey_of_name hname rfl] at hends
  unfold succeeds at hsuccess
  rcases dispatch_of_ends hparse hends with hsame | heffect
  · rw [sent, show s.after (.command line) = s from hsame, List.drop_length] at hsuccess
    cases hsuccess
  · generalize hdispatch : s.dispatch line = after at heffect
    cases heffect with
    | refused e =>
        rw [sent_of_dispatch hdispatch rfl] at hsuccess
        split at hsuccess
        · simp [attribute?_success_errorAnswer] at hsuccess
        · cases hsuccess
    | updated hchanged hold hread hupdate =>
        cases hid.symm.trans hchanged
        cases hget.symm.trans hold
        exact ⟨_, _, _, readUpdate_eq_ok hread, hupdate, rfl⟩

/-- A successful update took effect.  Whoever asks for the breakpoint is shown each value that was
given, and the breakpoint is hit at the place that is shown.  A line that was given is the line of
the place only if the breakpoint stops at lines. -/
theorem update_takes_effect {s : Session} (h : s.Tended) {line : String} {c : Command}
    {id : Breakpoint.Id} {old : Breakpoint} (hparse : Command.parse line = .ok c)
    (hname : c.name = "breakpoint_update") (hid : targetId c = .ok id)
    (hget : s.registry.get? id = some old) (hfile : old.file ≠ "")
    (hsuccess : s.succeeds line = true) :
    ∃ e place, (s.dispatch line).Presents id e ∧ ShowsUpdate c old.kind e ∧
      e.attribute? "filename" = some (Text.toFileUri old.file) ∧
      e.attribute? "lineno" = some (Text.numeral place) ∧
      (if old.kind.isLine then
          ∀ value, c.option? "n" = some value →
            Text.readNumeral? Text.bound32 (Text.trim value).toList = some place
        else place = old.line) ∧
      (old.kind.isLine = true ∨ old.kind = .watch →
        ∀ location, (s.dispatch line).registry.TriggersAt id location ↔
          location = ⟨old.file, place⟩) := by
  have hafter : (s.dispatch line).registry.Consistent :=
    (h.reached.after (.command line)).consistent.1
  obtain ⟨u, b, registry, hread, hupdate, hregistry⟩ :=
    updated_of_succeeds hparse hname hid hget hsuccess
  obtain ⟨stored, hold, hb, rfl, _⟩ := h.reached.consistent.1.update_exchanged hupdate
  cases hget.symm.trans hold
  rw [← hregistry] at hb
  obtain ⟨hfilename, hlineno⟩ := attribute?_place (b := old.revised u) hfile
  refine ⟨_, _, presents_of_get? hb, hread.showsUpdate, hfilename, hlineno, ?_, ?_⟩
  · rw [revised]
    split
    · intro value hoption
      obtain ⟨n, hn, hnumeral⟩ := Command.read?_of_option? hread.line hoption
      rw [hn]
      exact hnumeral
    · rfl
  · intro hkind location
    have htriggers : (old.revised u).kind.isLine = true ∨
        (old.revised u).watched?.isSome = true := by
      refine hkind.imp_right fun hwatch => ?_
      have hexpression := h.isSome_expression_of_watch hget hwatch
      rw [watched?, if_pos (show (old.revised u).kind = .watch from hwatch), revised,
        Option.isSome_or, hexpression, Bool.or_true]
    rw [hafter.triggersAt_iff hb]
    exact ⟨fun h => h.2.symm, fun h => ⟨htriggers, h.symm⟩⟩

theorem update_takes_effect_moved :
    let s := (opened {} (Host.ofTable none []) {}).run
      [.command "breakpoint_set -i 1 -t line -f /a.js -n 1"]
    let line := "breakpoint_update -i 2 -d 1 -s disabled -n 5"
    ∃ e, (s.dispatch line).Presents 1 e ∧ e.attribute? "state" = some "disabled" ∧
      e.attribute? "lineno" = some "5" ∧
      ∀ location, (s.dispatch line).registry.TriggersAt 1 location ↔ location = ⟨"/a.js", 5⟩ := by
  intro s line
  have hs : s.Tended := ⟨_, _, _, _, by simp [Operation.SparesBreakpoints], rfl⟩
  have hparse : Command.parse line = .ok ⟨"breakpoint_update",
      [("n", "5"), ("s", "disabled"), ("d", "1"), ("i", "2")], none⟩ :=
    Command.parse_eq_ok (by decide +kernel)
  have hget : s.registry.get? 1 = some { id := 1, kind := .line, file := "/a.js", line := 1 } := by
    decide +kernel
  obtain ⟨e, place, hpresents, hshows, _, hlineno, hplace, htriggers⟩ :=
    update_takes_effect hs hparse rfl (by decide +kernel) hget (by decide) (by decide +kernel)
  have hfive : Text.readNumeral? Text.bound32 (Text.trim "5").toList = some 5 := by decide +kernel
  obtain rfl : 5 = place := Option.some.inj (hfive.symm.trans (hplace "5" rfl))
  have htext : Text.numeral 5 = "5" := by decide +kernel
  exact ⟨e, hpresents, hshows.state "disabled" (by decide +kernel), htext ▸ hlineno,
    htriggers (.inl rfl)⟩

/-- A watchpoint keeps its line, although the client that gives it another hears of a success. -/
theorem line_of_watchpoint_ignored :
    let s := (opened {} (Host.ofTable none []) {}).run
      [.command "breakpoint_set -i 1 -t watch -f /a.js -n 1 -- eDEw"]
    let line := "breakpoint_update -i 2 -d 1 -n 5"
    s.succeeds line = true ∧
      ∃ e, (s.dispatch line).Presents 1 e ∧ e.attribute? "lineno" = some "1" := by
  intro s line
  have hget : (s.dispatch line).registry.get? 1 =
      some { id := 1, kind := .watch, file := "/a.js", line := 1, expression := some "x",
             onAccess := true } := by
    decide +kernel
  exact ⟨by decide +kernel, _, presents_of_get? hget, by decide +kernel⟩

end Session

end ScriptDebugger
