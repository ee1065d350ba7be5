import ScriptDebugger.Proofs.Session.Nesting
import ScriptDebugger.Proofs.Session.Verdict

namespace ScriptDebugger

def Wait.leaves : Wait → Bool
  | .start => false
  | .resumption _ leaving => leaving

namespace Session

/-- Whether an operation is none of the debuggee's own. -/
def Operation.isOutside : Operation → Bool
  | .hook _ | .awaitStart | .proceed _ | .enterContext | .exitContext _ | .mutate _ => false
  | _ => true

section Outside

variable {s : Session} {operation : Operation}

theorem frames_congr {other : Session} (h : other.stage = s.stage) : other.frames = s.frames := by
  rw [frames, frames, current?_congr h]

theorem frames_of_current (hs : s.Grounded) {c : Context} (hcurrent : s.current? = some c)
    (told : Session) (next : Context) (htold : told.active = s.active) (hid : next.id = c.id)
    (hframes : next.frames = c.frames) : (told.setContext next).frames = s.frames := by
  have hhead : told.active.head? = some next.id := by
    rw [htold, hid]
    exact (hs.current?_eq_some hcurrent).1
  rw [frames_setContext hhead, hframes, frames, hcurrent]

theorem frames_resume (hs : s.Grounded) (mode : StepMode) : (s.resume mode).frames = s.frames := by
  unfold resume
  split
  · rename_i c hfilter
    have hcurrent := (Option.filter_eq_some_iff.mp hfilter).1
    exact frames_of_current hs hcurrent s.markInitialized (c.resume mode) rfl rfl rfl
  · rfl

theorem frames_requestBreak (hs : s.Grounded) : s.requestBreak.2.frames = s.frames := by
  unfold requestBreak
  split
  · rename_i c hcurrent
    exact frames_of_current hs hcurrent s c.requestBreak rfl rfl rfl
  · rfl

theorem not_closed_close {told : Session} (h : told.close.closed = false) : False := by
  cases h.symm.trans told.closed_close

theorem frames_dispatch (hs : s.Grounded) {line : String}
    (hopen : (s.dispatch line).closed = false) : (s.dispatch line).frames = s.frames := by
  rcases s.dispatch_effect line with ⟨hsame, _⟩ | ⟨c, _, heffect⟩
  · exact congrArg frames hsame
  · generalize s.dispatch line = result at heffect hopen
    cases heffect with
    | resumed _ =>
        have hgrounded : (s.adopt c.transaction?).Grounded := hs.after (.adopt c.transaction?)
        exact (frames_resume hgrounded _).trans (frames_congr (stage_hidesTalk.adopt s _))
    | interrupted _ _ => exact frames_requestBreak hs
    | stopped _ => exact (not_closed_close hopen).elim
    | answered _ _ => rfl

/-- As long as the session is open, the client leaves the frames as they are, and so does the
program around the debuggee. -/
theorem frames_after_of_isOutside (hs : s.Grounded) (h : operation.isOutside = true)
    (hopen : (s.after operation).closed = false) : (s.after operation).frames = s.frames := by
  cases operation with
  | command line => exact frames_dispatch hs hopen
  | adopt transaction => exact frames_congr (stage_hidesTalk.adopt s transaction)
  | resume mode => exact frames_resume hs mode
  | requestBreak => exact frames_requestBreak hs
  | reportBreak reason => exact frames_congr (stage_hidesTalk.reportBreak s reason)
  | reportEnd => exact frames_congr (stage_hidesTalk.reportEnd s)
  | write stream text => exact frames_congr (stage_hidesTalk.write s stream text)
  | finish | close => exact (not_closed_close hopen).elim
  | hook _ | awaitStart | proceed _ | enterContext | exitContext _ | mutate _ => cases h
  | markInitialized | announce _ | addListener _ | removeListener _ | breakpoints _ | configure _
  | redirect _ | dropClient | collect => rfl

end Outside

section Reports

variable {s : Session} {c : Context} {event : Hook}

theorem framesAfter_eq (c : Context) (event : Hook) :
    event.framesAfter c =
      if event.isExit then (event.framesAt c).tail else event.framesAt c := by
  cases event with
  | _ => rfl

/-- What the frames are after a report, as it waits or has gone on. -/
structure Framed (c : Context) (event : Hook) (result : Progress × Session) : Prop where
  waits : ∀ wait, result.1 = .waiting wait →
    wait.leaves = event.isExit ∧ result.2.frames = event.framesAt c
  goes : result.1.wait? = none → result.2.frames = event.framesAfter c

theorem Framed.frames_of_stays {result : Progress × Session} (h : Framed c event result)
    (hstays : event.isExit = false) : result.2.frames = event.framesAt c := by
  obtain ⟨progress, told⟩ := result
  cases progress with
  | waiting wait => exact (h.waits wait rfl).2
  | returned outcome =>
      rw [h.goes rfl, framesAfter_eq, hstays]
      rfl

theorem Goes.framed (hcurrent : s.current? = some c) (hhead : s.active.head? = some c.id)
    {result : Progress × Session} (h : Goes s c event result) : Framed c event result := by
  cases h with
  | @mk registry entryStep lastWrites contexts hcontexts _ _ =>
      refine ⟨nofun, fun _ => ?_⟩
      rcases hcontexts with ⟨rfl, hsame⟩ | rfl
      · rw [hsame]
        change s.frames = c.frames
        rw [frames, hcurrent]
      · exact frames_setContext
          (s := { s with registry := registry, entryStep := entryStep, lastWrites := lastWrites })
          (c := { c with frames := event.framesAfter c }) hhead

theorem Asks.framed (hhead : s.active.head? = some c.id) (hrunning : c.stopped = false)
    {result : Progress × Session} (h : Asks s c event result) : Framed c event result := by
  cases h with
  | @mk registry entryStep lastWrites contexts next _ hmoved hframes reason _ =>
      let told : Session := { s with
        registry := registry
        entryStep := entryStep
        lastWrites := lastWrites
        contexts := contexts }
      have hset : ∀ last : Context, last.id = next.id →
          ((told.release .break (some reason) none).setContext last).frames = last.frames :=
        fun last hid => frames_setContext (by
          rw [hid, hmoved.id]
          exact hhead)
      rw [suspend_eq _ (hmoved.stopped.trans hrunning)]
      split
      · refine ⟨fun wait hwait => ?_, nofun⟩
        cases hwait
        exact ⟨rfl, (hset next.halt rfl).trans hframes⟩
      · refine ⟨nofun, fun _ => ?_⟩
        rw [framesAfter_eq, ← hframes]
        cases event.isExit with
        | true => exact hset next.released.pop rfl
        | false => exact hset next.released rfl

theorem framed_hook (hs : s.Grounded) (hopen : s.closed = false) (hcurrent : s.current? = some c)
    (event : Hook) : Framed c event (s.hook event) := by
  obtain ⟨hhead, hget⟩ := hs.current?_eq_some hcurrent
  rcases hook_goes_or_asks hopen hcurrent event with hgoes | hasks
  · exact hgoes.framed hcurrent hhead
  · exact hasks.framed hhead (hs.stopped_eq hopen hget)

end Reports

theorem settle_of_stays {s : Session} {wait : Wait} (h : wait.leaves = false) :
    (s.settle wait).2 = s := by
  cases wait with
  | start => exact s.settle_start
  | resumption id leaving =>
      obtain rfl : leaving = false := h
      simp only [settle]
      split
      · rfl
      · split
        · rfl
        · rfl

theorem settle_of_waits {s : Session} {wait next : Wait}
    (h : (s.settle wait).1 = .waiting next) : next = wait ∧ (s.settle wait).2 = s := by
  refine ⟨wait?_settle_eq (congrArg Progress.wait? h), ?_⟩
  cases wait with
  | start => exact s.settle_start
  | resumption id leaving =>
      simp only [settle] at h ⊢
      split at h
      · rfl
      · split at h
        · rfl
        · cases h

end Session

end ScriptDebugger
