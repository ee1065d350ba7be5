import Mathlib.Data.List.Induction
import ScriptDebugger.Context

/-!
The thread of the debuggee and the calls of others, one at a time.  The thread asks to wait in a
context, and looks again and again whether its wait is over; between any two of its steps others
resume the context, stop it or ask it for a break.  No call that ends the wait is lost, and none
makes the thread wait again.
-/

namespace ScriptDebugger

namespace Context

theorem run_moveTo (c : Context) (file : String) (line : Nat) :
    (c.moveTo file line).run = c.run := by
  unfold moveTo
  split
  · rfl
  · rfl

theorem stopped_moveTo (c : Context) (file : String) (line : Nat) :
    (c.moveTo file line).stopped = c.stopped := by
  unfold moveTo
  split
  · rfl
  · rfl

theorem run_takePendingStop (c : Context) : c.takePendingStop.2.run = c.run := by
  unfold takePendingStop
  split
  · rfl
  · rfl

theorem stopped_takePendingStop (c : Context) : c.takePendingStop.2.stopped = c.stopped := by
  unfold takePendingStop
  split
  · rfl
  · rfl

/-- A context with the thread that runs in it: whether it waits, the notices that it gave with
whether they were heard, and how its attempts to wait ended. -/
structure Monitor where
  context : Context
  waiting : Bool := false
  notices : List Bool := []
  outcomes : List (Except Error Unit) := []

namespace Monitor

inductive Act where
  | suspend (heard : Bool)
  | look
  | push (f : Frame)
  | pop
  | moveTo (file : String) (line : Nat)
  | takePendingStop
  | resume (mode : StepMode)
  | stop
  | requestBreak
  deriving DecidableEq

namespace Act

def suspends : Act → Bool
  | .suspend _ => true
  | _ => false

def releases : Act → Bool
  | .resume _ | .stop => true
  | _ => false

end Act

/-- The thread does nothing but look while it waits; the others call at any time. -/
def Admits (m : Monitor) : Act → Prop
  | .suspend _ | .push _ | .pop | .moveTo _ _ | .takePendingStop => m.waiting = false
  | .look => m.waiting = true
  | .resume _ | .stop | .requestBreak => True

def returned (m : Monitor) (outcome : Except Error Unit) : Monitor :=
  { m with waiting := false, outcomes := m.outcomes ++ [outcome] }

def look (m : Monitor) : Monitor :=
  match m.context.outcome? with
  | none => m
  | some outcome => m.returned outcome

def suspend (m : Monitor) (heard : Bool) : Monitor :=
  let ((suspension, context), notices) :=
    m.context.suspend (fun notices => (heard, notices ++ [heard])) m.notices
  let m := { m with context := context, notices := notices }
  match suspension with
  | .terminated => m.returned (.error .terminated)
  | .passed => m.returned (.ok ())
  | .waiting => { m with waiting := true }

def after (m : Monitor) : Act → Monitor
  | .suspend heard => m.suspend heard
  | .look => m.look
  | .push f => { m with context := m.context.push f }
  | .pop => { m with context := m.context.pop }
  | .moveTo file line => { m with context := m.context.moveTo file line }
  | .takePendingStop => { m with context := m.context.takePendingStop.2 }
  | .resume mode => { m with context := m.context.resume mode }
  | .stop => { m with context := m.context.stop }
  | .requestBreak => { m with context := m.context.requestBreak }

def run (m : Monitor) (acts : List Act) : Monitor :=
  acts.foldl after m

def AllAdmitted (m : Monitor) : List Act → Prop
  | [] => True
  | act :: rest => m.Admits act ∧ (m.after act).AllAdmitted rest

def opened (id : ContextId) : Monitor where
  context := { id := id }

variable {m : Monitor} {act : Act} {acts calls : List Act}

theorem run_append (m : Monitor) (first second : List Act) :
    m.run (first ++ second) = (m.run first).run second :=
  List.foldl_append

theorem allAdmitted_append {first second : List Act} :
    m.AllAdmitted (first ++ second) ↔ m.AllAdmitted first ∧ (m.run first).AllAdmitted second := by
  induction first generalizing m with
  | nil => exact (true_and _).to_iff.symm
  | cons act rest ih =>
      rw [List.cons_append, AllAdmitted, AllAdmitted, ih, and_assoc]
      rfl

theorem suspend_of_stopped (h : m.context.stopped = true) (heard : Bool) :
    m.suspend heard = m.returned (.error .terminated) := by
  rw [suspend, Context.suspend_of_stopped h]

theorem suspend_unheard (h : m.context.stopped = false) :
    m.suspend false =
      { m with
        context := { m.context.halt with run := .running }
        notices := m.notices ++ [false] }.returned (.ok ()) := by
  simp only [suspend, Context.suspend, h, Bool.false_eq_true, if_false]

theorem suspend_heard (h : m.context.stopped = false) :
    m.suspend true =
      { m with context := m.context.halt, notices := m.notices ++ [true], waiting := true } := by
  simp only [suspend, Context.suspend, h, Bool.false_eq_true, if_false]

theorem context_returned (m : Monitor) (outcome : Except Error Unit) :
    (m.returned outcome).context = m.context := rfl

theorem context_look (m : Monitor) : m.look.context = m.context := by
  unfold look
  split
  · rfl
  · rfl

theorem stopped_after : (m.after act).context.stopped = true ↔
    m.context.stopped = true ∨ act = .stop := by
  have hkept : ∀ {next : Context}, next.stopped = m.context.stopped → act ≠ .stop →
      (next.stopped = true ↔ m.context.stopped = true ∨ act = .stop) := by
    intro next hsame hact
    rw [hsame, or_iff_left hact]
  cases act with
  | suspend heard =>
      refine hkept ?_ nofun
      cases hstopped : m.context.stopped with
      | true => rw [after, suspend_of_stopped hstopped, context_returned, hstopped]
      | false =>
          cases heard with
          | true =>
              rw [after, suspend_heard hstopped]
              exact hstopped
          | false =>
              rw [after, suspend_unheard hstopped]
              exact hstopped
  | look => exact hkept (congrArg Context.stopped m.context_look) nofun
  | moveTo file line => exact hkept (m.context.stopped_moveTo file line) nofun
  | takePendingStop => exact hkept m.context.stopped_takePendingStop nofun
  | stop => exact iff_of_true rfl (.inr rfl)
  | push _ | pop | resume _ | requestBreak => exact hkept rfl nofun

theorem stopped_run : (m.run acts).context.stopped = true ↔
    m.context.stopped = true ∨ .stop ∈ acts := by
  induction acts generalizing m with
  | nil => simp [run]
  | cons act rest ih =>
      change ((m.after act).run rest).context.stopped = true ↔ _
      rw [ih, stopped_after, or_assoc, List.mem_cons, eq_comm (a := act)]

theorem isSuspended_after (h : act.suspends = false) :
    (m.after act).context.isSuspended = (m.context.isSuspended && !act.releases) := by
  have hkept : ∀ {next : Context}, next.run = m.context.run →
      next.isSuspended = (m.context.isSuspended && true) := by
    intro next hsame
    rw [Bool.and_true, isSuspended, isSuspended, hsame]
  cases act with
  | suspend heard => cases h
  | look => exact hkept (congrArg Context.run m.context_look)
  | moveTo file line => exact hkept (m.context.run_moveTo file line)
  | takePendingStop => exact hkept m.context.run_takePendingStop
  | resume _ | stop => exact (Bool.and_false _).symm
  | push _ | pop | requestBreak => exact hkept rfl

theorem isSuspended_run (h : ∀ act ∈ acts, act.suspends = false) :
    (m.run acts).context.isSuspended = (m.context.isSuspended && acts.all fun act => !act.releases)
    := by
  induction acts generalizing m with
  | nil => exact (Bool.and_true _).symm
  | cons act rest ih =>
      obtain ⟨hact, hrest⟩ := List.forall_mem_cons.mp h
      change ((m.after act).run rest).context.isSuspended = _
      rw [ih hrest, isSuspended_after hact, List.all_cons, Bool.and_assoc]

theorem waiting_after (h : act.suspends = false) (hlook : act ≠ .look) :
    (m.after act).waiting = m.waiting ∧ (m.after act).outcomes = m.outcomes := by
  cases act with
  | suspend heard => cases h
  | look => exact absurd rfl hlook
  | _ => exact ⟨rfl, rfl⟩

/-! A wait.  Its end depends on the calls since it began, and not on their order. -/

def ending (calls : List Act) : Except Error Unit :=
  if .stop ∈ calls then .error .terminated else .ok ()

structure Waits (m : Monitor) : Prop where
  waiting : m.waiting = true
  suspended : m.context.isSuspended = true
  stopped : m.context.stopped = false

namespace Waits

theorem outcome?_run (h : m.Waits) (hcalls : ∀ act ∈ calls, act.suspends = false) :
    (m.run calls).context.outcome? =
      if ∃ act ∈ calls, act.releases = true then some (ending calls) else none := by
  have hsuspended := isSuspended_run (m := m) hcalls
  rw [h.suspended, Bool.true_and] at hsuspended
  by_cases hstop : .stop ∈ calls
  · have hstopped : (m.run calls).context.stopped = true := stopped_run.mpr (.inr hstop)
    rw [outcome?, if_pos hstopped, if_pos ⟨.stop, hstop, rfl⟩, ending, if_pos hstop]
  · have hstopped : ¬(m.run calls).context.stopped = true := by
      rw [stopped_run, h.stopped]
      exact fun h => h.elim nofun hstop
    rw [outcome?, if_neg hstopped, hsuspended, ending, if_neg hstop]
    by_cases hreleased : ∃ act ∈ calls, act.releases = true
    · rw [if_pos hreleased, if_neg]
      simpa using hreleased
    · rw [if_neg hreleased, if_pos]
      simpa using hreleased

theorem look_run (h : m.Waits) (hcalls : ∀ act ∈ calls, act.suspends = false) :
    (m.run calls).look =
      if ∃ act ∈ calls, act.releases = true then (m.run calls).returned (ending calls)
      else m.run calls := by
  rw [look, h.outcome?_run hcalls]
  by_cases hreleased : ∃ act ∈ calls, act.releases = true
  · rw [if_pos hreleased, if_pos hreleased]
  · rw [if_neg hreleased, if_neg hreleased]

/-- The thread waits until it looks after a call that ends the wait. -/
theorem run (h : m.Waits) (hcalls : ∀ act ∈ calls, act.suspends = false)
    (hadmitted : m.AllAdmitted calls) :
    ((m.run calls).waiting = true ∧ (m.run calls).outcomes = m.outcomes) ∨
      ((m.run calls).waiting = false ∧ ∃ before rest, calls = before ++ .look :: rest ∧
        (∃ act ∈ before, act.releases = true) ∧
        (m.run calls).outcomes = m.outcomes ++ [ending before]) := by
  induction calls using List.reverseRecOn with
  | nil => exact .inl ⟨h.waiting, rfl⟩
  | append_singleton calls act ih =>
      obtain ⟨hfirst, hlast⟩ := List.forall_mem_append.mp hcalls
      have hact := hlast act (List.mem_singleton_self act)
      obtain ⟨hbefore, hadmits, _⟩ := allAdmitted_append.mp hadmitted
      have hnext : m.run (calls ++ [act]) = (m.run calls).after act := run_append m calls [act]
      rw [hnext]
      rcases ih hfirst hbefore with ⟨hwaiting, hsame⟩ | ⟨hreturned, before, rest, rfl, hreleased, hend⟩
      · by_cases hlook : act = .look
        · have hlooked := (congrArg (m.run calls).after hlook).trans (h.look_run hfirst)
          by_cases hreleased : ∃ act ∈ calls, act.releases = true
          · rw [hlooked, if_pos hreleased, hlook]
            exact .inr ⟨rfl, calls, [], rfl, hreleased, congrArg (· ++ [ending calls]) hsame⟩
          · rw [hlooked, if_neg hreleased]
            exact .inl ⟨hwaiting, hsame⟩
        · obtain ⟨hkept, houtcomes⟩ := waiting_after (m := m.run calls) hact hlook
          exact .inl ⟨hkept.trans hwaiting, houtcomes.trans hsame⟩
      · have hlook : act ≠ .look := by
          rintro rfl
          cases hreturned.symm.trans hadmits
        obtain ⟨hkept, houtcomes⟩ := waiting_after (m := m.run _) hact hlook
        refine .inr ⟨hkept.trans hreturned, before, rest ++ [act], ?_, hreleased,
          houtcomes.trans hend⟩
        rw [List.append_assoc, List.cons_append]

end Waits

/-- How a wait stands after calls: when it is over, and what the thread returns. -/
structure Course (outcomes : List (Except Error Unit)) (calls : List Act) (z : Monitor) : Prop where
  unreleased : z.context.outcome? = none ↔ ∀ act ∈ calls, act.releases = false
  terminated : z.context.outcome? = some (.error .terminated) ↔ .stop ∈ calls
  waits : z.waiting = true → z.outcomes = outcomes ∧
    ((∃ act ∈ calls, act.releases = true) → z.after .look = z.returned (ending calls))
  returned : z.waiting = false → ∃ before rest, calls = before ++ .look :: rest ∧
    (∃ act ∈ before, act.releases = true) ∧ z.outcomes = outcomes ++ [ending before]

theorem Waits.course (h : m.Waits) (hcalls : ∀ act ∈ calls, act.suspends = false)
    (hadmitted : m.AllAdmitted calls) : Course m.outcomes calls (m.run calls) := by
  have hend := h.outcome?_run hcalls
  have hrun := h.run hcalls hadmitted
  constructor
  case unreleased =>
    rw [hend]
    split
    · rename_i hreleased
      simpa using hreleased
    · rename_i hreleased
      simpa using hreleased
  case terminated =>
    rw [hend, ending]
    by_cases hstop : .stop ∈ calls
    · rw [if_pos ⟨.stop, hstop, rfl⟩, if_pos hstop]
      exact iff_of_true rfl hstop
    · rw [if_neg hstop]
      refine iff_of_false ?_ hstop
      split
      · nofun
      · nofun
  case waits =>
    intro hwaiting
    refine ⟨?_, fun hreleased => (h.look_run hcalls).trans (if_pos hreleased)⟩
    rcases hrun with ⟨_, hsame⟩ | ⟨hreturned, _⟩
    · exact hsame
    · cases hwaiting.symm.trans hreturned
  case returned =>
    intro hreturned
    rcases hrun with ⟨hwaiting, _⟩ | ⟨_, hlast⟩
    · cases hwaiting.symm.trans hreturned
    · exact hlast

/-- Whatever came before, a thread that asks to wait fails if the context was stopped, goes on if
nobody hears of it, and waits otherwise.  Then it waits as long as no call ends the wait.  After
such a call the wait is over whatever calls come next, and the first time that the thread looks it
returns: it fails if a stop was among the calls, and only then. -/
theorem waits_until_released (id : ContextId) (acts : List Act) :
    let m := (opened id).run acts
    (.stop ∈ acts → ∀ heard, m.after (.suspend heard) = m.returned (.error .terminated)) ∧
    (.stop ∉ acts →
      (let y := m.after (.suspend false)
       y.waiting = false ∧ y.context.run = .running ∧ y.notices = m.notices ++ [false] ∧
         y.outcomes = m.outcomes ++ [.ok ()]) ∧
      let y := m.after (.suspend true)
      y.waiting = true ∧ y.notices = m.notices ++ [true] ∧ y.outcomes = m.outcomes ∧
        ∀ calls : List Act, (∀ act ∈ calls, act.suspends = false) → y.AllAdmitted calls →
          Course m.outcomes calls (y.run calls)) := by
  intro m
  have hstopped : m.context.stopped = true ↔ .stop ∈ acts :=
    stopped_run.trans (or_iff_right Bool.false_ne_true)
  refine ⟨fun hstop => suspend_of_stopped (hstopped.mpr hstop), fun hstop => ?_⟩
  have hrunning : m.context.stopped = false :=
    Bool.eq_false_iff.mpr fun h => hstop (hstopped.mp h)
  have hunheard : m.after (.suspend false) = _ := suspend_unheard hrunning
  have hheard : m.after (.suspend true) = _ := suspend_heard hrunning
  rw [hunheard, hheard]
  refine ⟨⟨rfl, rfl, rfl, rfl⟩, rfl, rfl, rfl, fun calls hcalls hadmitted => ?_⟩
  have hwaits : ({ m with
      context := m.context.halt, notices := m.notices ++ [true], waiting := true }).Waits :=
    ⟨rfl, rfl, hrunning⟩
  exact hwaits.course hcalls hadmitted

theorem waits_until_released_overtaken :
    let m := (opened 1).run [.suspend false, .moveTo "/a.js" 1]
    let y := m.after (.suspend true)
    let calls : List Act := [.look, .requestBreak, .resume .over, .requestBreak, .stop, .look]
    .stop ∉ ([.suspend false, .moveTo "/a.js" 1] : List Act) ∧ y.waiting = true ∧
      y.AllAdmitted calls ∧ (y.run calls).waiting = false ∧
      ∃ before rest, calls = before ++ .look :: rest ∧ (∃ act ∈ before, act.releases = true) ∧
        (y.run calls).outcomes = [.ok ()] ++ [ending before] := by
  intro m y calls
  have hstop : .stop ∉ ([.suspend false, .moveTo "/a.js" 1] : List Act) := by decide
  have hadmitted : y.AllAdmitted calls := ⟨rfl, trivial, trivial, trivial, trivial, rfl, trivial⟩
  obtain ⟨_, hwaiting, _, _, hcourse⟩ :=
    (waits_until_released 1 [.suspend false, .moveTo "/a.js" 1]).2 hstop
  have hreturned : (y.run calls).waiting = false := rfl
  exact ⟨hstop, hwaiting, hadmitted, hreturned,
    (hcourse calls (by decide) hadmitted).returned hreturned⟩

end Monitor

end Context

end ScriptDebugger
