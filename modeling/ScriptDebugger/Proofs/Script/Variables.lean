import ScriptDebugger.Proofs.Script.Running
import ScriptDebugger.Proofs.Script.Names
import ScriptDebugger.Proofs.Session.FailedReads

namespace ScriptDebugger

namespace Session

def showing (s : Session) (c : Command) (name : String) (value : Value) : List Message :=
  if s.outbox.isOpen then
    [.answer { c.answer with content := Node.toParts [s.rootNode name value] }]
  else []

theorem sent_of_trees {s : Session} {line : String} {c : Command}
    (hparse : Command.parse line = .ok c) {name : String} {value : Value}
    {trees : Except Error (List Node)} (htrees : trees = .ok [s.rootNode name value])
    (hexecute : s.execute c = .ok (s.answerOutcome c
      (trees.map fun trees => { c.answer with content := Node.toParts trees }))) :
    s.sent (.command line) = s.showing c name value := by
  rw [htrees] at hexecute
  exact sent_of_dispatch (dispatch_of_parse hparse hexecute) rfl

theorem treesOf_eq_ok {s : Session} {depth : Nat} {frame : Option Frame} {expression : String}
    {value : Value} (hframe : s.frameAt depth = .ok frame)
    (hvalue : s.host.evaluate s.heap expression frame = .ok value) :
    s.treesOf depth expression = .ok [s.rootNode expression value] := by
  rw [treesOf, hframe]
  change (s.evaluate expression frame >>= _) = _
  rw [evaluate, hvalue]
  rfl

theorem treesFor_eq_ok {s : Session} {depth scope : Nat} {frame : Option Frame} {path : String}
    {value : Value} (hframe : s.frameAt depth = .ok frame)
    (hvalue : s.resolve frame scope path = .ok value) :
    s.treesFor ⟨depth, scope, some path⟩ = .ok [s.rootNode path value] := by
  rw [treesFor]
  dsimp only
  rw [hframe]
  change (s.resolve frame scope path >>= _) = _
  rw [hvalue]
  rfl

end Session

namespace Script

def expressed (name : String) (value : Value) : Value :=
  match wordNumber? name with
  | some number => .number number
  | none => value

/-- What a statement does with the value of a name that it reads. -/
inductive Statement.Reads (name : String) : Statement → (Value → Action) → Prop where
  | print : Reads name (.print name) .print
  | assign (target : String) : Reads name (.assign target name) (.store target)

def Phase.target? : Phase → Option String
  | .acting (.store name _ :: _) => some name
  | _ => none

def Phase.isUnderWay : Phase → Bool
  | .acting _ | .waiting _ _ => true
  | _ => false

/-- The expression of an assignment has a value, which was not written to the variable yet. -/
inductive Assigning (script : Script) (h : Heap) (name : String) (value : Value) : Play → Prop where
  | evaluated {x : Play} {expression : String} {rest : List Action} (hx : Reachable Session.Operation.isOutside script h x)
      (hphase : x.phase = .acting (.perform (.assign name expression) :: rest))
      (hvalue : evaluate (script.install h).1.globals x.session.heap expression
        (some (script.installed h).frame) = .ok value) :
      Assigning script h name value (x.advance (script.installed h))
  | advance {x : Play} (hx : Assigning script h name value x) (htarget : x.phase.target? = none) :
      Assigning script h name value (x.advance (script.installed h))
  | beside {x : Play} {operation : Session.Operation} (hx : Assigning script h name value x)
      (houtside : operation.isOutside = true) :
      Assigning script h name value (x.beside operation)

/-- The value was written to the variable, and nobody has written to it since. -/
inductive Assigned (script : Script) (h : Heap) (name : String) (value : Value) : Play → Prop where
  | stored {x : Play} (hx : Assigning script h name value x)
      (htarget : x.phase.target?.isSome = true) :
      Assigned script h name value (x.advance (script.installed h))
  | advance {x : Play} (hx : Assigned script h name value x)
      (htarget : x.phase.target? ≠ some name) :
      Assigned script h name value (x.advance (script.installed h))
  | beside {x : Play} {operation : Session.Operation} (hx : Assigned script h name value x)
      (houtside : operation.isOutside = true)
      (hother : ¬x.session.WritesTo operation ((script.install h).1.locals, .name name)) :
      Assigned script h name value (x.beside operation)

variable {script : Script} {h : Heap} {name : String} {value : Value} {x : Play}

theorem Assigning.reachable (hx : Assigning script h name value x) :
    Reachable Session.Operation.isOutside script h x := by
  induction hx with
  | evaluated hx _ _ => exact hx.advance
  | advance _ _ ih => exact ih.advance
  | beside _ houtside ih => exact ih.beside houtside

theorem Assigned.reachable (hx : Assigned script h name value x) :
    Reachable Session.Operation.isOutside script h x := by
  induction hx with
  | stored hx _ => exact hx.reachable.advance
  | advance _ _ ih => exact ih.advance
  | beside _ houtside _ ih => exact ih.beside houtside

theorem Assigning.isFound (hx : Assigning script h name value x) : value.isFound = true := by
  induction hx with
  | evaluated _ _ hvalue => exact isFound_of_evaluate hvalue
  | advance _ _ ih => exact ih
  | beside _ _ ih => exact ih

theorem Assigned.isFound (hx : Assigned script h name value x) : value.isFound = true := by
  induction hx with
  | stored hx _ => exact hx.isFound
  | advance _ _ ih => exact ih
  | beside _ _ _ ih => exact ih

/-- The phases of a script from an expression to the variable that its value is written to. -/
inductive Storing (name : String) (value : Value) : Phase → Prop where
  | reading {owner : ObjectId} {property : String} {rest : List Action} :
      Storing name value (.acting (.report (.read owner property) :: .store name value :: rest))
  | storing {rest : List Action} : Storing name value (.acting (.store name value :: rest))
  | waiting {wait : Wait} {rest : List Action} :
      Storing name value (.waiting wait (.store name value :: rest))
  | ended {outcome : Except Error Unit} {closed : Bool} :
      Storing name value (.ended outcome closed)
  | returned {outcome : Except Error Unit} {closed : Bool} :
      Storing name value (.returned outcome closed)

namespace Storing

variable {p : Program}

theorem next {progress : Progress} {s : Session} {rest : List Action} :
    Storing name value (.next s (.store name value :: rest) (.ofProgress progress)) := by
  cases progress with
  | waiting wait => exact .waiting
  | returned outcome =>
      cases outcome with
      | error e => exact .ended
      | ok _ => exact .storing

theorem perform {expression : String} {rest : List Action}
    (hphase : x.phase = .acting (.perform (.assign name expression) :: rest))
    (hvalue : x.session.host.evaluate x.session.heap expression (some p.frame) = .ok value) :
    Storing name value (x.advance p).phase := by
  rw [Play.advance_acting hphase]
  change Storing name value
    (.next x.session rest (.next (p.reading x.session.heap x.session.host expression _)))
  rw [Program.reading, hvalue]
  cases hidentifier : isIdentifier expression with
  | true => exact .reading
  | false => exact .storing

theorem advance (hx : Storing name value x.phase) (htarget : x.phase.target? = none) :
    Storing name value (x.advance p).phase := by
  generalize hphase : x.phase = phase at hx htarget
  cases hx with
  | reading =>
      rw [Play.advance_acting hphase]
      exact .next
  | storing => cases htarget
  | waiting =>
      rw [Play.advance_waiting hphase]
      exact .next
  | ended =>
      rw [Play.advance_ended hphase]
      exact .returned
  | returned =>
      rw [Play.advance_returned hphase, hphase]
      exact .returned

theorem eq_of_target? {phase : Phase} (h : Storing name value phase)
    (htarget : phase.target?.isSome = true) :
    ∃ rest, phase = .acting (.store name value :: rest) := by
  cases h with
  | storing => exact ⟨_, rfl⟩
  | reading | waiting | ended | returned => cases htarget

end Storing

theorem Assigning.storing (hx : Assigning script h name value x) :
    Storing name value x.phase := by
  induction hx with
  | evaluated hx hphase hvalue =>
      refine .perform hphase ?_
      rw [hx.running.host]
      exact hvalue
  | advance _ htarget ih => exact ih.advance htarget
  | beside _ _ ih => exact ih

theorem Assigned.slot? (hx : Assigned script h name value x) :
    x.session.heap.slot? ((script.install h).1.locals, .name name) = some value := by
  induction hx with
  | @stored x hx htarget =>
      have hplain := hx.reachable.running.locals
      obtain ⟨rest, hphase⟩ := hx.storing.eq_of_target? htarget
      obtain ⟨heap, hset⟩ := hplain.exists_set (.name name) value
      have hheap : x.stage.session.heap.set (script.installed h).scopes.locals (.name name) value =
          .ok heap := hset
      rw [Play.advance_of_act hphase (Stage.act_store hheap)]
      exact (Heap.writes_of_set hset).written hplain.lt
  | @advance x _ htarget ih =>
      rcases heap_advance (script.installed h) x with hsame | ⟨other, _, _, hphase, hwrites⟩
      · rw [hsame]
        exact ih
      · rw [hphase] at htarget
        rw [hwrites.others _ fun heq => htarget ?_]
        · exact ih
        · cases heq
          rfl
  | @beside x operation _ houtside hother ih =>
      change (x.session.after operation).heap.slot? _ = _
      rcases Session.heap_after_of_isOutside (s := x.session) houtside with
        hsame | ⟨slot, _, hslot, hwrites⟩
      · rw [hsame]
        exact ih
      · rw [hwrites.others _ fun heq => hother ?_]
        · exact ih
        · rw [heq]
          exact hslot

def Action.isEnter : Action → Bool
  | .report (.enter _) => true
  | _ => false

theorem Action.isEnter_of_isInner {action : Action} (h : action.isInner = true) :
    action.isEnter = false := by
  cases action with
  | report event =>
      cases event with
      | enter _ => cases h
      | _ => rfl
  | _ => rfl

def Phase.IsEntered : Phase → Prop
  | .called => False
  | .acting rest | .waiting _ rest => ∀ action ∈ rest, action.isEnter = false
  | .ended _ _ | .returned _ _ => True

namespace Phase.IsEntered

variable {p : Program} {s : Session} {rest : List Action}

theorem next {turn : Turn} (hrest : ∀ action ∈ rest, action.isEnter = false)
    (hmore : ∀ more, turn = .next more → ∀ action ∈ more, action.isInner = true) :
    (Phase.next s rest turn).IsEntered := by
  cases turn with
  | next more =>
      rw [Phase.next]
      split
      · exact trivial
      · refine List.forall_mem_append.mpr ⟨fun action haction => ?_, hrest⟩
        exact Action.isEnter_of_isInner (hmore more rfl action haction)
  | wait wait => exact hrest
  | fail e => exact trivial

theorem advance (hx : x.phase.IsEntered) : (x.advance p).phase.IsEntered := by
  generalize hphase : x.phase = phase at hx
  cases phase with
  | called => exact hx.elim
  | acting rest =>
      cases rest with
      | nil =>
          rw [Play.advance_acting_nil hphase]
          exact trivial
      | cons action rest =>
          rw [Play.advance_acting hphase]
          exact .next (List.forall_mem_cons.mp hx).2 fun _ => isInner_of_act
  | waiting wait rest =>
      rw [Play.advance_waiting hphase]
      refine .next hx fun more hturn => ?_
      rw [(ofProgress_eq_next hturn).1]
      exact List.forall_mem_nil _
  | ended outcome closed =>
      rw [Play.advance_ended hphase]
      exact trivial
  | returned outcome closed =>
      rw [Play.advance_returned hphase, hphase]
      exact trivial

end Phase.IsEntered

theorem Place.isEnter_eq_false {p : Program} {f : Frame} {frames : List Frame}
    {rest : List Action} (h : Place p (f :: frames) rest) :
    ∀ action ∈ rest, action.isEnter = false := by
  cases h with
  | before hframes _ _ _ => cases hframes
  | within _ _ hbody hrest =>
      rw [hrest, List.forall_mem_append]
      exact ⟨fun action haction => Action.isEnter_of_isInner (hbody action haction),
        List.forall_mem_singleton.mpr rfl⟩
  | leaving _ _ hrest =>
      rw [hrest]
      exact List.forall_mem_nil _

theorem Reachable.isEntered_of_perform
    (hx : Reachable Session.Operation.isOutside script h x) {statement : Statement} {rest : List Action} (hphase : x.phase = .acting (.perform statement :: rest))
    (hopen : x.session.closed = false) : x.phase.IsEntered := by
  have hposition := hx.running.position
  rw [hphase] at hposition ⊢
  cases hposition with
  | acting _ hplace =>
      refine List.forall_mem_cons.mpr ⟨rfl, ?_⟩
      cases (hplace hopen).first with
      | inner _ _ hf hrest =>
          have hplace : Place (script.installed h) [_] ([] ++ rest) :=
            hrest hf (List.forall_mem_nil _)
          exact hplace.isEnter_eq_false
      | prelude haction _ _ => cases haction
      | enter haction _ _ => cases haction
      | exit haction _ _ _ => cases haction

theorem Assigning.isEntered (hx : Assigning script h name value x)
    (hopen : x.session.closed = false) : x.phase.IsEntered := by
  induction hx with
  | evaluated hx hphase _ =>
      exact (hx.isEntered_of_perform hphase (closed_of_advance hopen)).advance
  | advance _ _ ih => exact (ih (closed_of_advance hopen)).advance
  | beside _ _ ih => exact ih (Session.closed_of_after hopen)

theorem Assigned.isEntered (hx : Assigned script h name value x)
    (hopen : x.session.closed = false) : x.phase.IsEntered := by
  induction hx with
  | stored hx _ => exact (hx.isEntered (closed_of_advance hopen)).advance
  | advance _ _ ih => exact (ih (closed_of_advance hopen)).advance
  | beside _ _ _ ih => exact ih (Session.closed_of_after hopen)

theorem Assigned.frames_eq (hx : Assigned script h name value x)
    (hopen : x.session.closed = false) (hunderWay : x.phase.isUnderWay = true) :
    ∃ f, x.session.frames = [f] ∧ IsFrame (script.installed h) f := by
  have hentered := hx.isEntered hopen
  have hposition := hx.reachable.running.position
  have hplaced : ∀ {rest : List Action}, (∀ action ∈ rest, action.isEnter = false) →
      Place (script.installed h) x.session.frames rest →
      ∃ f, x.session.frames = [f] ∧ IsFrame (script.installed h) f := by
    intro rest hrest hplace
    cases hplace with
    | before _ _ _ hbefore =>
        have hmem : Action.report (.enter (script.installed h).frame) ∈ rest := by
          rw [hbefore]
          exact List.mem_append_right _ List.mem_cons_self
        cases hrest _ hmem
    | within hframes hf _ _ => exact ⟨_, hframes, hf⟩
    | leaving hframes hf _ => exact ⟨_, hframes, hf⟩
  generalize x.phase = phase at hentered hposition hunderWay
  cases hposition with
  | acting _ hplace => exact hplaced hentered (hplace hopen)
  | waiting _ _ hplace => exact hplaced hentered (hplace hopen).1
  | called | ended | returned => cases hunderWay

namespace Assigned

variable (hx : Assigned script h name value x) {f : Frame} (hf : IsFrame (script.installed h) f)
include hx hf

theorem lookup_eq :
    Host.lookup x.session.heap (.name name)
      (Host.scopes (some (script.install h).1.globals) (some f)) = .ok (some value) := by
  have hscopes : Host.scopes (some (script.install h).1.globals) (some f) =
      (script.install h).1.locals :: [(script.install h).1.globals] := by
    rw [Host.scopes, Option.bind_some, hf.scope]
    rfl
  rw [hscopes]
  exact Session.lookup_of_get (hx.reachable.running.locals.get_of_slot? hx.slot?) hx.isFound

theorem evaluate_eq (hname : isIdentifier name = true) (hvalue : name ∉ valueWords) :
    x.session.host.evaluate x.session.heap name (some f) = .ok (expressed name value) := by
  rw [hx.reachable.running.host, expressed]
  change evaluate _ _ _ _ = _
  cases hword : wordNumber? name with
  | some number => exact evaluate_of_word hname hvalue hword _ _ _
  | none => exact evaluate_of_lookup hname hvalue hword (hx.lookup_eq hf)

theorem resolve_eq (hname : isIdentifier name = true) :
    x.session.resolve (some f) Session.localScope name = .ok value := by
  refine Session.resolve_eq_ok.mpr (.inl ?_)
  rw [Session.walkPath, read?_of_identifier hname]
  refine Session.walk_eq_some.mpr ⟨value, ?_, rfl⟩
  have hreceiver : Session.receiver? (some f) (.name name) = none := by
    unfold Session.receiver?
    split
    · exact hf.receiver
    · rfl
  have hscopes : x.session.rootScopes (some f) Session.localScope =
      .ok (Host.scopes (some (script.install h).1.globals) (some f)) := by
    rw [Session.rootScopes, hx.reachable.running.host]
    rfl
  rw [Session.lookupRoot, hreceiver, hscopes]
  change (Host.lookup _ _ _).mapError _ = _
  rw [hx.lookup_eq hf]
  rfl

end Assigned

namespace Assigned

theorem expand_eq (hx : Assigned script h name value x) (hname : isIdentifier name = true)
    (hvalue : name ∉ valueWords) {statement : Statement} {use : Value → Action}
    (hreads : statement.Reads name use) :
    (script.installed h).expand x.session.heap x.session.host statement =
      [.report (.read (script.install h).1.locals name), use (expressed name value)] := by
  have hreading : (script.installed h).reading x.session.heap x.session.host name use =
      [.report (.read (script.install h).1.locals name), use (expressed name value)] := by
    rw [Program.reading, hx.evaluate_eq ⟨rfl, rfl⟩ hname hvalue]
    dsimp only
    rw [if_pos hname]
    rfl
  cases hreads with
  | print => exact hreading
  | assign target => exact hreading

theorem frameAt_eq (hx : Assigned script h name value x) (hopen : x.session.closed = false)
    (hunderWay : x.phase.isUnderWay = true) :
    ∃ f, x.session.frameAt 0 = .ok (some f) ∧ IsFrame (script.installed h) f := by
  obtain ⟨f, hframes, hf⟩ := hx.frames_eq hopen hunderWay
  refine ⟨f, ?_, hf⟩
  rw [Session.frameAt, hframes]
  rfl

end Assigned

/-- A variable that was assigned to has the value of the assignment until the next one.  A statement
of the script that reads its name, and a client that has it evaluated, get this value, unless the
name is a word for a number; a client that asks for the property gets it in any case. -/
theorem name_stands_for_last_value (hname : isIdentifier name = true) (hvalue : name ∉ valueWords)
    (hx : Assigned script h name value x) :
    (∀ statement use rest, statement.Reads name use →
      x.phase = .acting (.perform statement :: rest) →
      (x.advance (script.installed h)).phase =
        .acting (.report (.read (script.install h).1.locals name) ::
          use (expressed name value) :: rest)) ∧
    (x.session.closed = false → x.phase.isUnderWay = true → ∀ line c,
      Command.parse line = .ok c →
      (c.name = "eval" → Session.depthOf c = .ok 0 → c.requiredData = .ok name →
        x.session.sent (.command line) = x.session.showing c name (expressed name value)) ∧
      (c.Asks ⟨0, Session.localScope, some name⟩ →
        x.session.sent (.command line) = x.session.showing c name value)) := by
  refine ⟨fun statement use rest hreads hphase => ?_, fun hopen hunderWay line c hparse => ?_⟩
  · have hexpand := hx.expand_eq hname hvalue hreads
    rw [Play.advance_acting hphase]
    change Phase.next x.session _
      (.next ((script.installed h).expand x.session.heap x.session.host _)) = _
    rw [hexpand]
    rfl
  · obtain ⟨f, hframe, hf⟩ := hx.frameAt_eq hopen hunderWay
    refine ⟨fun heval hdepth hdata => ?_, fun hasks => ?_⟩
    · exact Session.sent_of_trees hparse
        (Session.treesOf_eq_ok hframe (hx.evaluate_eq hf hname hvalue))
        (Session.execute_of_eval heval hdepth hdata)
    · exact Session.sent_of_trees hparse
        (Session.treesFor_eq_ok hframe (hx.resolve_eq hf hname))
        (Session.execute_of_asks x.session hasks)

def printing (name : String) : Script where
  path := "/a"
  lines := [name ++ " = 1", "print " ++ name]

def afterSteps (script : Script) (count : Nat) : Play :=
  let s := Session.opened {} (host (script.install {}).1) (script.install {}).2
  ((Play.opened { session := s }).beside (.command "run -i 1")).steps (script.installed {}) count

theorem reachable_afterSteps (script : Script) (count : Nat) :
    Reachable Session.Operation.isOutside script {} (script.afterSteps count) := by
  refine .steps (.beside (.called ?_ rfl rfl) rfl) count
  exact ⟨{}, _, _, [], rfl⟩

theorem assigned_printing {rest : List Action} (hvalue : evaluate
      ((printing name).install {}).1.globals ((printing name).afterSteps 5).session.heap "1"
        (some ((printing name).installed {}).frame) = .ok value)
    (hperform : ((printing name).afterSteps 5).phase =
      .acting (.perform (.assign name "1") :: rest))
    (hstore : ((printing name).afterSteps 6).phase.target?.isSome = true)
    (hwrite : ((printing name).afterSteps 7).phase.target? ≠ some name)
    (hline : ((printing name).afterSteps 8).phase.target? ≠ some name) :
    Assigned (printing name) {} name value ((printing name).afterSteps 9) := by
  have hassigning : Assigning (printing name) {} name value ((printing name).afterSteps 6) :=
    .evaluated (reachable_afterSteps (printing name) 5) hperform hvalue
  have hassigned : Assigned (printing name) {} name value ((printing name).afterSteps 7) :=
    .stored hassigning hstore
  exact .advance (.advance hassigned hwrite) hline

theorem name_stands_for_last_value_printing :
    let x := (printing "a").afterSteps 9
    let c : Command := ⟨"eval", [("i", "2")], some "YQ=="⟩
    let asked : Command := ⟨"property_get", [("n", "a"), ("i", "3")], none⟩
    isIdentifier "a" = true ∧ "a" ∉ valueWords ∧
      Assigned (printing "a") {} "a" (.number (.ofNat 1)) x ∧
      (x.advance ((printing "a").installed {})).phase =
        .acting [.report (.read 3 "a"), .print (.number (.ofNat 1)), .report .exit] ∧
      x.session.sent (.command "eval -i 2 -- YQ==") =
        x.session.showing c "a" (.number (.ofNat 1)) ∧
      x.session.sent (.command "property_get -i 3 -n a") =
        x.session.showing asked "a" (.number (.ofNat 1)) := by
  intro x c asked
  have hname : isIdentifier "a" = true := by decide +kernel
  have hvalue : "a" ∉ valueWords := by decide
  have hperform : ((printing "a").afterSteps 5).phase =
      .acting [.perform (.assign "a" "1"), .report (.line "/a" 2), .perform (.print "a"),
        .report .exit] := by
    decide +kernel
  have hassigned : Assigned (printing "a") {} "a" (.number (.ofNat 1)) x :=
    assigned_printing (by decide +kernel) hperform (by decide +kernel) (by decide +kernel)
      (by decide +kernel)
  have hphase : x.phase = .acting [.perform (.print "a"), .report .exit] := by decide +kernel
  have hparse : Command.parse "eval -i 2 -- YQ==" = .ok c :=
    Command.parse_eq_ok (by decide +kernel)
  have hasks : Command.parse "property_get -i 3 -n a" = .ok asked :=
    Command.parse_eq_ok (by decide +kernel)
  obtain ⟨hread, hshown⟩ := name_stands_for_last_value hname hvalue hassigned
  have hclient := hshown (by decide +kernel) (by decide +kernel)
  exact ⟨hname, hvalue, hassigned, hread _ _ _ .print hphase,
    (hclient _ _ hparse).1 rfl (by decide +kernel) (by decide +kernel),
    (hclient _ _ hasks).2 ⟨by decide +kernel, by decide +kernel, rfl, by decide +kernel⟩⟩

/-- A name that is a word for a number can be assigned to, and is the number all the same. -/
theorem word_for_number_hides_variable :
    let x := (printing "inf").afterSteps 9
    let c : Command := ⟨"eval", [("i", "2")], some "aW5m"⟩
    isIdentifier "inf" = true ∧ "inf" ∉ valueWords ∧
      Assigned (printing "inf") {} "inf" (.number (.ofNat 1)) x ∧
      x.phase = .acting [.perform (.print "inf"), .report .exit] ∧
      (x.advance ((printing "inf").installed {})).phase ≠
        .acting [.report (.read 3 "inf"), .print (.number (.ofNat 1)), .report .exit] ∧
      Command.parse "eval -i 2 -- aW5m" = .ok c ∧
      x.session.sent (.command "eval -i 2 -- aW5m") ≠
        x.session.showing c "inf" (.number (.ofNat 1)) := by
  intro x c
  have hperform : ((printing "inf").afterSteps 5).phase =
      .acting [.perform (.assign "inf" "1"), .report (.line "/a" 2), .perform (.print "inf"),
        .report .exit] := by
    decide +kernel
  have hassigned : Assigned (printing "inf") {} "inf" (.number (.ofNat 1)) x :=
    assigned_printing (by decide +kernel) hperform (by decide +kernel) (by decide +kernel)
      (by decide +kernel)
  refine ⟨by decide +kernel, by decide, hassigned, by decide +kernel, by decide +kernel,
    Command.parse_eq_ok (by decide +kernel), fun heq => ?_⟩
  have hlength := congrArg
    (List.map fun m => (Markup.renderContent m.toElement.content).length) heq
  exact absurd hlength (by decide +kernel)

end Script

end ScriptDebugger
