import ScriptDebugger.Session.Dispatch

namespace ScriptDebugger

/-- The element answers the command: it names the command and its transaction. -/
structure Command.IsAnswer (c : Command) (e : Element) : Prop where
  tag : e.tag = "response"
  command : e.attribute? "command" = some c.name
  transaction : e.attribute? "transaction_id" = c.transaction?

namespace Command.IsAnswer

variable {c : Command} {e other : Element}

theorem answer (c : Command) : c.IsAnswer c.answer := by
  unfold Command.answer Element.response
  cases h : c.transaction? with
  | none => exact ⟨rfl, rfl, h.symm⟩
  | some id => exact ⟨rfl, rfl, h.symm⟩

theorem of_attributes (h : c.IsAnswer e) (htag : other.tag = e.tag)
    (hattributes : other.attributes = e.attributes) : c.IsAnswer other where
  tag := htag.trans h.tag
  command := (congrArg (List.lookup "command") hattributes).trans h.command
  transaction := (congrArg (List.lookup "transaction_id") hattributes).trans h.transaction

theorem child (h : c.IsAnswer e) (inner : Element) : c.IsAnswer (e.child inner) :=
  h.of_attributes rfl rfl

theorem text (h : c.IsAnswer e) (s : String) : c.IsAnswer (e.text s) :=
  h.of_attributes rfl rfl

theorem attr (h : c.IsAnswer e) {name : String} (hname : name ≠ "transaction_id")
    (value : String) : c.IsAnswer (e.attr name value) where
  tag := h.tag
  command := by
    change (e.attributes ++ [(name, value)]).lookup "command" = _
    rw [List.lookup_append, show e.attributes.lookup "command" = _ from h.command]
    rfl
  transaction := by
    change (e.attributes ++ [(name, value)]).lookup "transaction_id" = _
    have hother : [(name, value)].lookup "transaction_id" = none := by
      rw [List.lookup_cons, beq_false_of_ne (Ne.symm hname)]
      rfl
    rw [List.lookup_append, hother, Option.or_none]
    exact h.transaction

theorem errorAnswer (c : Command) (error : Error) : c.IsAnswer (c.errorAnswer error) :=
  (answer c).child _

end Command.IsAnswer

namespace Action

variable {α β : Type} {s : Session} {c : Command}

theorem on_read_ok (s : Session) (a : α) (next : α → Action β) :
    (liftM (Except.ok a : Except Error α) >>= next : Action β).on s = (next a).on s := rfl

theorem on_get (s : Session) (next : Session → Action β) :
    (MonadState.get >>= next : Action β).on s = (next s).on s := rfl

/-- The action changes nothing and sends nothing, unless it succeeds; what it then leads to. -/
def Ends (action : Action α) (s : Session) (post : α → Session → Prop) : Prop :=
  match action.on s with
  | (.ok result, after) => post result after
  | (.error _, after) => after = s

theorem Ends.mono {action : Action α} {post weaker : α → Session → Prop} (h : action.Ends s post)
    (hpost : ∀ a after, post a after → weaker a after) : action.Ends s weaker := by
  unfold Ends at h ⊢
  cases hrun : action.on s with
  | mk result after =>
      rw [hrun] at h
      cases result with
      | ok a => exact hpost a after h
      | error e => exact h

theorem Ends.read {x : Except Error α} {next : α → Action β} {post : β → Session → Prop}
    (h : ∀ a, x = .ok a → (next a).Ends s post) : (liftM x >>= next : Action β).Ends s post := by
  cases x with
  | ok a => exact h a rfl
  | error e => exact rfl

theorem Ends.get {next : Session → Action β} {post : β → Session → Prop}
    (h : (next s).Ends s post) : (MonadState.get >>= next : Action β).Ends s post :=
  h

theorem Ends.throw {post : α → Session → Prop} (e : Error) : (throw e : Action α).Ends s post :=
  rfl

theorem Ends.bind_pure {action : Action α} {f : α → β} {post : β → Session → Prop}
    (h : action.Ends s fun a after => post (f a) after) :
    (action >>= fun a => pure (f a) : Action β).Ends s post := by
  rw [Ends, on_bind]
  unfold Ends at h
  cases hrun : action.on s with
  | mk result after =>
      rw [hrun] at h
      cases result <;> exact h

theorem Ends.changeBreakpoints {change : Registry → Except Error (α × Registry)}
    {post : α → Session → Prop}
    (h : ∀ a registry, change s.registry = .ok (a, registry) →
      post a { s with registry := registry }) :
    (Action.changeBreakpoints change).Ends s post := by
  refine Ends.read (s := s) (x := change s.registry) fun changed hchange => ?_
  exact h changed.1 changed.2 hchange

theorem Ends.replyResult {action : Action Element} {post : Unit → Session → Prop}
    (h : action.Ends s fun element after => post () (after.answer element))
    (herror : ∀ e, post () (s.answer (c.errorAnswer e))) :
    (Action.replyResult c action).Ends s post := by
  rw [Ends, Action.replyResult, on_bind, on_tryCatch]
  unfold Ends at h
  cases hrun : action.on s with
  | mk result after =>
      rw [hrun] at h
      cases result with
      | ok element => exact h
      | error e =>
          obtain rfl : after = s := h
          cases e <;> first | exact herror _ | rfl

end Action

end ScriptDebugger
