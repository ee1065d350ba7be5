import ScriptDebugger.Command.Basic
import ScriptDebugger.Session.Basic

namespace ScriptDebugger

abbrev Action := ExceptT Error (StateM Session)

namespace Action

def on {α : Type} (action : Action α) (s : Session) : Except Error α × Session :=
  Id.run (StateT.run (ExceptT.run action) s)

theorem on_bind {α β : Type} (action : Action α) (next : α → Action β) (s : Session) :
    (action >>= next).on s =
      match action.on s with
      | (.ok result, after) => (next result).on after
      | (.error e, after) => (.error e, after) := by
  unfold on ExceptT.run StateT.run Id.run
  simp only [bind, ExceptT.bind, ExceptT.mk, StateT.bind, ExceptT.bindCont]
  cases action s with
  | mk result after => cases result <;> rfl

theorem on_tryCatch {α : Type} (action : Action α) (handle : Error → Action α) (s : Session) :
    (tryCatch action handle).on s =
      match action.on s with
      | (.ok result, after) => (.ok result, after)
      | (.error e, after) => (handle e).on after := by
  unfold on ExceptT.run StateT.run Id.run
  simp only [tryCatch, tryCatchThe, MonadExceptOf.tryCatch, ExceptT.tryCatch, bind, ExceptT.mk,
    StateT.bind]
  cases action s with
  | mk result after => cases result <;> rfl

def reply (e : Element) : Action Unit :=
  modify fun s => s.answer e

def changeBreakpoints {α : Type} (change : Registry → Except Error (α × Registry)) :
    Action α := do
  let s ← get
  let (result, registry) ← change s.registry
  set { s with registry := registry }
  return result

/-- Replies with the outcome of an action on breakpoints.  An error that concerns the breakpoint
is an answer too. -/
def replyResult (c : Command) (action : Action Element) : Action Unit := do
  let element ← tryCatch action fun e =>
    match e with
    | .breakpointNotFound _ | .invalidHitCondition _ => pure (c.errorAnswer e)
    | _ => throw e
  reply element

end Action

end ScriptDebugger
