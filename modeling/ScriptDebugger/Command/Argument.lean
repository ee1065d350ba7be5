/-!
Arguments of a command line.  An argument begins with a dash that follows a space.  Its key runs
to the next space, and its value from there to the beginning of the next argument, so a value
may hold spaces, and begin with a dash.  The argument whose key is one more dash carries the data
of the command.
-/

namespace ScriptDebugger.Command

inductive Argument where
  | option (key value : List Char)
  | data (payload : List Char)
  deriving DecidableEq, Repr

namespace Argument

/-- The argument with a key, as it stands after the dash.  Further dashes are not part of the
name of an option. -/
def ofKey (key value : List Char) : Argument :=
  if key = ['-'] then .data value else .option (key.dropWhile (· == '-')) value

/-- The text up to the next argument, and the text behind the dash of that argument.  `before`
is the text already passed, latest character first. -/
def cut (before : List Char) : List Char → List Char × Option (List Char)
  | [] => (before.reverse, none)
  | ' ' :: '-' :: rest => (before.reverse, some rest)
  | c :: rest => cut (c :: before) rest

def read (text : List Char) : Argument × Option (List Char) :=
  let key := text.takeWhile (· != ' ')
  match text.dropWhile (· != ' ') with
  | [] => (ofKey key [], none)
  | _ :: rest =>
      let (value, next) := cut [] rest
      (ofKey key value, next)

theorem length_cut_lt {before text value next : List Char}
    (h : cut before text = (value, some next)) : next.length < text.length := by
  fun_induction cut before text with
  | case1 before => simp at h
  | case2 before rest =>
      obtain ⟨_, hnext⟩ := Prod.mk.inj h
      cases hnext
      simp only [List.length_cons]
      omega
  | case3 before c rest _ ih => exact Nat.lt_succ_of_lt (ih h)

theorem length_read_lt {text next : List Char} {argument : Argument}
    (h : read text = (argument, some next)) : next.length < text.length := by
  have hdrop : (text.dropWhile (· != ' ')).length ≤ text.length :=
    (List.dropWhile_suffix _).length_le
  unfold read at h
  split at h
  · simp at h
  · rename_i c rest hrest
    obtain ⟨_, hnext⟩ := Prod.mk.inj h
    have hcut : cut [] rest = ((cut [] rest).1, some next) := Prod.ext rfl hnext
    have hshorter := length_cut_lt hcut
    rw [hrest, List.length_cons] at hdrop
    omega

/-- The arguments found so far, latest first, followed by those of a text that begins behind
the dash of one. -/
def readAll (found : List Argument) (text : List Char) : List Argument :=
  match _hread : read text with
  | (argument, some next) => readAll (argument :: found) next
  | (argument, none) => (argument :: found).reverse
termination_by text.length
decreasing_by exact length_read_lt _hread

def list (text : List Char) : List Argument :=
  match (cut [] text).2 with
  | some first => readAll [] first
  | none => []

end Argument

end ScriptDebugger.Command
