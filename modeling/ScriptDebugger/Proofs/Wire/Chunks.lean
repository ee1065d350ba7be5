import Mathlib.Data.List.Induction
import ScriptDebugger.Wire.Decoder

/-!
Lines do not depend on how their bytes arrive.  What a decoder makes of a stream is told by the
runs of the stream: the stretches between its terminators.
-/

namespace ScriptDebugger.Wire

/-- The stretches between the terminators of a stream, where neighbours have an empty one. -/
def runs (bytes : List UInt8) : List (List UInt8) :=
  bytes.splitOnP isTerminator

theorem runs_ne_nil (bytes : List UInt8) : runs bytes ≠ [] :=
  List.splitOnP_ne_nil isTerminator bytes

/-- The run that no terminator has ended yet. -/
def unfinished (bytes : List UInt8) : List UInt8 :=
  (runs bytes).getLast (runs_ne_nil bytes)

def spell (run : List UInt8) : String :=
  String.ofList (Text.Utf8.decodeLossy run)

def commands (bytes : List UInt8) : List String :=
  ((runs bytes).dropLast.filter fun run => !run.isEmpty).map spell

/-- No run is longer than a command may be. -/
def Fits (bytes : List UInt8) : Prop :=
  ∀ run ∈ runs bytes, run.length ≤ maxCommandSize

def Visible (bytes : List UInt8) : Prop :=
  ∀ byte ∈ bytes, isTerminator byte = false

def Ended (bytes : List UInt8) : Prop :=
  ∀ byte ∈ bytes.getLast?, isTerminator byte

def Ending (bytes : List UInt8) : Prop :=
  ∀ byte ∈ bytes.head?, isTerminator byte

/-- In the stream `before ++ run ++ after`, no terminator is in `run`, which ends at the ends of
the stream and at terminators. -/
structure IsRun (before run after : List UInt8) : Prop where
  visible : Visible run
  starts : Ended before
  stops : Ending after

variable {bytes front back run rest : List UInt8} {byte : UInt8}

@[simp] theorem visible_nil : Visible [] := by
  simp [Visible]

theorem visible_append :
    Visible (front ++ back) ↔ Visible front ∧ Visible back :=
  List.forall_mem_append

@[simp] theorem visible_singleton : Visible [byte] ↔ isTerminator byte = false :=
  List.forall_mem_singleton

@[simp] theorem ended_nil : Ended [] := by
  simp [Ended]

theorem ended_concat : Ended (bytes ++ [byte]) ↔ isTerminator byte := by
  simp [Ended]

theorem ended_append_cons (hbyte : isTerminator byte) (hback : Ended back) :
    Ended (front ++ byte :: back) := by
  rcases List.eq_nil_or_concat back with rfl | ⟨back, last, rfl⟩
  · exact ended_concat.mpr hbyte
  · rw [List.concat_eq_append] at hback ⊢
    rw [← List.cons_append, ← List.append_assoc]
    exact ended_concat.mpr (ended_concat.mp hback)

@[simp] theorem ending_nil : Ending [] := by
  simp [Ending]

@[simp] theorem ending_cons : Ending (byte :: back) ↔ isTerminator byte := by
  simp [Ending]

@[simp] theorem runs_nil : runs [] = [[]] :=
  List.splitOnP_nil

theorem runs_of_visible (h : Visible run) : runs run = [run] :=
  List.splitOnP_eq_singleton h

theorem runs_append_cons (h : isTerminator byte) :
    runs (front ++ byte :: back) = runs front ++ runs back :=
  List.splitOnP_append_cons front back h

theorem runs_visible_append_cons (hrun : Visible run) (hbyte : isTerminator byte) :
    runs (run ++ byte :: rest) = run :: runs rest := by
  rw [runs_append_cons hbyte, runs_of_visible hrun, List.singleton_append]

theorem runs_concat (h : isTerminator byte) : runs (bytes ++ [byte]) = runs bytes ++ [[]] := by
  rw [runs_append_cons h, runs_nil]

@[elab_as_elim] theorem runs_induction {motive : List UInt8 → Prop}
    (visible : ∀ run, Visible run → motive run)
    (cut : ∀ run byte rest, Visible run → isTerminator byte → motive rest →
      motive (run ++ byte :: rest))
    (bytes : List UInt8) : motive bytes := by
  -- the induction on the bytes carries the run that has begun
  suffices h : ∀ run, Visible run → motive (run ++ bytes) from h [] visible_nil
  induction bytes with
  | nil =>
      intro run hrun
      simpa using visible run hrun
  | cons byte rest ih =>
      intro run hrun
      by_cases hbyte : isTerminator byte
      · exact cut run byte rest hrun hbyte (ih [] visible_nil)
      · have hlonger : Visible (run ++ [byte]) :=
          visible_append.mpr ⟨hrun, visible_singleton.mpr (by simpa using hbyte)⟩
        simpa using ih (run ++ [byte]) hlonger

theorem exists_oversized (h : ¬ Fits bytes) :
    ∃ before run after, bytes = before ++ run ++ after ∧ IsRun before run after ∧
      maxCommandSize < run.length ∧ Fits before := by
  induction bytes using runs_induction with
  | visible bytes hbytes =>
      refine ⟨[], bytes, [], by simp, ⟨hbytes, ended_nil, ending_nil⟩, ?_, by simp [Fits]⟩
      simpa [Fits, runs_of_visible hbytes] using h
  | cut first byte rest hfirst hbyte ih =>
      by_cases hlong : maxCommandSize < first.length
      · exact ⟨[], first, byte :: rest, rfl, ⟨hfirst, ended_nil, ending_cons.mpr hbyte⟩, hlong,
          by simp [Fits]⟩
      · have hrest : ¬ Fits rest := by
          intro hrest
          apply h
          rw [Fits, runs_visible_append_cons hfirst hbyte, List.forall_mem_cons]
          exact ⟨Nat.le_of_not_lt hlong, hrest⟩
        obtain ⟨before, run, after, rfl, hrun, hlength, hbefore⟩ := ih hrest
        refine ⟨first ++ byte :: before, run, after, by simp,
          ⟨hrun.visible, ended_append_cons hbyte hrun.starts, hrun.stops⟩, hlength, ?_⟩
        rw [Fits, runs_visible_append_cons hfirst hbyte, List.forall_mem_cons]
        exact ⟨Nat.le_of_not_lt hlong, hbefore⟩

theorem dropLast_runs_append_unfinished (bytes : List UInt8) :
    (runs bytes).dropLast ++ [unfinished bytes] = runs bytes :=
  List.dropLast_concat_getLast (runs_ne_nil bytes)

theorem unfinished_mem_runs (bytes : List UInt8) : unfinished bytes ∈ runs bytes :=
  List.getLast_mem (runs_ne_nil bytes)

theorem unfinished_eq {first : List (List UInt8)} (h : runs bytes = first ++ [run]) :
    unfinished bytes = run := by
  simp [unfinished, h]

theorem unfinished_of_visible (h : Visible run) : unfinished run = run := by
  simp [unfinished, runs_of_visible h]

theorem unfinished_append_cons (h : isTerminator byte) :
    unfinished (front ++ byte :: back) = unfinished back := by
  apply unfinished_eq
  rw [runs_append_cons h, ← dropLast_runs_append_unfinished back, ← List.append_assoc]

theorem runs_append_visible (h : Visible run) :
    runs (bytes ++ run) = (runs bytes).dropLast ++ [unfinished bytes ++ run] := by
  induction bytes using runs_induction with
  | visible bytes hbytes =>
      rw [runs_of_visible (visible_append.mpr ⟨hbytes, h⟩), runs_of_visible hbytes,
        unfinished_of_visible hbytes, List.dropLast_singleton, List.nil_append]
  | cut first byte rest hfirst hbyte ih =>
      have hruns : runs (first ++ byte :: rest) = first :: runs rest :=
        runs_visible_append_cons hfirst hbyte
      rw [List.append_assoc, List.cons_append, runs_visible_append_cons hfirst hbyte, ih,
        unfinished_append_cons hbyte, hruns, List.dropLast_cons_of_ne_nil (runs_ne_nil rest),
        List.cons_append]

theorem unfinished_append_visible (h : Visible run) :
    unfinished (bytes ++ run) = unfinished bytes ++ run :=
  unfinished_eq (runs_append_visible h)

theorem commands_append_visible (h : Visible run) :
    commands (bytes ++ run) = commands bytes := by
  simp [commands, runs_append_visible h]

theorem unfinished_concat (h : isTerminator byte) : unfinished (bytes ++ [byte]) = [] :=
  unfinished_eq (runs_concat h)

theorem commands_concat (h : isTerminator byte) :
    commands (bytes ++ [byte]) =
      commands bytes ++ if (unfinished bytes).isEmpty then [] else [spell (unfinished bytes)] := by
  rw [commands, runs_concat h, List.dropLast_concat, ← dropLast_runs_append_unfinished,
    List.filter_append, List.map_append, commands]
  cases unfinished bytes <;> rfl

theorem unfinished_of_ended (h : Ended bytes) : unfinished bytes = [] := by
  rcases List.eq_nil_or_concat bytes with rfl | ⟨bytes, byte, rfl⟩
  · rfl
  · rw [List.concat_eq_append] at h ⊢
    exact unfinished_concat (ended_concat.mp h)

theorem Fits.of_append (h : Fits (front ++ back)) : Fits front := by
  induction back using List.reverseRecOn with
  | nil => simpa using h
  | append_singleton back byte ih =>
      apply ih
      rw [← List.append_assoc] at h
      intro run hrun
      by_cases hbyte : isTerminator byte
      · apply h
        rw [runs_concat hbyte]
        exact List.mem_append_left _ hrun
      · rw [Fits, runs_append_visible (visible_singleton.mpr (by simpa using hbyte)),
          List.forall_mem_append, List.forall_mem_singleton, List.length_append] at h
        rw [← dropLast_runs_append_unfinished, List.mem_append, List.mem_singleton] at hrun
        rcases hrun with hrun | rfl
        · exact h.1 run hrun
        · omega

theorem Fits.append_visible (h : Fits bytes) (hrun : Visible run)
    (hlength : (unfinished bytes).length + run.length ≤ maxCommandSize) :
    Fits (bytes ++ run) := by
  rw [Fits, runs_append_visible hrun, List.forall_mem_append, List.forall_mem_singleton,
    List.length_append]
  exact ⟨fun other hother => h other (List.dropLast_subset _ hother), hlength⟩

theorem IsRun.exists_full {before after : List UInt8} (h : IsRun before run after)
    (hbefore : Fits before) (hlength : maxCommandSize < run.length) :
    ∃ allowed byte more, run = allowed ++ byte :: more ∧ allowed.length = maxCommandSize ∧
      Visible allowed ∧ isTerminator byte = false ∧ Fits (before ++ allowed) ∧
        maxCommandSize ≤ (unfinished (before ++ allowed)).length := by
  obtain ⟨allowed, byte, more, rfl, hallowed⟩ :
      ∃ allowed byte more, run = allowed ++ byte :: more ∧ allowed.length = maxCommandSize :=
    ⟨run.take maxCommandSize, run[maxCommandSize], run.drop (maxCommandSize + 1),
      by rw [← List.drop_eq_getElem_cons, List.take_append_drop], by simp; omega⟩
  obtain ⟨hvisible, hrest⟩ := visible_append.mp h.visible
  have hunfinished : (unfinished before).length + allowed.length = maxCommandSize := by
    rw [unfinished_of_ended h.starts, List.length_nil, hallowed, Nat.zero_add]
  refine ⟨allowed, byte, more, rfl, hallowed, hvisible, hrest byte List.mem_cons_self,
    hbefore.append_visible hvisible (Nat.le_of_eq hunfinished), ?_⟩
  rw [unfinished_append_visible hvisible, List.length_append]
  exact Nat.le_of_eq hunfinished.symm

namespace Decoder

def holding (run : List UInt8) : Decoder :=
  { pending := run.toArray }

@[simp] theorem size_pending_holding (run : List UInt8) : (holding run).pending.size = run.length :=
  rfl

variable {found : List String}

theorem feedAfter_terminator (h : isTerminator byte) :
    feedAfter found (holding run) (byte :: rest) =
      feedAfter (if run.isEmpty then found else spell run :: found) (holding []) rest := by
  rw [feedAfter, if_pos h]
  cases run <;> rfl

theorem feedAfter_visible (h : isTerminator byte = false) (hlength : run.length < maxCommandSize) :
    feedAfter found (holding run) (byte :: rest) =
      feedAfter found (holding (run ++ [byte])) rest := by
  rw [feedAfter, if_neg (by simp [h]), size_pending_holding, if_pos hlength]
  simp [holding]

theorem feedAfter_oversized (h : isTerminator byte = false)
    (hlength : maxCommandSize ≤ run.length) :
    feedAfter found (holding run) (byte :: rest) =
      (.error (.commandTooLong maxCommandSize), {}) := by
  rw [feedAfter, if_neg (by simp [h]), size_pending_holding, if_neg (by omega)]

/-- While the runs fit, the decoder finds the commands completed and holds the unfinished run. -/
theorem feedAfter_append {seen : List UInt8} (found : List String) (back : List UInt8)
    (h : Fits (seen ++ front)) :
    ∃ lines, commands (seen ++ front) = commands seen ++ lines ∧
      feedAfter found (holding (unfinished seen)) (front ++ back) =
        feedAfter (lines.reverse ++ found) (holding (unfinished (seen ++ front))) back := by
  induction front generalizing found seen with
  | nil => exact ⟨[], by simp, by simp⟩
  | cons byte front ih =>
      rw [List.append_cons] at h ⊢
      by_cases hbyte : isTerminator byte
      · obtain ⟨lines, hlines, hfeed⟩ :=
          ih (if (unfinished seen).isEmpty then found else spell (unfinished seen) :: found) h
        rw [unfinished_concat hbyte] at hfeed
        rw [List.cons_append, feedAfter_terminator hbyte, hfeed, hlines, commands_concat hbyte]
        split
        · exact ⟨lines, by simp, rfl⟩
        · exact ⟨spell (unfinished seen) :: lines, by simp, by simp⟩
      · have hvisible : Visible [byte] := visible_singleton.mpr (by simpa using hbyte)
        obtain ⟨lines, hlines, hfeed⟩ := ih found h
        have hlength := h.of_append _ (unfinished_mem_runs _)
        rw [unfinished_append_visible hvisible, List.length_append, List.length_singleton] at hlength
        refine ⟨lines, ?_, ?_⟩
        · rw [hlines, commands_append_visible hvisible]
        · rw [List.cons_append, feedAfter_visible (by simpa using hbyte) (by omega),
            ← unfinished_append_visible hvisible, hfeed]

def feedAll (d : Decoder) : List (List UInt8) → List (Except Error (List String)) × Decoder
  | [] => ([], d)
  | chunk :: chunks =>
      ((d.feed chunk).1 :: ((d.feed chunk).2.feedAll chunks).1, ((d.feed chunk).2.feedAll chunks).2)

@[simp] theorem feedAll_nil (d : Decoder) : d.feedAll [] = ([], d) := rfl

theorem feedAll_append (d : Decoder) (earlier later : List (List UInt8)) :
    d.feedAll (earlier ++ later) =
      ((d.feedAll earlier).1 ++ ((d.feedAll earlier).2.feedAll later).1,
        ((d.feedAll earlier).2.feedAll later).2) := by
  induction earlier generalizing d with
  | nil => rfl
  | cons chunk earlier ih => simp [feedAll, ih]

theorem feed_of_fits {seen chunk : List UInt8} (h : Fits (seen ++ chunk)) :
    ∃ lines, commands (seen ++ chunk) = commands seen ++ lines ∧
      (holding (unfinished seen)).feed chunk =
        (.ok lines, holding (unfinished (seen ++ chunk))) := by
  obtain ⟨lines, hlines, hfeed⟩ := feedAfter_append [] [] h
  refine ⟨lines, hlines, ?_⟩
  rw [List.append_nil, List.append_nil] at hfeed
  rw [feed, hfeed, feedAfter, List.reverse_reverse]

theorem feedAll_holding {seen : List UInt8} {chunks : List (List UInt8)}
    (h : Fits (seen ++ chunks.flatten)) :
    ∃ lines : List (List String), commands (seen ++ chunks.flatten) = commands seen ++ lines.flatten ∧
      (holding (unfinished seen)).feedAll chunks =
        (lines.map .ok, holding (unfinished (seen ++ chunks.flatten))) := by
  induction chunks generalizing seen with
  | nil => exact ⟨[], by simp, by simp⟩
  | cons chunk chunks ih =>
      rw [List.flatten_cons, ← List.append_assoc] at h ⊢
      obtain ⟨first, hfirst, hfeed⟩ := feed_of_fits h.of_append
      obtain ⟨lines, hlines, hrest⟩ := ih h
      refine ⟨first :: lines, ?_, ?_⟩
      · rw [hlines, hfirst, List.flatten_cons, List.append_assoc]
      · rw [feedAll, hfeed, hrest, List.map_cons]

theorem feedAll_of_fits {chunks : List (List UInt8)} (h : Fits chunks.flatten) :
    ∃ lines : List (List String), lines.flatten = commands chunks.flatten ∧
      feedAll {} chunks = (lines.map .ok, holding (unfinished chunks.flatten)) := by
  have hseen : Fits ([] ++ chunks.flatten) := h
  obtain ⟨lines, hlines, hfeed⟩ := feedAll_holding hseen
  exact ⟨lines, hlines.symm, hfeed⟩

theorem feed_oversized {seen inner outer : List UInt8} (h : Fits (seen ++ inner))
    (hbyte : isTerminator byte = false)
    (hlength : maxCommandSize ≤ (unfinished (seen ++ inner)).length) :
    (holding (unfinished seen)).feed (inner ++ byte :: outer) =
      (.error (.commandTooLong maxCommandSize), {}) := by
  obtain ⟨_, _, hfeed⟩ := feedAfter_append [] (byte :: outer) h
  rw [feed, hfeed, feedAfter_oversized hbyte hlength]

end Decoder

theorem exists_chunk_of_flatten_eq {chunks : List (List UInt8)}
    (h : chunks.flatten = front ++ byte :: back) :
    ∃ earlier inner outer later, chunks = earlier ++ (inner ++ byte :: outer) :: later ∧
      earlier.flatten ++ inner = front := by
  induction chunks generalizing front with
  | nil => simp at h
  | cons chunk chunks ih =>
      rw [List.flatten_cons, List.append_eq_append_iff] at h
      rcases h with ⟨rest, rfl, hrest⟩ | ⟨outer, rfl, houter⟩
      · obtain ⟨earlier, inner, outer, later, rfl, rfl⟩ := ih hrest
        exact ⟨chunk :: earlier, inner, outer, later, rfl, by simp⟩
      · cases outer with
        | nil =>
            have hchunks : chunks.flatten = [] ++ byte :: back := houter.symm
            obtain ⟨earlier, inner, outer, later, rfl, hfront⟩ := ih hchunks
            exact ⟨(front ++ []) :: earlier, inner, outer, later, rfl, by simp [hfront]⟩
        | cons first outer =>
            obtain ⟨rfl, -⟩ := List.cons_eq_cons.mp houter
            exact ⟨[], front, outer, chunks, rfl, rfl⟩

theorem Decoder.feedAll_oversized {before after : List UInt8} {chunks : List (List UInt8)}
    (hchunks : chunks.flatten = before ++ run ++ after) (hrun : IsRun before run after)
    (hbefore : Fits before) (hlength : maxCommandSize < run.length) :
    ∃ (earlier : List (List UInt8)) (chunk : List UInt8) (later : List (List UInt8))
        (lines : List (List String)),
      chunks = earlier ++ chunk :: later ∧
      earlier.flatten.length ≤ before.length + maxCommandSize ∧
      before.length + maxCommandSize < earlier.flatten.length + chunk.length ∧
      feedAll {} (earlier ++ [chunk]) =
        (lines.map .ok ++ [.error (.commandTooLong maxCommandSize)], {}) ∧
      lines.flatten = commands earlier.flatten ∧
      (chunk.length ≤ maxCommandSize → lines.flatten = commands before) := by
  obtain ⟨allowed, byte, more, rfl, hallowed, hvisible, hbyte, hfits, hfull⟩ :=
    hrun.exists_full hbefore hlength
  have hsplit : chunks.flatten = (before ++ allowed) ++ byte :: (more ++ after) := by
    simp [hchunks]
  obtain ⟨earlier, inner, outer, later, rfl, hfront⟩ := exists_chunk_of_flatten_eq hsplit
  rw [← hfront] at hfits hfull
  obtain ⟨lines, hlines, hfeed⟩ := feedAll_of_fits hfits.of_append
  have hposition := congrArg List.length hfront
  rw [List.length_append, List.length_append, hallowed] at hposition
  refine ⟨earlier, inner ++ byte :: outer, later, lines, rfl, by omega, ?_, ?_, hlines, ?_⟩
  · rw [List.length_append, List.length_cons]
    omega
  · rw [feedAll_append, hfeed, feedAll, feed_oversized hfits hbyte hfull, feedAll_nil]
  · intro hchunk
    rw [List.length_append, List.length_cons] at hchunk
    rcases List.append_eq_append_iff.mp hfront with ⟨rest, rfl, rfl⟩ | ⟨begun, hbegun, rfl⟩
    · rw [List.length_append] at hchunk
      omega
    · rw [hlines, hbegun]
      exact commands_append_visible (visible_append.mp hvisible).1

/-- How a stream is cut into chunks does not matter.  When every run fits, each chunk is taken
in, and together they give the commands in the stream.  Otherwise the first chunk that is
refused holds the byte at which the first oversized run exceeds the limit. -/
theorem Decoder.feedAll_chunks (chunks : List (List UInt8)) :
    (Fits chunks.flatten →
      ∃ (lines : List (List String)) (d : Decoder),
        feedAll {} chunks = (lines.map .ok, d) ∧
        lines.flatten = commands chunks.flatten ∧
        d.pending.size = (unfinished chunks.flatten).length) ∧
    (¬ Fits chunks.flatten →
      ∃ before run after, chunks.flatten = before ++ run ++ after ∧ IsRun before run after ∧
        maxCommandSize < run.length ∧ Fits before ∧
        ∃ (earlier : List (List UInt8)) (chunk : List UInt8) (later : List (List UInt8))
            (lines : List (List String)),
          chunks = earlier ++ chunk :: later ∧
          earlier.flatten.length ≤ before.length + maxCommandSize ∧
          before.length + maxCommandSize < earlier.flatten.length + chunk.length ∧
          feedAll {} (earlier ++ [chunk]) =
            (lines.map .ok ++ [.error (.commandTooLong maxCommandSize)], {}) ∧
          lines.flatten = commands earlier.flatten ∧
          ((∀ c ∈ chunks, c.length ≤ maxCommandSize) → lines.flatten = commands before)) := by
  constructor
  · intro h
    obtain ⟨lines, hlines, hfeed⟩ := feedAll_of_fits h
    exact ⟨lines, _, hfeed, hlines, size_pending_holding _⟩
  · intro h
    obtain ⟨before, run, after, hchunks, hrun, hlength, hbefore⟩ := exists_oversized h
    obtain ⟨earlier, chunk, later, lines, rfl, hearlier, hchunk, hfeed, hlines, hkept⟩ :=
      feedAll_oversized hchunks hrun hbefore hlength
    exact ⟨before, run, after, hchunks, hrun, hlength, hbefore, earlier, chunk, later, lines, rfl,
      hearlier, hchunk, hfeed, hlines, fun hsmall => hkept (hsmall chunk (by simp))⟩

end ScriptDebugger.Wire
