import ScriptDebugger.Proofs.Text.Payload
import ScriptDebugger.Wire.Connection

namespace ScriptDebugger.Wire

def cutAtNul : List UInt8 → Option (List UInt8 × List UInt8)
  | [] => none
  | byte :: rest =>
      if byte = 0 then some ([], rest)
      else (cutAtNul rest).map fun (head, behind) => (byte :: head, behind)

def readLength? (bytes : List UInt8) : Option Nat := do
  let digits ← Text.Utf8.decode? bytes
  Text.readDigits? digits

def readBody? (length : Nat) (bytes : List UInt8) : Option (String × List UInt8) :=
  match bytes.drop length with
  | 0 :: behind =>
      (Text.Utf8.decode? (bytes.take length)).map fun body => (String.ofList body, behind)
  | _ => none

/-- The message of the first frame and the bytes behind it, if the frame is complete. -/
def readFrame? (bytes : List UInt8) : Option (String × List UInt8) := do
  let (head, rest) ← cutAtNul bytes
  let length ← readLength? head
  readBody? length rest

theorem length_cutAtNul_lt {bytes head rest : List UInt8} (h : cutAtNul bytes = some (head, rest)) :
    rest.length < bytes.length := by
  induction bytes generalizing head with
  | nil => cases h
  | cons byte bytes ih =>
      rw [cutAtNul] at h
      split at h
      · cases h
        exact Nat.lt_succ_self _
      · obtain ⟨cut, hcut, hpair⟩ := Option.map_eq_some_iff.mp h
        cases hpair
        exact Nat.lt_succ_of_lt (ih hcut)

theorem length_readBody?_lt {length : Nat} {bytes behind : List UInt8} {body : String}
    (h : readBody? length bytes = some (body, behind)) : behind.length < bytes.length := by
  unfold readBody? at h
  split at h
  · rename_i hdrop
    obtain ⟨text, _, hpair⟩ := Option.map_eq_some_iff.mp h
    cases hpair
    have hrest := congrArg List.length hdrop
    simp only [List.length_drop, List.length_cons] at hrest
    omega
  · cases h

theorem length_readFrame?_lt {bytes behind : List UInt8} {body : String}
    (h : readFrame? bytes = some (body, behind)) : behind.length < bytes.length := by
  obtain ⟨⟨head, rest⟩, hcut, h⟩ := Option.bind_eq_some_iff.mp h
  obtain ⟨length, _, hbody⟩ := Option.bind_eq_some_iff.mp h
  exact Nat.lt_trans (length_readBody?_lt hbody) (length_cutAtNul_lt hcut)

def readFrames (bytes : List UInt8) : List String × List UInt8 :=
  match _h : readFrame? bytes with
  | none => ([], bytes)
  | some (body, behind) =>
      let (bodies, left) := readFrames behind
      (body :: bodies, left)
termination_by bytes.length
decreasing_by exact length_readFrame?_lt _h

theorem readFrames_of_none {bytes : List UInt8} (h : readFrame? bytes = none) :
    readFrames bytes = ([], bytes) := by
  rw [readFrames]
  split
  · rfl
  · rename_i hsome
    cases h.symm.trans hsome

theorem readFrames_of_some {bytes behind : List UInt8} {body : String}
    (h : readFrame? bytes = some (body, behind)) :
    readFrames bytes = (body :: (readFrames behind).1, (readFrames behind).2) := by
  rw [readFrames]
  split
  · rename_i hnone
    cases h.symm.trans hnone
  · rename_i hsome
    cases h.symm.trans hsome
    rfl

theorem cutAtNul_append {head : List UInt8} (h : 0 ∉ head) (rest : List UInt8) :
    cutAtNul (head ++ 0 :: rest) = some (head, rest) := by
  induction head with
  | nil => rfl
  | cons byte head ih =>
      obtain ⟨hbyte, hhead⟩ := List.ne_and_not_mem_of_not_mem_cons h
      rw [List.cons_append, cutAtNul, if_neg (Ne.symm hbyte), ih hhead]
      rfl

theorem cutAtNul_eq_none {bytes : List UInt8} (h : 0 ∉ bytes) : cutAtNul bytes = none := by
  induction bytes with
  | nil => rfl
  | cons byte bytes ih =>
      obtain ⟨hbyte, hbytes⟩ := List.ne_and_not_mem_of_not_mem_cons h
      rw [cutAtNul, if_neg (Ne.symm hbyte), ih hbytes]
      rfl

def lengthBytes (body : List UInt8) : List UInt8 :=
  Text.Utf8.encode (Text.digits body.length)

theorem frameBytes_eq (body : List UInt8) :
    frameBytes body = lengthBytes body ++ 0 :: (body ++ [0]) := by
  rw [frameBytes, List.append_assoc]
  rfl

theorem not_mem_lengthBytes (body : List UInt8) : 0 ∉ lengthBytes body := by
  have hdigit : ∀ c ∈ Text.digits body.length, 0 ∉ Text.Utf8.encodeChar c :=
    Text.forall_mem_digits (by decide) _
  intro hmem
  obtain ⟨c, hc, hzero⟩ := List.mem_flatMap.mp hmem
  exact hdigit c hc hzero

theorem readLength?_lengthBytes (body : List UInt8) :
    readLength? (lengthBytes body) = some body.length := by
  rw [readLength?, lengthBytes, Text.Utf8.decode?_encode]
  exact (Text.readDigits?_eq (Text.digits_ne_nil _)).trans (Text.readDigitsFrom_digits _)

theorem readFrame?_of_head (body rest : List UInt8) :
    readFrame? (lengthBytes body ++ 0 :: rest) = readBody? body.length rest := by
  simp only [readFrame?, cutAtNul_append (not_mem_lengthBytes body), readLength?_lengthBytes,
    Option.bind_eq_bind, Option.bind_some]

theorem readFrame?_frame (body : String) (rest : List UInt8) :
    readFrame? (frame body ++ rest) = some (body, rest) := by
  have hsplit : ∀ bytes : List UInt8, frameBytes bytes ++ rest =
      lengthBytes bytes ++ 0 :: (bytes ++ 0 :: rest) := by
    intro bytes
    rw [frameBytes_eq]
    simp
  rw [frame, hsplit, readFrame?_of_head, readBody?, List.drop_left, List.take_left]
  simp only [Text.Utf8.decode?_encode, Option.map_some, String.ofList_toList]

theorem readFrame?_of_incomplete {body : String} {stream more : List UInt8}
    (h : stream ++ more = frame body) (hmore : more ≠ []) : readFrame? stream = none := by
  rw [frame, frameBytes_eq] at h
  generalize Text.Utf8.encode body.toList = bytes at h
  have hunread : ∀ {bytes : List UInt8}, 0 ∉ bytes → readFrame? bytes = none := by
    intro bytes hzero
    rw [readFrame?, cutAtNul_eq_none hzero]
    rfl
  rcases List.append_eq_append_iff.mp h with ⟨rest, hhead, _⟩ | ⟨rest, hstream, hrest⟩
  · refine hunread fun hmem => not_mem_lengthBytes bytes ?_
    rw [hhead]
    exact List.mem_append_left _ hmem
  · cases rest with
    | nil =>
        rw [hstream, List.append_nil]
        exact hunread (not_mem_lengthBytes bytes)
    | cons first rest =>
        rw [List.cons_append, List.cons.injEq] at hrest
        obtain ⟨rfl, hbody⟩ := hrest
        have hlength := congrArg List.length hbody
        have hpos := List.length_pos_iff.mpr hmore
        simp only [List.length_append, List.length_singleton] at hlength
        rw [hstream, readFrame?_of_head, readBody?, List.drop_eq_nil_of_le (by omega)]

def stream (bodies : List String) : List UInt8 :=
  bodies.flatMap frame

@[simp] theorem stream_nil : stream [] = [] := rfl

@[simp] theorem stream_cons (body : String) (bodies : List String) :
    stream (body :: bodies) = frame body ++ stream bodies := rfl

theorem readFrames_stream (bodies : List String) : readFrames (stream bodies) = (bodies, []) := by
  induction bodies with
  | nil => exact readFrames_of_none rfl
  | cons body bodies ih => rw [stream_cons, readFrames_of_some (readFrame?_frame body _), ih]

/-- The frame of a message is among the bytes of a stream that have arrived. -/
def Arrived (bodies : List String) (bytes : List UInt8) (n : Nat) : Prop :=
  n < bodies.length ∧ stream (bodies.take (n + 1)) <+: bytes

theorem arrived_zero (body : String) (bodies : List String) (rest : List UInt8) :
    Arrived (body :: bodies) (frame body ++ rest) 0 :=
  ⟨Nat.zero_lt_succ _, by simp⟩

theorem arrived_succ (body : String) (bodies : List String) (rest : List UInt8) (n : Nat) :
    Arrived (body :: bodies) (frame body ++ rest) (n + 1) ↔ Arrived bodies rest n := by
  simp [Arrived, List.prefix_append_right_inj]

theorem not_arrived {body : String} {bodies : List String} {bytes : List UInt8}
    (hshort : bytes.length < (frame body).length) (n : Nat) :
    ¬Arrived (body :: bodies) bytes n := by
  rintro ⟨_, hprefix⟩
  have hlength := hprefix.length_le
  rw [List.take_succ_cons, stream_cons, List.length_append] at hlength
  omega

theorem readFrames_of_prefix {bodies : List String} {bytes : List UInt8}
    (h : bytes <+: stream bodies) :
    ∃ count left, readFrames bytes = (bodies.take count, left) ∧
      bytes = stream (bodies.take count) ++ left ∧ ∀ n, Arrived bodies bytes n ↔ n < count := by
  induction bodies generalizing bytes with
  | nil =>
      obtain rfl := List.prefix_nil.mp h
      exact ⟨0, [], readFrames_of_none rfl, rfl, by simp [Arrived]⟩
  | cons body bodies ih =>
      obtain ⟨more, hmore⟩ := h
      rw [stream_cons] at hmore
      by_cases hshort : bytes.length < (frame body).length
      · obtain ⟨rest, hframe⟩ : bytes <+: frame body :=
          List.prefix_of_prefix_length_le ⟨more, hmore⟩ (List.prefix_append _ _)
            (Nat.le_of_lt hshort)
        have hrest : rest ≠ [] := by
          rintro rfl
          rw [List.append_nil] at hframe
          rw [hframe] at hshort
          exact Nat.lt_irrefl _ hshort
        refine ⟨0, bytes, readFrames_of_none (readFrame?_of_incomplete hframe hrest), rfl, ?_⟩
        intro n
        exact iff_of_false (not_arrived hshort n) (Nat.not_lt_zero n)
      · obtain ⟨rest, rfl⟩ : frame body <+: bytes :=
          List.prefix_of_prefix_length_le (List.prefix_append _ _) ⟨more, hmore⟩
            (Nat.le_of_not_lt hshort)
        rw [List.append_assoc] at hmore
        obtain ⟨count, left, hread, hleft, harrived⟩ := ih ⟨more, List.append_cancel_left hmore⟩
        refine ⟨count + 1, left, ?_, ?_, ?_⟩
        · rw [readFrames_of_some (readFrame?_frame body rest), hread]
          rfl
        · rw [List.take_succ_cons, stream_cons, List.append_assoc, ← hleft]
        · intro n
          cases n with
          | zero => exact iff_of_true (arrived_zero body bodies rest) (Nat.zero_lt_succ _)
          | succ n => rw [arrived_succ, harrived, Nat.succ_lt_succ_iff]

theorem readFrames_collect (c : Connection) :
    readFrames c.collect.1.flatten = (c.session.collect.1.map Message.render, []) := by
  rw [← readFrames_stream, stream, List.flatMap_map]
  rfl

/-- A client reads from the frames of messages just these messages, and nothing is left over.  While
the stream is not complete it reads those whose frames have arrived.  So it reads from a connection
what the session has sent. -/
theorem stream_reads_back (bodies : List String) :
    readFrames (stream bodies) = (bodies, []) ∧
      (∀ bytes, bytes <+: stream bodies →
        ∃ count left, readFrames bytes = (bodies.take count, left) ∧
          bytes = stream (bodies.take count) ++ left ∧
          ∀ n, Arrived bodies bytes n ↔ n < count) ∧
      ∀ c : Connection,
        readFrames c.collect.1.flatten = (c.session.collect.1.map Message.render, []) :=
  ⟨readFrames_stream bodies, fun _ hprefix => readFrames_of_prefix hprefix, readFrames_collect⟩

example : readFrames (stream ["1\x00a\x00", "", "ä€"] ++ [0x35, 0]) =
    (["1\x00a\x00", "", "ä€"], [0x35, 0]) := by
  decide +kernel

end ScriptDebugger.Wire
