/-
**When a call of `on_msg` returns.**

The inner loop of `on_msg` calls `pick_msg` until it returns `false`. A `pick_msg` that returns
`true` erases `len + 4` bytes (`Takes`, `left`); that is nothing for the length `-4`, and then the
loop goes on with the same buffer for ever. For a length close to the largest `int`, `len + 4`
overflows.

* `pickLoop_diverges_iff`, `pickLoop_returns_iff` — the walk from header to header decides: the loop
  never ends exactly when it meets a length of `-4` (`Sticks`), and returns exactly when it meets
  neither that nor one that overflows (`Overflows`);
* `hangs_iff`, `returns_iff` — so does a call of `on_msg`, on the bytes its read loop has appended;
* `onMsg_returns` — when every read's header is `-4` or from `0` to `1020`, what a call appends is a
  list of whole frames, and it returns with an empty `_input_buf`;
* `onMsg_returns_iff` — **the two together, over every run of calls on a connection**;
* `misaligned_hangs` — a read that appends one byte of its own header, and a call that hangs.
-/

import IkunSvr.Receive.Reassembly

namespace IkunSvr

open Framing

/-! ### What one `pick_msg` takes -/

/-- `pick_msg` finds a header that asks for no more than is buffered. -/
def Takes (str : Bytes) : Prop :=
  4 ≤ str.length ∧ readInt str + 4 ≤ intMax ∧ toSize (readInt str + 4) ≤ str.length

instance (str : Bytes) : Decidable (Takes str) :=
  inferInstanceAs (Decidable (_ ∧ _ ∧ _))

/-- What it leaves then. -/
def left (str : Bytes) : Bytes :=
  str.drop (toSize (readInt str + 4))

/-- The header is one that `len + 4` overflows for. -/
def Overflows (str : Bytes) : Prop :=
  4 ≤ str.length ∧ intMax < readInt str + 4

instance (str : Bytes) : Decidable (Overflows str) :=
  inferInstanceAs (Decidable (_ ∧ _))

/-- The header is a complete one of `-4`. -/
def Sticks (str : Bytes) : Prop :=
  Takes str ∧ readInt str = -4

instance (str : Bytes) : Decidable (Sticks str) :=
  inferInstanceAs (Decidable (_ ∧ _))

section Walk

variable {past : UInt8 × UInt8} {msg str : Bytes}

theorem pickMsg_header (long : 4 ≤ str.length) :
    Buffer.pickMsg past msg { buf := str } =
      Buffer.pickFrame (readInt str) msg { buf := str } :=
  Buffer.pickMsg_long rfl long

theorem pickMsg_takes (takes : Takes str) :
    Buffer.pickMsg past msg { buf := str } =
      .ok (true, (str.drop 4).take (toSize (readInt str)), { buf := left str }) := by
  obtain ⟨long, fits, within⟩ := takes
  have low : intMin ≤ readInt str + 4 := by
    have := (readInt_range str).1
    omega
  rw [pickMsg_header long]
  exact Buffer.pickFrame_accepted low fits long within

/-- A header that asks for more than is buffered, or is not there. -/
theorem pickMsg_waits (stops : ¬ Takes str) (fits : ¬ Overflows str) :
    Buffer.pickMsg past msg { buf := str } = .ok (false, msg, { buf := str }) := by
  by_cases long : 4 ≤ str.length
  · have high : readInt str + 4 ≤ intMax := not_lt.mp fun beyond => fits ⟨long, beyond⟩
    have low : intMin ≤ readInt str + 4 := by
      have := (readInt_range str).1
      omega
    have missing : str.length < toSize (readInt str + 4) := by
      by_contra within
      exact stops ⟨long, high, by omega⟩
    rw [pickMsg_header long]
    exact Buffer.pickFrame_incomplete low high missing
  · exact Buffer.pickMsg_short rfl (not_le.mp long)

theorem pickMsg_overflows (overflows : Overflows str) :
    Buffer.pickMsg past msg { buf := str } = .error .intOverflow :=
  Buffer.pickMsg_overflow rfl overflows.1 overflows.2

/-- Only the length `-4` asks for nothing. -/
theorem toSize_pos {header : Int} (low : intMin ≤ header) (fits : header + 4 ≤ intMax)
    (other : header ≠ -4) : 0 < toSize (header + 4) := by
  unfold intMin at low
  unfold intMax at fits
  unfold toSize
  omega

/-- **Every other `pick_msg` that returns `true` shortens the buffer.** -/
theorem left_shorter (takes : Takes str) (other : readInt str ≠ -4) :
    (left str).length < str.length := by
  obtain ⟨long, fits, _⟩ := takes
  have := toSize_pos (readInt_range str).1 fits other
  unfold left
  rw [List.length_drop]
  omega

theorem left_stuck (stuck : readInt str = -4) : left str = str := by
  unfold left
  rw [stuck]
  rfl

end Walk

/-! ### The loop -/

/-- The walk from header to header comes to a buffer of that kind. -/
inductive Meets (kind : Bytes → Prop) : Bytes → Prop
  | here {str : Bytes} (found : kind str) : Meets kind str
  | later {str : Bytes} (takes : Takes str) (meets : Meets kind (left str)) : Meets kind str

/-- A walk that meets a length of `-4` never gets past it. -/
theorem jams_walk {str : Bytes} (jams : Meets Sticks str) : Takes str ∧ Meets Sticks (left str) := by
  cases jams with
  | here found =>
      refine ⟨found.1, ?_⟩
      rw [left_stuck found.2]
      exact .here found
  | later takes jams => exact ⟨takes, jams⟩

/-- A header that overflows is not taken. -/
theorem Overflows.stops {str : Bytes} (overflows : Overflows str) : ¬ Takes str :=
  fun takes => absurd takes.2.1 (not_le.mpr overflows.2)

theorem pickLoop_takes {str : Bytes} (takes : Takes str) (fuel : Nat) (past : Nat → UInt8 × UInt8)
    (msg : Bytes) :
    pickLoop (fuel + 1) past msg { buf := str } =
      (pickLoop fuel (fun call => past (call + 1)) ((str.drop 4).take (toSize (readInt str)))
        { buf := left str }).map
        (Except.map fun out => ((str.drop 4).take (toSize (readInt str)) :: out.1, out.2)) := by
  rw [pickLoop, pickMsg_takes takes]

theorem pickLoop_jams {str : Bytes} (jams : Meets Sticks str) (fuel : Nat)
    (past : Nat → UInt8 × UInt8) (msg : Bytes) : pickLoop fuel past msg { buf := str } = none := by
  induction fuel generalizing str past msg with
  | zero => rfl
  | succ fuel ih =>
      obtain ⟨takes, behind⟩ := jams_walk jams
      rw [pickLoop_takes takes, ih behind]
      rfl

/-- Where the walk meets a header that overflows, the loop does not return. -/
theorem pickLoop_overflows {str : Bytes} (overflows : Meets Overflows str) (fuel : Nat)
    (past : Nat → UInt8 × UInt8) (msg : Bytes) (out : List Bytes × Buffer) :
    pickLoop fuel past msg { buf := str } ≠ some (.ok out) := by
  induction overflows generalizing fuel past msg out with
  | here found =>
      intro returned
      cases fuel with
      | zero => cases returned
      | succ fuel =>
          rw [pickLoop, pickMsg_overflows found] at returned
          cases returned
  | later takes _ ih =>
      intro returned
      cases fuel with
      | zero => cases returned
      | succ fuel =>
          rw [pickLoop_takes takes] at returned
          obtain ⟨result, rest, same⟩ := Option.map_eq_some_iff.mp returned
          obtain ⟨inner, rfl, _⟩ := map_eq_ok.mp same
          exact ih fuel _ _ inner rest

/-- Without a header of `-4` the walk gets shorter at each step, so the loop ends; and it returns,
unless a header overflows. -/
theorem pickLoop_ends {str : Bytes} (free : ¬ Meets Sticks str) (past : Nat → UInt8 × UInt8)
    (msg : Bytes) :
    ∃ fuel result, pickLoop fuel past msg { buf := str } = some result ∧
      (Meets Overflows str ∨ ∃ out, result = .ok out) := by
  induction size : str.length using Nat.strong_induction_on generalizing str past msg with
  | _ size ih =>
      by_cases takes : Takes str
      · have other : readInt str ≠ -4 := fun stuck => free (.here ⟨takes, stuck⟩)
        have shorter := left_shorter takes other
        obtain ⟨fuel, result, ended, returns⟩ := ih (left str).length (by omega)
          (fun jams => free (.later takes jams)) (fun call => past (call + 1))
          ((str.drop 4).take (toSize (readInt str))) rfl
        refine ⟨fuel + 1, result.map fun out =>
          ((str.drop 4).take (toSize (readInt str)) :: out.1, out.2), ?_, ?_⟩
        · rw [pickLoop_takes takes, ended]
          rfl
        · rcases returns with overflows | ⟨out, rfl⟩
          · exact .inl (.later takes overflows)
          · exact .inr ⟨_, rfl⟩
      · by_cases overflows : Overflows str
        · refine ⟨1, .error .intOverflow, ?_, .inl (.here overflows)⟩
          rw [pickLoop, pickMsg_overflows overflows]
        · refine ⟨1, .ok ([], { buf := str }), ?_, .inr ⟨_, rfl⟩⟩
          rw [pickLoop, pickMsg_waits takes overflows]

/-- **The loop never ends exactly when the walk meets a length of `-4`.** -/
theorem pickLoop_diverges_iff (str : Bytes) (past : Nat → UInt8 × UInt8) (msg : Bytes) :
    (∀ fuel, pickLoop fuel past msg { buf := str } = none) ↔ Meets Sticks str := by
  constructor
  · intro diverges
    by_contra free
    obtain ⟨fuel, result, ended, _⟩ := pickLoop_ends free past msg
    rw [diverges fuel] at ended
    cases ended
  · intro jams fuel
    exact pickLoop_jams jams fuel past msg

/-- **The loop returns exactly when the walk meets neither a length of `-4` nor one that
overflows.** -/
theorem pickLoop_returns_iff (str : Bytes) (past : Nat → UInt8 × UInt8) (msg : Bytes) :
    (∃ fuel out, pickLoop fuel past msg { buf := str } = some (.ok out)) ↔
      ¬ Meets Sticks str ∧ ¬ Meets Overflows str := by
  constructor
  · rintro ⟨fuel, out, returned⟩
    refine ⟨fun jams => ?_, fun overflows => pickLoop_overflows overflows fuel past msg out returned⟩
    rw [pickLoop_jams jams fuel past msg] at returned
    cases returned
  · rintro ⟨free, fits⟩
    obtain ⟨fuel, result, ended, overflows | ⟨out, rfl⟩⟩ := pickLoop_ends free past msg
    · exact absurd overflows fits
    · exact ⟨fuel, out, ended⟩

/-- The loop leaves a buffer of the same kind. -/
theorem pickLoop_framed {fuel : Nat} {past : Nat → UInt8 × UInt8} {msg str : Bytes}
    {msgs : List Bytes} {rest : Buffer}
    (ended : pickLoop fuel past msg { buf := str } = some (.ok (msgs, rest))) : rest.sep = 1 := by
  induction fuel generalizing past msg str msgs with
  | zero => cases ended
  | succ fuel ih =>
      by_cases takes : Takes str
      · rw [pickLoop_takes takes, Option.map_eq_some_iff] at ended
        obtain ⟨result, later, same⟩ := ended
        obtain ⟨out, rfl, both⟩ := map_eq_ok.mp same
        cases both
        exact ih later
      · by_cases overflows : Overflows str
        · rw [pickLoop, pickMsg_overflows overflows] at ended
          cases ended
        · rw [pickLoop, pickMsg_waits takes overflows] at ended
          cases ended
          rfl

/-! ### A call of `on_msg` -/

/-- The call does not end, however many times it calls `pick_msg`. -/
def Hangs (conn : Connect) (call : Call) : Prop :=
  ∀ fuel, conn.onMsg fuel call.past call.now call.reads = none

/-- The call returns, after some number of calls of `pick_msg`. -/
def Returns (conn : Connect) (call : Call) : Prop :=
  ∃ fuel received, conn.onMsg fuel call.past call.now call.reads = some (.ok received)

theorem Hangs.not_returns {conn : Connect} {call : Call} (hangs : Hangs conn call) :
    ¬ Returns conn call := by
  rintro ⟨fuel, received, returned⟩
  rw [hangs fuel] at returned
  cases returned

/-- What is in `_input_buf` when the read loop of the call ends, if its appends stay in the array. -/
def buffered (conn : Connect) (call : Call) : Bytes :=
  conn.inputBuf.buf ++ copiedAll call.reads.interim

/-- Every append of the call stays within the array. -/
def InArray (call : Call) : Prop :=
  ∀ chunk ∈ chunks call.reads.interim, -4 ≤ chunkHeader chunk ∧ chunkHeader chunk + 4 ≤ bufSize

instance (call : Call) : Decidable (InArray call) :=
  inferInstanceAs (Decidable (∀ chunk ∈ chunks call.reads.interim, _))

theorem Buffer.eq_framed {buffer : Buffer} (framed : buffer.sep = 1) (buf : Bytes) :
    { buffer with buf := buf } = { buf := buf } := by
  rw [framed]

theorem readLoop_inArray {call : Call} (inside : InArray call) {buffer : Buffer}
    (framed : buffer.sep = 1) :
    ∃ copies, readLoop call.reads.interim buffer =
      .ok ({ buf := buffer.buf ++ copiedAll call.reads.interim }, copies) := by
  rw [← Buffer.eq_framed framed]
  exact ⟨_, readLoop_eq inside buffer⟩

theorem readLoop_outside {call : Call} (outside : ¬ InArray call) (buffer : Buffer) :
    ∃ stop, readLoop call.reads.interim buffer = .error stop := by
  cases read : readLoop call.reads.interim buffer with
  | error stop => exact ⟨stop, rfl⟩
  | ok result => exact absurd (readLoop_eq_ok read) outside

/-- **A call of `on_msg` never ends** exactly when its reads end with `EAGAIN`, its appends stay in
the array, and the walk over what is then buffered meets a length of `-4`. -/
theorem hangs_iff {conn : Connect} (framed : conn.inputBuf.sep = 1) (call : Call) :
    Hangs conn call ↔ call.reads.ending = .eagain ∧ InArray call ∧
      Meets Sticks (buffered conn call) := by
  by_cases inside : InArray call
  · obtain ⟨copies, read⟩ := readLoop_inArray inside framed
    cases ending : call.reads.ending with
    | eof =>
        refine ⟨fun hangs => ?_, fun ⟨wrong, _⟩ => by cases wrong⟩
        have ended := hangs 0
        rw [Connect.onMsg_eof read ending] at ended
        cases ended
    | eagain =>
        rw [← pickLoop_diverges_iff _ call.past []]
        unfold Hangs
        simp only [Connect.onMsg_eagain read ending, Option.map_eq_none_iff, true_and]
        exact ⟨fun diverges => ⟨inside, diverges⟩, fun diverges => diverges.2⟩
  · obtain ⟨stop, read⟩ := readLoop_outside inside conn.inputBuf
    refine ⟨fun hangs => ?_, fun ⟨_, within, _⟩ => absurd within inside⟩
    have ended := hangs 0
    rw [Connect.onMsg_stops read] at ended
    cases ended

/-- **A call of `on_msg` returns** exactly when its appends stay in the array, and, if its reads end
with `EAGAIN`, the walk over what is then buffered meets neither a length of `-4` nor one that
overflows. One that ends with end of file returns on a connection that has not been closed. -/
theorem returns_iff {conn : Connect} (known : conn.Live ∨ conn.Removed)
    (framed : conn.inputBuf.sep = 1) (call : Call) :
    Returns conn call ↔ InArray call ∧
      (call.reads.ending = .eof → conn.disconn = false) ∧
      (call.reads.ending = .eagain →
        ¬ Meets Sticks (buffered conn call) ∧ ¬ Meets Overflows (buffered conn call)) := by
  by_cases inside : InArray call
  · obtain ⟨copies, read⟩ := readLoop_inArray inside framed
    cases ending : call.reads.ending with
    | eof =>
        unfold Returns
        simp only [Connect.onMsg_eof read ending, inside, true_and, reduceCtorEq, false_implies,
          and_true, forall_const]
        rcases known with live | removed
        · have closing : Connect.Live { conn with inputBuf :=
              { buf := conn.inputBuf.buf ++ copiedAll call.reads.interim } } := live.of_eq rfl rfl
          rw [Connect.onClose, Connect.disconnect_live closing]
          exact iff_of_true ⟨0, _, rfl⟩ live.connected
        · have closing : Connect.Removed { conn with inputBuf :=
              { buf := conn.inputBuf.buf ++ copiedAll call.reads.interim } } :=
            ⟨removed.disconnected, removed.flagged, removed.absent⟩
          rw [Connect.onClose, Connect.disconnect_removed closing]
          refine iff_of_false ?_ removed.not_connected
          rintro ⟨fuel, received, returned⟩
          cases returned
    | eagain =>
        rw [← pickLoop_returns_iff _ call.past []]
        unfold Returns
        simp only [Connect.onMsg_eagain read ending, inside, true_and, reduceCtorEq, false_implies,
          forall_const]
        constructor
        · rintro ⟨fuel, received, returned⟩
          obtain ⟨result, picked, same⟩ := Option.map_eq_some_iff.mp returned
          obtain ⟨out, rfl, _⟩ := map_eq_ok.mp same
          exact ⟨fuel, out, picked⟩
        · rintro ⟨fuel, out, picked⟩
          refine ⟨fuel, _, Option.map_eq_some_iff.mpr ⟨_, picked, rfl⟩⟩
  · obtain ⟨stop, read⟩ := readLoop_outside inside conn.inputBuf
    refine iff_of_false ?_ fun both => inside both.1
    rintro ⟨fuel, received, returned⟩
    rw [Connect.onMsg_stops read] at returned
    cases returned

/-! ### Runs of calls -/

/-- What a call that returns leaves: a buffer of the same kind, and the connection as it was or
closed. -/
theorem onMsg_known {conn : Connect} (known : conn.Live ∨ conn.Removed)
    (framed : conn.inputBuf.sep = 1) {call : Call} {fuel : Nat} {received : Connect.Received}
    (ended : conn.onMsg fuel call.past call.now call.reads = some (.ok received)) :
    (received.conn.Live ∨ received.conn.Removed) ∧ received.conn.inputBuf.sep = 1 := by
  by_cases inside : InArray call
  · obtain ⟨copies, read⟩ := readLoop_inArray inside framed
    cases ending : call.reads.ending with
    | eof =>
        rw [Connect.onMsg_eof read ending, Option.some.injEq, map_eq_ok] at ended
        obtain ⟨closed, removed, rfl⟩ := ended
        have connected := ((returns_iff known framed call).mp
          ⟨fuel, ⟨closed, []⟩, by rw [Connect.onMsg_eof read ending, removed]; rfl⟩).2.1 ending
        have live : Connect.Live { conn with inputBuf :=
            { buf := conn.inputBuf.buf ++ copiedAll call.reads.interim } } :=
          (known.resolve_right fun gone => gone.not_connected connected).of_eq rfl rfl
        rw [Connect.onClose, Connect.disconnect_live live] at removed
        cases removed
        exact ⟨.inr (Connect.removed_of_struck _), rfl⟩
    | eagain =>
        rw [Connect.onMsg_eagain read ending, Option.map_eq_some_iff] at ended
        obtain ⟨inner, picked, done⟩ := ended
        obtain ⟨out, rfl, rfl⟩ := map_eq_ok.mp done
        refine ⟨?_, pickLoop_framed picked⟩
        rcases known with live | removed
        · exact .inl (live.of_eq rfl rfl)
        · exact .inr ⟨removed.disconnected, removed.flagged, removed.absent⟩
  · obtain ⟨stop, read⟩ := readLoop_outside inside conn.inputBuf
    rw [Connect.onMsg_stops read] at ended
    cases ended

theorem deliver_known {conn after : Connect} (known : conn.Live ∨ conn.Removed)
    (framed : conn.inputBuf.sep = 1) {calls : List Call} {fuel : Nat} {msgs : List Bytes}
    (delivered : deliver fuel conn calls = some (.ok (after, msgs))) :
    (after.Live ∨ after.Removed) ∧ after.inputBuf.sep = 1 := by
  induction calls generalizing conn msgs with
  | nil =>
      cases delivered
      exact ⟨known, framed⟩
  | cons call calls ih =>
      rw [deliver] at delivered
      split at delivered
      · cases delivered
      · cases delivered
      · rename_i received ended
        rw [Option.map_eq_some_iff] at delivered
        obtain ⟨result, rest, same⟩ := delivered
        obtain ⟨out, rfl, both⟩ := map_eq_ok.mp same
        cases both
        obtain ⟨knownAfter, framedAfter⟩ := onMsg_known known framed ended
        exact ih knownAfter framedAfter rest

/-! ### Headers that keep the frames aligned -/

/-- Every read's header is `-4`, and nothing is appended, or the length of a message that the array
holds. -/
def Aligned (call : Call) : Prop :=
  ∀ chunk ∈ chunks call.reads.interim,
    chunkHeader chunk = -4 ∨ (0 ≤ chunkHeader chunk ∧ chunkHeader chunk + 4 ≤ bufSize)

instance (call : Call) : Decidable (Aligned call) :=
  inferInstanceAs (Decidable (∀ chunk ∈ chunks call.reads.interim, _))

/-- The message in the array. -/
def payloadOf (chunk : Chunk) : Bytes :=
  ((localBuf chunk).drop 4).take (chunkHeader chunk).toNat

/-- The messages that the reads of a call append. -/
def payloads (results : List ReadResult) : List Bytes :=
  (chunks results).flatMap fun chunk => if chunkHeader chunk = -4 then [] else [payloadOf chunk]

theorem payloadOf_length {chunk : Chunk} (nonneg : 0 ≤ chunkHeader chunk)
    (high : chunkHeader chunk + 4 ≤ bufSize) :
    (payloadOf chunk).length = (chunkHeader chunk).toNat := by
  unfold payloadOf
  rw [List.length_take, List.length_drop, localBuf_length]
  omega

/-- **A length that the array holds appends one frame.** -/
theorem copied_frame {chunk : Chunk} (nonneg : 0 ≤ chunkHeader chunk)
    (high : chunkHeader chunk + 4 ≤ bufSize) :
    copied chunk = headerFormat.frame (payloadOf chunk) := by
  have count : (chunkHeader chunk + 4).toNat = 4 + (chunkHeader chunk).toNat := by omega
  have long : 4 ≤ (localBuf chunk).length := by
    rw [localBuf_length]
    decide
  have front : sizeBytes (payloadOf chunk).length = (localBuf chunk).take 4 := by
    rw [payloadOf_length nonneg high]
    exact sizeBytes_readInt long nonneg
  unfold copied LengthPrefix.frame
  rw [count, List.take_add, ← front]
  rfl

theorem copiedAll_aligned {call : Call} (aligned : Aligned call) :
    copiedAll call.reads.interim = headerFormat.stream (payloads call.reads.interim) := by
  unfold copiedAll LengthPrefix.stream payloads
  rw [List.flatMap_assoc]
  refine List.flatMap_congr fun chunk member => ?_
  rcases aligned chunk member with nothing | ⟨nonneg, high⟩
  · unfold copied
    rw [if_pos nothing, nothing]
    rfl
  · rw [if_neg (by omega), List.flatMap_cons, List.flatMap_nil, List.append_nil]
    exact copied_frame nonneg high

theorem payloads_fit {call : Call} (aligned : Aligned call) :
    headerFormat.Fits (payloads call.reads.interim) := by
  intro payload member
  obtain ⟨chunk, found, inside⟩ := List.mem_flatMap.mp member
  rw [headerFormat_limit]
  rcases aligned chunk found with nothing | ⟨nonneg, high⟩
  · rw [if_pos nothing] at inside
    cases inside
  · rw [if_neg (by omega), List.mem_singleton] at inside
    rw [inside, payloadOf_length nonneg high]
    unfold frameLimit
    unfold bufSize at high
    omega

theorem Aligned.inArray {call : Call} (aligned : Aligned call) : InArray call := by
  intro chunk member
  rcases aligned chunk member with nothing | ⟨nonneg, high⟩
  · exact ⟨by omega, by unfold bufSize; omega⟩
  · exact ⟨by omega, high⟩

/-- **An aligned call returns**, and if it ends with `EAGAIN`, with an empty `_input_buf`. -/
theorem onMsg_returns {conn : Connect} (live : conn.Live) (empty : conn.inputBuf = {}) {call : Call}
    (aligned : Aligned call) :
    ∃ received, (∀ fuel, (payloads call.reads.interim).length < fuel →
        conn.onMsg fuel call.past call.now call.reads = some (.ok received)) ∧
      (call.reads.ending = .eagain → received.conn.Live ∧ received.conn.inputBuf = {}) := by
  have framed : conn.inputBuf.sep = 1 := by rw [empty]
  obtain ⟨copies, read⟩ := readLoop_inArray aligned.inArray framed
  rw [copiedAll_aligned aligned] at read
  cases ending : call.reads.ending with
  | eof =>
      have closing : Connect.Live { conn with
          inputBuf := { buf := headerFormat.stream (payloads call.reads.interim) } } :=
        live.of_eq rfl rfl
      obtain ⟨closed, ran⟩ : ∃ closed, Connect.onClose _ = .ok closed :=
        ⟨_, Connect.disconnect_live closing⟩
      refine ⟨⟨closed, []⟩, fun fuel _ => ?_, fun wrong => by cases wrong⟩
      rw [Connect.onMsg_eof read ending, empty, List.nil_append, ran]
      rfl
  | eagain =>
      refine ⟨⟨{ conn with
          inputBuf := {}
          lastAtTime := if payloads call.reads.interim = [] then conn.lastAtTime else call.now },
        payloads call.reads.interim⟩, fun fuel enough => ?_,
        fun _ => ⟨live.of_eq rfl rfl, rfl⟩⟩
      have fits := payloads_fit aligned
      have picked := pickLoop_drains (LengthPrefix.drains_stream fits) fits
        (List.append_nil _) enough call.past []
      rw [Connect.onMsg_eagain read ending, empty, List.nil_append, picked]
      rfl

/-- **Aligned calls keep a connection live and its `_input_buf` empty.** -/
theorem deliver_aligned {conn : Connect} (live : conn.Live) (empty : conn.inputBuf = {})
    {calls : List Call}
    (aligned : ∀ call ∈ calls, Aligned call ∧ call.reads.ending = .eagain) :
    ∃ enough after msgs, after.Live ∧ after.inputBuf = {} ∧
      ∀ fuel, enough ≤ fuel → deliver fuel conn calls = some (.ok (after, msgs)) := by
  induction calls generalizing conn with
  | nil => exact ⟨0, conn, [], live, empty, fun _ _ => rfl⟩
  | cons call calls ih =>
      obtain ⟨calm, eagain⟩ := aligned call List.mem_cons_self
      obtain ⟨received, ended, kept⟩ := onMsg_returns live empty calm
      obtain ⟨liveAfter, emptyAfter⟩ := kept eagain
      obtain ⟨enough, after, msgs, liveLast, emptyLast, rest⟩ := ih liveAfter emptyAfter
        fun other member => aligned other (List.mem_cons_of_mem _ member)
      refine ⟨enough + (payloads call.reads.interim).length + 1, after, received.msgs ++ msgs,
        liveLast, emptyLast, fun fuel large => ?_⟩
      rw [deliver, ended fuel (by omega)]
      simp only
      rw [rest fuel (by omega)]
      rfl

/-- `after` is a state of the connection between two calls of `on_msg`. -/
def Reached (conn : Connect) (calls : List Call) (after : Connect) : Prop :=
  ∃ fuel msgs, deliver fuel conn calls = some (.ok (after, msgs))

/-- **When `on_msg` cannot be hung.** After any calls on a fresh connection, a call returns exactly
when its appends stay in the array and the walk over what it has buffered at `EAGAIN` meets neither a
length of `-4` nor one that overflows, or it ends with end of file and the connection has not been
closed. Where every read's header is `-4` or from `0` to `1020`, every call returns. -/
theorem onMsg_returns_iff {conn : Connect} (live : conn.Live) (fresh : conn.inputBuf = {}) :
    (∀ calls after, Reached conn calls after → ∀ call,
      Returns after call ↔ InArray call ∧
        (call.reads.ending = .eof → after.disconn = false) ∧
        (call.reads.ending = .eagain →
          ¬ Meets Sticks (buffered after call) ∧ ¬ Meets Overflows (buffered after call))) ∧
    (∀ calls, (∀ call ∈ calls, Aligned call ∧ call.reads.ending = .eagain) →
      ∀ call, Aligned call → ∃ after, Reached conn calls after ∧ Returns after call) := by
  constructor
  · rintro calls after ⟨fuel, msgs, delivered⟩ call
    obtain ⟨known, framed⟩ := deliver_known (.inl live) (by rw [fresh]) delivered
    exact returns_iff known framed call
  · intro calls earlier call aligned
    obtain ⟨enough, after, msgs, liveAfter, emptyAfter, delivered⟩ :=
      deliver_aligned live fresh earlier
    obtain ⟨received, ended, _⟩ := onMsg_returns liveAfter emptyAfter aligned
    exact ⟨after, ⟨enough, msgs, delivered enough le_rfl⟩, _, received, ended _ (Nat.lt_succ_self _)⟩

/-- A call with one frame, and another behind it; a read whose header asks for more than the array
has leaves it. -/
theorem onMsg_returns_iff_frames :
    (∃ after, Reached quietConnect [callOf [frameA]] after ∧ Returns after (callOf [frameB])) ∧
      ¬ Returns quietConnect (callOf [⟨[0, 4, 0, 0], by decide, by decide⟩]) := by
  obtain ⟨exactly, aligned⟩ := onMsg_returns_iff quietConnect_live rfl
  refine ⟨aligned [callOf [frameA]] (by decide +kernel) (callOf [frameB]) (by decide +kernel), ?_⟩
  rw [exactly [] quietConnect ⟨0, [], rfl⟩]
  exact fun both => absurd both.1 (by decide +kernel)

/-- A header of `-3`: the call appends its first byte. -/
def misaligned : Chunk := ⟨[0xfd, 0xff, 0xff, 0xff], by decide, by decide⟩

/-- An empty message: behind that byte it reads as a header of 253. -/
def emptyFrame : Chunk := ⟨[0, 0, 0, 0], by decide, by decide⟩

/-- A message of 252 bytes, the last four of which are a header of `-4`. -/
def jamFrame : Chunk :=
  ⟨[0xfc, 0, 0, 0] ++ List.replicate 248 65 ++ [0xfc, 0xff, 0xff, 0xff], by decide, by decide +kernel⟩

/-- **Three reads that hang the call.** -/
theorem misaligned_hangs :
    Hangs quietConnect (callOf [misaligned, emptyFrame, jamFrame]) ∧
      ¬ Returns quietConnect (callOf [misaligned, emptyFrame, jamFrame]) := by
  have bytes : buffered quietConnect (callOf [misaligned, emptyFrame, jamFrame]) =
      [0xfd, 0, 0, 0, 0] ++ jamFrame.bytes := by
    decide +kernel
  have first : left ([0xfd, 0, 0, 0, 0] ++ jamFrame.bytes) = [0xfc, 0xff, 0xff, 0xff] := by
    decide +kernel
  have hangs : Hangs quietConnect (callOf [misaligned, emptyFrame, jamFrame]) := by
    refine (hangs_iff rfl _).mpr ⟨rfl, by decide +kernel, ?_⟩
    rw [bytes]
    refine .later (by decide +kernel) ?_
    rw [first]
    exact .here (by decide +kernel)
  exact ⟨hangs, hangs.not_returns⟩

end IkunSvr
