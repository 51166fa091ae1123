/-
**Reassembly of messages over calls of `on_msg`.**

`deliver` runs `on_msg` on one connection for a list of calls, each with the results its reads give,
and collects the messages handed to `_msg_cb`; `callBytes` is what the reads returned.

* `onMsg_stream` — a call whose appends copy its chunks continues the stream of frames, whatever its
  earlier calls have left in `_input_buf`;
* `deliver_stream` — so does a list of such calls;
* `deliver_complete` — **when every read returns one whole frame, the messages delivered are the
  payloads whose frames have arrived**, after any number of calls;
* `two_frames_in_one_read` — two frames in one read: the second is lost.
-/

import IkunSvr.Receive.Copies

namespace IkunSvr

open Framing

/-- One call of `on_msg`: what lies behind the terminator of `_input_buf` at each `pick_msg`, the
time, and the results of `::read`. -/
structure Call where
  past : Nat → UInt8 × UInt8
  now : Int
  reads : Reads

/-- The bytes the reads of a call return. -/
def readBytes (results : List ReadResult) : Bytes :=
  (chunks results).flatMap Chunk.bytes

/-- The bytes the reads of some calls return. -/
def callBytes (calls : List Call) : Bytes :=
  calls.flatMap fun call => readBytes call.reads.interim

/-- The connection after some calls of `on_msg`, and the messages handed to `_msg_cb`. -/
def deliver (fuel : Nat) (conn : Connect) : List Call → Option (Except Stop (Connect × List Bytes))
  | [] => some (.ok (conn, []))
  | call :: calls =>
      match conn.onMsg fuel call.past call.now call.reads with
      | none => none
      | some (.error stop) => some (.error stop)
      | some (.ok received) =>
          (deliver fuel received.conn calls).map
            (Except.map fun out => (out.1, received.msgs ++ out.2))

/-- Every read of the call returns one frame, no more and no less: the header at its front is the
number of bytes behind it. -/
def WholeFrames (call : Call) : Prop :=
  ∀ chunk ∈ chunks call.reads.interim, chunkHeader chunk + 4 = chunk.bytes.length

instance (call : Call) : Decidable (WholeFrames call) :=
  inferInstanceAs (Decidable (∀ chunk ∈ chunks call.reads.interim, _))

/-! ### One call -/

/-- The read loop of a call with whole frames appends what its reads returned. -/
theorem readLoop_whole {call : Call} (whole : WholeFrames call) (buffer : Buffer) :
    ∃ copies, readLoop call.reads.interim buffer =
      .ok ({ buffer with buf := buffer.buf ++ readBytes call.reads.interim }, copies) := by
  have same : copiedAll call.reads.interim = readBytes call.reads.interim :=
    List.flatMap_congr fun chunk member => copied_whole (whole chunk member)
  have inside : ∀ chunk ∈ chunks call.reads.interim,
      -4 ≤ chunkHeader chunk ∧ chunkHeader chunk + 4 ≤ bufSize := by
    intro chunk member
    have exact_count := whole chunk member
    have fits := chunk.fits
    exact ⟨by omega, by omega⟩
  rw [← same]
  exact ⟨_, readLoop_eq inside buffer⟩

/-- **One call continues a stream.** Draining the bytes `got` of the earlier calls has left `held`
in `_input_buf`; the call hands over the payloads whose frames its bytes complete. -/
theorem onMsg_stream {payloads taken : List Bytes} {got more held : Bytes} {call : Call}
    {conn : Connect} (fits : headerFormat.Fits payloads)
    (drained : Drains headerFormat.parser got taken held)
    (split : got ++ readBytes call.reads.interim ++ more = headerFormat.stream payloads)
    (whole : WholeFrames call) (ending : call.reads.ending = .eagain)
    (holding : conn.inputBuf = { buf := held }) {fuel : Nat} (enough : payloads.length < fuel) :
    ∃ later held' after, Drains headerFormat.parser (got ++ readBytes call.reads.interim)
        (taken ++ later) held' ∧
      conn.onMsg fuel call.past call.now call.reads = some (.ok ⟨after, later⟩) ∧
      after.inputBuf = { buf := held' } := by
  obtain ⟨later, held', drains, picked⟩ :=
    pickLoop_stream fits drained split enough call.past []
  obtain ⟨copies, read⟩ := readLoop_whole whole conn.inputBuf
  refine ⟨later, held', { conn with
    inputBuf := { buf := held' }
    lastAtTime := if later = [] then conn.lastAtTime else call.now }, drains, ?_, rfl⟩
  rw [Connect.onMsg_eagain read ending, holding, picked]
  rfl

/-! ### Any number of calls -/

/-- **Calls continue a stream**, however their reads cut it into whole frames. -/
theorem deliver_stream {payloads taken : List Bytes} {got more held : Bytes} {calls : List Call}
    {conn : Connect} (fits : headerFormat.Fits payloads)
    (drained : Drains headerFormat.parser got taken held)
    (split : got ++ callBytes calls ++ more = headerFormat.stream payloads)
    (whole : ∀ call ∈ calls, WholeFrames call)
    (ending : ∀ call ∈ calls, call.reads.ending = .eagain)
    (holding : conn.inputBuf = { buf := held }) {fuel : Nat} (enough : payloads.length < fuel) :
    ∃ later held' after, Drains headerFormat.parser (got ++ callBytes calls) (taken ++ later) held' ∧
      deliver fuel conn calls = some (.ok (after, later)) := by
  induction calls generalizing got taken held conn with
  | nil =>
      refine ⟨[], held, conn, ?_, rfl⟩
      simpa [callBytes] using drained
  | cons call calls ih =>
      have bytes : callBytes (call :: calls) = readBytes call.reads.interim ++ callBytes calls := rfl
      rw [bytes, ← List.append_assoc] at split
      obtain ⟨now, middle, after, drainedCall, handled, holdingAfter⟩ :=
        onMsg_stream fits drained (by rw [← List.append_assoc]; exact split)
          (whole call List.mem_cons_self) (ending call List.mem_cons_self) holding enough
      obtain ⟨later, final, last, drainedAll, rest⟩ := ih drainedCall split
        (fun other member => whole other (List.mem_cons_of_mem _ member))
        (fun other member => ending other (List.mem_cons_of_mem _ member)) holdingAfter
      refine ⟨now ++ later, final, last, ?_, ?_⟩
      · rw [bytes, ← List.append_assoc, ← List.append_assoc]
        exact drainedAll
      · rw [deliver, handled]
        simp only
        rw [rest]
        rfl

/-- **Reassembly when every read returns one whole frame.** A prefix of the stream of frames of the
payloads arrives on a fresh connection over any number of calls of `on_msg`, each ending with
`EAGAIN`. The messages handed to `_msg_cb` are, in order and exactly once, the payloads whose frames
are complete in it. -/
theorem deliver_complete {payloads : List Bytes} (fits : headerFormat.Fits payloads)
    {calls : List Call} {more : Bytes}
    (split : callBytes calls ++ more = headerFormat.stream payloads)
    (ending : ∀ call ∈ calls, call.reads.ending = .eagain)
    (whole : ∀ call ∈ calls, WholeFrames call)
    {conn : Connect} (fresh : conn.inputBuf = {}) {fuel : Nat} (enough : payloads.length < fuel) :
    ∃ after, deliver fuel conn calls =
      some (.ok (after, headerFormat.complete payloads (callBytes calls).length)) := by
  rw [← List.nil_append (callBytes calls)] at split
  obtain ⟨messages, held, after, drains, delivered⟩ :=
    deliver_stream fits LengthPrefix.drains_nil split whole ending fresh enough
  rw [List.nil_append] at drains split
  rw [List.nil_append] at drains
  rw [← LengthPrefix.Drains.eq_complete drains fits split]
  exact ⟨after, delivered⟩

/-- A connection that has received nothing. -/
def quietConnect : Connect where
  cchnl :=
    { chnl := { fd := 7, inEp := true, evs := epollIn ||| epollEt }
      interest := fun fd => if fd = 7 then some (epollIn ||| epollEt) else none }
  lastAtTime := 0

theorem quietConnect_live : quietConnect.Live :=
  ⟨rfl, rfl, rfl⟩

/-- A call of `on_msg` whose reads return the chunks, with a signal between them, and end with
`EAGAIN`. -/
def callOf (chunks : List Chunk) : Call where
  past := fun _ => (255, 255)
  now := 1
  reads := ⟨chunks.flatMap fun chunk => [.data chunk, .eintr], .eagain⟩

/-- The frame of `"a"`, of `"b"`, and the two in one read. -/
def frameA : Chunk := ⟨[1, 0, 0, 0, 97], by decide, by decide⟩
def frameB : Chunk := ⟨[1, 0, 0, 0, 98], by decide, by decide⟩
def bothFrames : Chunk := ⟨[1, 0, 0, 0, 97, 1, 0, 0, 0, 98], by decide, by decide⟩

/-- Two frames in two reads of one call, and a third payload that is still to come. -/
theorem deliver_complete_two :
    ∃ after, deliver 4 quietConnect [callOf [frameA, frameB], callOf []] =
      some (.ok (after, [[97], [98]])) := by
  have fits : headerFormat.Fits [[97], [98], [99]] := by
    intro payload member
    rw [headerFormat_limit]
    unfold frameLimit
    simp only [List.mem_cons, List.not_mem_nil, or_false] at member
    rcases member with rfl | rfl | rfl
    all_goals decide
  have split : callBytes [callOf [frameA, frameB], callOf []] ++ [1, 0, 0, 0, 99] =
      headerFormat.stream [[97], [98], [99]] := by
    decide +kernel
  have delivered := deliver_complete fits split (by decide) (by decide +kernel)
    (rfl : quietConnect.inputBuf = {}) (by decide : [[97], [98], [99]].length < 4)
  have arrived : headerFormat.complete [[97], [98], [99]]
      (callBytes [callOf [frameA, frameB], callOf []]).length = [[97], [98]] := by
    decide +kernel
  rw [arrived] at delivered
  exact delivered

/-- **Two frames in one read**: the copy takes the first, and the second is lost. -/
theorem two_frames_in_one_read :
    callBytes [callOf [bothFrames]] = headerFormat.stream [[97], [98]] ∧
      headerFormat.complete [[97], [98]] (callBytes [callOf [bothFrames]]).length =
        [[97], [98]] ∧
      ¬ ∃ after, deliver 3 quietConnect [callOf [bothFrames]] =
        some (.ok (after, [[97], [98]])) := by
  have delivered : (deliver 3 quietConnect [callOf [bothFrames]]).map (Except.map Prod.snd) =
      some (.ok [[97]]) := by
    decide +kernel
  refine ⟨by decide +kernel, by decide +kernel, ?_⟩
  rintro ⟨after, both⟩
  rw [both, Option.map_some, Except.map] at delivered
  simp at delivered

end IkunSvr
