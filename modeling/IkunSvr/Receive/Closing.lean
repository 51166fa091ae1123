/-
**What end of file leaves in `_input_buf`.**

`on_msg` hands over messages on one exit of its read loop only, at `EAGAIN`. At end of file it calls
`on_close`, and what it has read by then stays in `_input_buf`.

* `Serving` — the connections a loop has between two callbacks; `serving_settled` — their
  `_input_buf` holds no complete frame;
* `whole_holds` — a read of one whole frame, appended to an empty buffer, is a frame it holds;
* `eof_delivers_iff` — **the frames that a call reads before end of file are handed over exactly when
  there are none**; they stay in `_input_buf`, and one of them is complete there unless bytes left over
  from earlier calls begin a frame that swallows it;
* `frame_before_eof` — one frame and end of file in one call: the frame is dropped.
-/

import IkunSvr.Net.Accepts
import IkunSvr.Receive.Hang

namespace IkunSvr

open Framing

/-- A connection between two callbacks of its loop, from its construction on. -/
inductive Serving : Connect → Prop
  | made {conn : Connect} (live : conn.Live) (empty : conn.inputBuf = {}) : Serving conn
  | received {conn : Connect} {fuel : Nat} {call : Call} {received : Connect.Received}
      (serving : Serving conn) (ending : call.reads.ending = .eagain)
      (ended : conn.onMsg fuel call.past call.now call.reads = some (.ok received)) :
      Serving received.conn
  | wrote {conn next : Connect} {sent : Int} {post : Bool} (serving : Serving conn)
      (wrote : conn.writecb sent = .ok (next, post)) : Serving next
  | sent {conn next : Connect} {data : Bytes} {size : Nat} (serving : Serving conn)
      (sent : conn.sendInLoop data size = .ok next) : Serving next

/-- All complete frames have been handed over. -/
structure Settled (conn : Connect) : Prop where
  live : conn.Live
  framed : conn.inputBuf.sep = 1
  drained : ¬ conn.inputBuf.HoldsFrame

/-- Reading leaves the separator kind. -/
theorem readLoop_framed {results : List ReadResult} {buffer final : Buffer} {copies : List Copy}
    (framed : buffer.sep = 1) (read : readLoop results buffer = .ok (final, copies)) :
    final.sep = 1 := by
  rw [readLoop_eq (readLoop_eq_ok read)] at read
  cases read
  exact framed

/-- **A call that ends at `EAGAIN`** leaves a buffer that holds no frame. -/
theorem Settled.received {conn : Connect} (settled : Settled conn) {fuel : Nat} {call : Call}
    {received : Connect.Received} (ending : call.reads.ending = .eagain)
    (ended : conn.onMsg fuel call.past call.now call.reads = some (.ok received)) :
    Settled received.conn := by
  cases read : readLoop call.reads.interim conn.inputBuf with
  | error stop =>
      rw [Connect.onMsg_stops read] at ended
      simp at ended
  | ok out =>
      obtain ⟨buffer, copies⟩ := out
      rw [Connect.onMsg_eagain read ending, Option.map_eq_some_iff] at ended
      obtain ⟨inner, picked, mapped⟩ := ended
      obtain ⟨⟨msgs, rest⟩, rfl, rfl⟩ := map_eq_ok.mp mapped
      have leaves := pickLoop_leaves (readLoop_framed settled.framed read) picked
      exact ⟨settled.live.of_eq rfl rfl, leaves.1, leaves.2⟩

/-- A send changes what is to go out. -/
theorem Settled.sent {conn next : Connect} (settled : Settled conn) {data : Bytes} {size : Nat}
    (sent : conn.sendInLoop data size = .ok next) : Settled next := by
  have armed : conn.cchnl.enableWrite =
      .ok (conn.cchnl.setEvs (conn.cchnl.chnl.evs ||| epollOut)).enlisted :=
    Watch.update_synced (Watch.setEvs_synced.mpr settled.live.synced)
  unfold Connect.sendInLoop at sent
  obtain ⟨outputBuf, _, rest⟩ := bind_eq_ok.mp sent
  obtain ⟨cchnl, enabled, rest⟩ := bind_eq_ok.mp rest
  rw [armed] at enabled
  cases enabled
  cases rest
  exact ⟨settled.live.enlist _ _, settled.framed, settled.drained⟩

/-- **Between two callbacks `_input_buf` holds no complete frame.** -/
theorem serving_settled {conn : Connect} (serving : Serving conn) : Settled conn := by
  induction serving with
  | made live empty =>
      refine ⟨live, by rw [empty], ?_⟩
      rw [empty]
      exact fun holds => absurd holds.1 (by decide)
  | received serving ending ended ih => exact ih.received ending ended
  | @wrote conn next sent post serving wrote ih =>
      rw [Connect.writecb_live ih.live] at wrote
      split at wrote
      · cases wrote
        exact ⟨ih.live.enlist _ _, ih.framed, ih.drained⟩
      · cases wrote
        exact ⟨ih.live.of_eq rfl rfl, ih.framed, ih.drained⟩
  | sent serving sent ih => exact ih.sent sent

/-! ### Whole frames in the buffer -/

/-- The header of a chunk is that of its own bytes, when there are four of them. -/
theorem chunkHeader_long {chunk : Chunk} (long : 4 ≤ chunk.bytes.length) :
    chunkHeader chunk = readInt chunk.bytes :=
  readInt_append long _

/-- A whole frame has a header: three bytes and a zero are no number from `-3` to `-1`. -/
theorem whole_long {chunk : Chunk} (whole : chunkHeader chunk + 4 = chunk.bytes.length) :
    4 ≤ chunk.bytes.length := by
  by_contra short
  obtain ⟨rest, zeros⟩ : ∃ rest, bufSize - chunk.bytes.length = 3 + rest := by
    refine ⟨bufSize - chunk.bytes.length - 3, ?_⟩
    unfold bufSize
    omega
  have padded : localBuf chunk = (chunk.bytes ++ [0, 0, 0]) ++ List.replicate rest 0 := by
    rw [localBuf, zeros, List.replicate_add, List.append_assoc]
    rfl
  have length := List.length_pos_iff.mpr chunk.nonempty
  have header : chunkHeader chunk = readInt (chunk.bytes ++ [0, 0, 0]) := by
    unfold chunkHeader
    rw [padded]
    exact readInt_append (by simp only [List.length_append, List.length_cons]; omega) _
  have range := @Buffer.readInt_terminated (0, 0) _ chunk.nonempty (by omega)
  rw [← header] at range
  omega

/-- **A whole frame, and what is read behind it**, is held by a buffer that was empty. -/
theorem whole_holds {chunk : Chunk} (whole : chunkHeader chunk + 4 = chunk.bytes.length)
    (more : Bytes) : Buffer.HoldsFrame { buf := chunk.bytes ++ more } := by
  have long := whole_long whole
  have header : Buffer.header { buf := chunk.bytes ++ more } = chunkHeader chunk := by
    rw [chunkHeader_long long]
    exact readInt_append long more
  have size : Buffer.size { buf := chunk.bytes ++ more } = chunk.bytes.length + more.length :=
    List.length_append
  refine ⟨?_, ?_, ?_⟩
  · omega
  · omega
  · omega

/-- A read that is a frame comes first, or nothing is read. -/
theorem readBytes_cases {call : Call} (whole : WholeFrames call) :
    chunks call.reads.interim = [] ∧ readBytes call.reads.interim = [] ∨
      ∃ chunk more, chunkHeader chunk + 4 = chunk.bytes.length ∧
        chunks call.reads.interim ≠ [] ∧ readBytes call.reads.interim = chunk.bytes ++ more := by
  unfold WholeFrames at whole
  unfold readBytes
  cases read : chunks call.reads.interim with
  | nil => exact .inl ⟨rfl, rfl⟩
  | cons chunk rest =>
      rw [read] at whole
      exact .inr ⟨chunk, rest.flatMap Chunk.bytes, whole chunk List.mem_cons_self, by simp,
        List.flatMap_cons⟩

/-! ### End of file -/

/-- The messages of the frames that the reads of a call return. -/
def framesRead (call : Call) : List Bytes :=
  (chunks call.reads.interim).map fun chunk => chunk.bytes.drop 4

/-- By the time `_close_cb` runs, every frame that the call has read has been handed to `_msg_cb`, in
order, and `_input_buf` holds no complete frame. -/
def DeliversFirst (fuel : Nat) (conn : Connect) (call : Call) : Prop :=
  ∃ received, conn.onMsg fuel call.past call.now call.reads = some (.ok received) ∧
    received.msgs = framesRead call ∧ ¬ received.conn.inputBuf.HoldsFrame

/-- Bytes left over from earlier calls begin a frame that is not complete with what has been read:
its header is negative, or larger than what lies behind it. -/
def Swallows (held got : Bytes) : Prop :=
  held ≠ [] ∧ (readInt (held ++ got) < 0 ∨
    ((held ++ got).length : Int) < readInt (held ++ got) + 4)

/-- **A call that ends with end of file** hands over nothing and closes the connection, with all it
has read behind what was buffered. -/
theorem onMsg_closes {conn : Connect} (settled : Settled conn) {call : Call}
    (whole : WholeFrames call) (ending : call.reads.ending = .eof) (fuel : Nat) :
    ∃ received, conn.onMsg fuel call.past call.now call.reads = some (.ok received) ∧
      received.msgs = [] ∧
      received.conn.inputBuf = { buf := conn.inputBuf.buf ++ readBytes call.reads.interim } := by
  obtain ⟨copies, read⟩ := readLoop_whole whole conn.inputBuf
  have closing : Connect.Live { conn with inputBuf := { conn.inputBuf with
      buf := conn.inputBuf.buf ++ readBytes call.reads.interim } } :=
    settled.live.of_eq rfl rfl
  rw [Connect.onMsg_eof read ending, Connect.onClose, Connect.disconnect_live closing]
  refine ⟨_, rfl, rfl, ?_⟩
  show Buffer.mk _ conn.inputBuf.sep = _
  rw [settled.framed]

/-- **What is buffered at end of file** is a complete frame, unless nothing has been read or bytes
left over from earlier calls begin a frame that swallows it. -/
theorem holdsFrame_iff {conn : Connect} (settled : Settled conn) {call : Call}
    (whole : WholeFrames call) :
    Buffer.HoldsFrame { buf := conn.inputBuf.buf ++ readBytes call.reads.interim } ↔
      chunks call.reads.interim ≠ [] ∧
        ¬ Swallows conn.inputBuf.buf (readBytes call.reads.interim) := by
  rcases readBytes_cases whole with ⟨nothing, empty⟩ | ⟨chunk, more, frame, something, bytes⟩
  · have same : conn.inputBuf = { buf := conn.inputBuf.buf } := Buffer.eq_framed settled.framed _
    have drained := settled.drained
    rw [same] at drained
    simp [nothing, empty, drained]
  · have long := whole_long frame
    rw [bytes]
    by_cases empty : conn.inputBuf.buf = []
    · have holds := whole_holds frame more
      simp [empty, something, Swallows, holds]
    · have buffered : 4 ≤ (conn.inputBuf.buf ++ (chunk.bytes ++ more)).length := by
        simp only [List.length_append]
        omega
      simp only [something, Swallows, ne_eq, empty, not_false_iff, true_and]
      unfold Buffer.HoldsFrame Buffer.size Buffer.header
      simp only
      omega

/-- **When end of file drops nothing.** A connection between two callbacks, and a call of `on_msg`
whose reads return one whole frame each and then end of file: the frames read are handed over only
where there are none. What is left of them in `_input_buf` is a complete frame, unless bytes left over
from earlier calls swallow it. -/
theorem eof_delivers_iff {conn : Connect} (serving : Serving conn) {call : Call}
    (whole : WholeFrames call) (ending : call.reads.ending = .eof) (fuel : Nat) :
    (DeliversFirst fuel conn call ↔ chunks call.reads.interim = []) ∧
      ∃ received, conn.onMsg fuel call.past call.now call.reads = some (.ok received) ∧
        (received.conn.inputBuf.HoldsFrame ↔ chunks call.reads.interim ≠ [] ∧
          ¬ Swallows conn.inputBuf.buf (readBytes call.reads.interim)) := by
  have settled := serving_settled serving
  obtain ⟨received, ended, silent, left⟩ := onMsg_closes settled whole ending fuel
  have holds := holdsFrame_iff settled whole
  rw [← left] at holds
  refine ⟨⟨?_, fun nothing => ?_⟩, received, ended, holds⟩
  · rintro ⟨other, again, handed, _⟩
    rw [ended] at again
    cases again
    rw [silent] at handed
    exact List.map_eq_nil_iff.mp handed.symm
  · refine ⟨received, ended, ?_, fun frame => (holds.mp frame).1 nothing⟩
    rw [silent, framesRead, nothing, List.map_nil]

/-- A frame that comes in a call of its own is handed over, and end of file behind it drops nothing;
a second frame in the call with end of file is dropped. -/
theorem eof_delivers_quiet :
    ∃ received, quietConnect.onMsg 2 (callOf [frameA]).past 1 (callOf [frameA]).reads =
        some (.ok received) ∧
      received.msgs = [[97]] ∧
      DeliversFirst 1 received.conn ⟨fun _ => (255, 255), 2, ⟨[.eintr], .eof⟩⟩ ∧
      ¬ DeliversFirst 1 received.conn ⟨fun _ => (255, 255), 2, ⟨[.data frameB], .eof⟩⟩ := by
  have first : (quietConnect.onMsg 2 (callOf [frameA]).past 1 (callOf [frameA]).reads).map
      (Except.map Connect.Received.msgs) = some (.ok [[97]]) := by
    decide +kernel
  obtain ⟨result, ended, same⟩ := Option.map_eq_some_iff.mp first
  obtain ⟨received, rfl, handed⟩ := map_eq_ok.mp same
  have serving : Serving received.conn :=
    @Serving.received _ _ (callOf [frameA]) _ (.made quietConnect_live rfl) rfl ended
  refine ⟨received, ended, handed, ?_, ?_⟩
  · exact (eof_delivers_iff serving (by decide +kernel) rfl 1).1.mpr rfl
  · exact mt (eof_delivers_iff serving (by decide +kernel) rfl 1).1.mp nofun

/-- **One frame and end of file in one call**: `on_close` runs with the frame in `_input_buf`, and it
has not been handed over. -/
theorem frame_before_eof :
    Serving quietConnect ∧
      WholeFrames ⟨fun _ => (255, 255), 1, ⟨[.data frameA, .eintr], .eof⟩⟩ ∧
      ¬ DeliversFirst 1 quietConnect ⟨fun _ => (255, 255), 1, ⟨[.data frameA, .eintr], .eof⟩⟩ := by
  have whole : WholeFrames ⟨fun _ => (255, 255), 1, ⟨[.data frameA, .eintr], .eof⟩⟩ := by
    decide +kernel
  refine ⟨.made quietConnect_live rfl, whole, ?_⟩
  obtain ⟨received, ended, silent, _⟩ :=
    onMsg_closes (serving_settled (.made quietConnect_live rfl)) whole rfl 1
  rintro ⟨other, again, handed, _⟩
  rw [ended] at again
  cases again
  rw [silent] at handed
  cases handed

end IkunSvr
