/-
**Framing over the buffer: `append_with_sep` against `append` and `pick_msg`.**

`headerFormat` is the frame format of `append_with_sep` with `_sep = 1`, as an instance of
`Framing.LengthPrefix`; its limit `intMax - 4` is the largest length `len + 4` represents.

* `pickMsg_of_next`, `pickMsg_of_incomplete` — one call of `pick_msg` is one step of the format's
  parser, on every complete frame and on every proper prefix of a stream of frames;
* `pickLoop_drains` — calling `pick_msg` until it returns `false` drains the buffer;
* `pickLoop_stream` — the same when bytes arrive behind what an earlier loop left;
* `feed_stream` — any cut of an encoded stream into chunks yields the payloads.

`pickLoop` is the inner loop of `connect::on_msg`. It takes a bound on the calls of `pick_msg` it
makes and is `none` when the loop has not ended within it.
-/

import IkunSvr.Lib.Framing
import IkunSvr.Net.Buffer

namespace IkunSvr

open Framing

/-! ### The frame format -/

/-- The largest payload a frame carries: `len + 4` is an `int`. -/
def frameLimit : Nat := 2 ^ 31 - 5

/-- A header read as a length: not negative, and within the limit. -/
def decodeHeader (header : Bytes) : Option Nat :=
  if 0 ≤ readInt header ∧ readInt header + 4 ≤ intMax then some (readInt header).toNat else none

theorem decodeHeader_sizeBytes {size : Nat} (small : size ≤ frameLimit) (more : Bytes) :
    decodeHeader (sizeBytes size ++ more) = some size := by
  unfold frameLimit at small
  have value : readInt (sizeBytes size ++ more) = size :=
    readInt_sizeBytes (by unfold intMax; omega) more
  unfold decodeHeader
  rw [value, if_pos ⟨by omega, by unfold intMax; omega⟩, Int.toNat_natCast]

/-- **The frame format** of `append_with_sep` with `_sep = 1`. -/
def headerFormat : LengthPrefix UInt8 where
  width := 4
  limit := frameLimit
  encode := sizeBytes
  decode := decodeHeader
  width_pos := by decide
  encode_length := sizeBytes_length
  decode_encode size small := by simpa using decodeHeader_sizeBytes small []

theorem headerFormat_limit : headerFormat.limit = frameLimit := by
  rw [headerFormat]

theorem headerFormat_width : headerFormat.width = 4 := by
  rw [headerFormat]

theorem headerFormat_decode : headerFormat.decode = decodeHeader := by
  rw [headerFormat]

theorem length_le_of_fits {payloads : List Bytes} (fits : headerFormat.Fits payloads)
    {payload : Bytes} (member : payload ∈ payloads) : payload.length ≤ frameLimit := by
  rw [← headerFormat_limit]
  exact fits payload member

/-- `append_with_sep` of every payload in turn. -/
def encodeAll (buffer : Buffer) : List Bytes → Except Stop Buffer
  | [] => .ok buffer
  | payload :: payloads => do
      let next ← buffer.appendWithSep payload payload.length
      encodeAll next payloads

theorem appendWithSep_eq {buffer : Buffer} {payload : Bytes} (framed : buffer.sep = 1)
    (small : payload.length ≤ frameLimit) :
    buffer.appendWithSep payload payload.length =
      .ok { buffer with buf := buffer.buf ++ headerFormat.frame payload } := by
  have sepNe : ¬ buffer.sep = 0 := by
    rw [framed]
    decide
  unfold frameLimit at small
  unfold Buffer.appendWithSep
  rw [if_neg sepNe, if_pos framed,
    Buffer.append_eq (by rw [sizeBytes_length]) (by unfold maxSize; omega)]
  simp only [bind, Except.bind]
  rw [Buffer.append_eq le_rfl (by unfold maxSize; omega), List.take_length,
    List.take_of_length_le (by rw [sizeBytes_length]), List.append_assoc]
  rfl

/-- **The encoder writes the stream of frames.** -/
theorem encodeAll_eq {payloads : List Bytes} (fits : headerFormat.Fits payloads) {buffer : Buffer}
    (framed : buffer.sep = 1) :
    encodeAll buffer payloads =
      .ok { buffer with buf := buffer.buf ++ headerFormat.stream payloads } := by
  induction payloads generalizing buffer with
  | nil => simp [encodeAll, LengthPrefix.stream]
  | cons payload payloads ih =>
      have rest := @ih fits.tail { buffer with buf := buffer.buf ++ headerFormat.frame payload } framed
      rw [encodeAll, appendWithSep_eq framed (length_le_of_fits fits List.mem_cons_self)]
      simp only [bind, Except.bind]
      rw [rest, LengthPrefix.stream_cons, List.append_assoc]

/-! ### One call of `pick_msg` -/

section One

variable {past : UInt8 × UInt8} {str : Bytes} {buffer : Buffer}

/-- **A frame the parser takes is the frame `pick_msg` takes.** -/
theorem pickMsg_of_next (framed : buffer.sep = 1) {message rest : Bytes}
    (found : headerFormat.next buffer.buf = some (message, rest)) :
    buffer.pickMsg past str = .ok (true, message, { buffer with buf := rest }) := by
  obtain ⟨size, decoded, within, sameMessage, sameRest⟩ := LengthPrefix.next_eq_some found
  rw [headerFormat_width] at within sameMessage sameRest
  rw [headerFormat_decode, headerFormat_width] at decoded
  have length : buffer.size = buffer.buf.length := rfl
  have header : readInt (buffer.buf.take 4) = buffer.header := by
    unfold Buffer.header readInt
    rw [List.take_take, min_self]
  unfold decodeHeader at decoded
  rw [header] at decoded
  split at decoded
  · rename_i valid
    simp only [Option.some.injEq] at decoded
    rw [sameMessage, sameRest, ← decoded]
    exact Buffer.pickMsg_complete framed valid.1 valid.2 (by omega) (by omega)
  · cases decoded

/-- The header at the front of a stream of frames is the first payload's length. -/
theorem header_of_stream {payloads : List Bytes} (fits : headerFormat.Fits payloads) {more : Bytes}
    (split : buffer.buf ++ more = headerFormat.stream payloads) (long : 4 ≤ buffer.size) :
    ∃ size ≤ frameLimit, buffer.header = (size : Int) := by
  unfold Buffer.size at long
  cases payloads with
  | nil =>
      have empty := congrArg List.length split
      simp only [List.length_append, LengthPrefix.stream, List.flatMap_nil, List.length_nil] at empty
      omega
  | cons payload payloads =>
      have small := length_le_of_fits fits List.mem_cons_self
      refine ⟨payload.length, small, ?_⟩
      unfold Buffer.header
      rw [← readInt_append long more, split, LengthPrefix.stream_cons, LengthPrefix.frame,
        List.append_assoc]
      unfold frameLimit at small
      exact readInt_sizeBytes (by unfold intMax; omega) _

/-- **A stream cut inside its first frame yields nothing.** -/
theorem pickMsg_of_incomplete (framed : buffer.sep = 1) {payloads : List Bytes}
    (fits : headerFormat.Fits payloads) {more : Bytes}
    (split : buffer.buf ++ more = headerFormat.stream payloads)
    (none_left : headerFormat.next buffer.buf = none) :
    buffer.pickMsg past str = .ok (false, str, buffer) := by
  by_cases long : 4 ≤ buffer.size
  · obtain ⟨size, small, header⟩ := header_of_stream fits split long
    unfold frameLimit at small
    have fitsInt : buffer.header + 4 ≤ intMax := by
      unfold intMax
      omega
    refine Buffer.pickMsg_incomplete framed long (by omega) fitsInt ?_
    by_contra arrived
    have decoded : headerFormat.decode (buffer.buf.take headerFormat.width) = some size := by
      rw [headerFormat_decode, headerFormat_width]
      unfold Buffer.header at header
      unfold decodeHeader readInt
      rw [List.take_take, min_self, ← readInt, header,
        if_pos ⟨by omega, by unfold intMax; omega⟩, Int.toNat_natCast]
    have length : buffer.size = buffer.buf.length := rfl
    have whole : ¬ buffer.buf.length < headerFormat.width + size := by
      rw [headerFormat_width]
      omega
    unfold LengthPrefix.next at none_left
    rw [if_neg (by rw [headerFormat_width]; omega), decoded] at none_left
    simp only [if_neg whole] at none_left
    cases none_left
  · exact Buffer.pickMsg_short framed (by omega)

end One

/-! ### Calling `pick_msg` until it returns `false` -/

/-- The inner loop of `on_msg`, within `fuel` calls of `pick_msg`; `past call` are the bytes behind
the terminator at that call. -/
def pickLoop : Nat → (Nat → UInt8 × UInt8) → Bytes → Buffer →
    Option (Except Stop (List Bytes × Buffer))
  | 0, _, _, _ => none
  | fuel + 1, past, str, buffer =>
      match buffer.pickMsg (past 0) str with
      | .error stop => some (.error stop)
      | .ok (false, _, rest) => some (.ok ([], rest))
      | .ok (true, msg, rest) =>
          (pickLoop fuel (fun call => past (call + 1)) msg rest).map
            (Except.map fun out => (msg :: out.1, out.2))

theorem pickLoop_noExit {fuel : Nat} {past : Nat → UInt8 × UInt8} {str : Bytes} {buffer : Buffer}
    {result : Except Stop (List Bytes × Buffer)}
    (ended : pickLoop fuel past str buffer = some result) : NoExit result := by
  induction fuel generalizing past str buffer result with
  | zero => cases ended
  | succ fuel ih =>
      rw [pickLoop] at ended
      split at ended
      · rename_i stop picked
        cases ended
        intro exits
        cases exits
        exact Buffer.pickMsg_noExit picked
      · cases ended
        exact noExit_ok _
      · rw [Option.map_eq_some_iff] at ended
        obtain ⟨inner, rest, rfl⟩ := ended
        exact (ih rest).map

/-- **The loop drains the buffer**, as far as the buffer is part of a stream of frames. -/
theorem pickLoop_drains {payloads messages : List Bytes} {input more final : Bytes}
    (drains : Drains headerFormat.parser input messages final)
    (fits : headerFormat.Fits payloads) (split : input ++ more = headerFormat.stream payloads)
    {fuel : Nat} (enough : messages.length < fuel) (past : Nat → UInt8 × UInt8) (str : Bytes) :
    pickLoop fuel past str { buf := input } = some (.ok (messages, { buf := final })) := by
  induction drains generalizing payloads fuel past str with
  | @done input empty =>
      obtain ⟨fuel, rfl⟩ : ∃ less, fuel = less + 1 := ⟨fuel - 1, by omega⟩
      rw [LengthPrefix.parser_next] at empty
      have stopped : Buffer.pickMsg (past 0) str { buf := input } =
          .ok (false, str, { buf := input }) :=
        pickMsg_of_incomplete rfl fits split empty
      rw [pickLoop, stopped]
  | @take input rest final message messages found later ih =>
      obtain ⟨fuel, rfl⟩ : ∃ less, fuel = less + 1 := ⟨fuel - 1, by omega⟩
      rw [LengthPrefix.parser_next] at found
      have picked : Buffer.pickMsg (past 0) str { buf := input } =
          .ok (true, message, { buf := rest }) :=
        pickMsg_of_next rfl found
      rw [pickLoop, picked]
      simp only
      rw [List.length_cons] at enough
      obtain ⟨behind, _, fitsBehind, splitBehind⟩ := LengthPrefix.next_stream fits found split
      rw [ih fitsBehind splitBehind (by omega)]
      rfl

/-- **The loop continues a stream.** Bytes `data` arrive behind what draining `got` left; the loop
then takes the payloads whose frames they complete. -/
theorem pickLoop_stream {payloads taken : List Bytes} {got data more held : Bytes}
    (fits : headerFormat.Fits payloads) (drained : Drains headerFormat.parser got taken held)
    (split : got ++ data ++ more = headerFormat.stream payloads) {fuel : Nat}
    (enough : payloads.length < fuel) (past : Nat → UInt8 × UInt8) (str : Bytes) :
    ∃ later held', Drains headerFormat.parser (got ++ data) (taken ++ later) held' ∧
      pickLoop fuel past str { buf := held ++ data } = some (.ok (later, { buf := held' })) := by
  obtain ⟨later, held', second⟩ := Drains.total headerFormat.parser (held ++ data)
  have both := drained.append second
  have few : (taken ++ later).length ≤ payloads.length := by
    rw [LengthPrefix.Drains.eq_complete both fits split]
    exact (LengthPrefix.complete_prefix payloads _).length_le
  rw [List.append_assoc] at split
  obtain ⟨remaining, _, fitsRemaining, splitHeld⟩ := LengthPrefix.Drains.stream_split drained fits split
  rw [← List.append_assoc] at splitHeld
  rw [List.length_append] at few
  exact ⟨later, held', both, pickLoop_drains second fitsRemaining splitHeld (by omega) past str⟩

/-! ### Chunks -/

/-- Append each chunk and call `pick_msg` until it returns `false`, chunk after chunk; a chunk comes
with the bytes behind the terminator at the calls made after it. -/
def feed (fuel : Nat) (buffer : Buffer) :
    List (Block × (Nat → UInt8 × UInt8)) → Option (Except Stop (List Bytes × Buffer))
  | [] => some (.ok ([], buffer))
  | (chunk, past) :: chunks =>
      match buffer.append chunk.bytes chunk.bytes.length with
      | .error stop => some (.error stop)
      | .ok fed =>
          match pickLoop fuel past [] fed with
          | none => none
          | some (.error stop) => some (.error stop)
          | some (.ok (msgs, rest)) =>
              (feed fuel rest chunks).map (Except.map fun out => (msgs ++ out.1, out.2))

/-- The bytes of the chunks, in order. -/
def received (chunks : List (Block × (Nat → UInt8 × UInt8))) : Bytes :=
  chunks.flatMap fun chunk => chunk.1.bytes

/-- **Feeding continues a stream**, however it is cut. -/
theorem feed_stream {payloads taken : List Bytes} {got more held : Bytes}
    {chunks : List (Block × (Nat → UInt8 × UInt8))} (fits : headerFormat.Fits payloads)
    (drained : Drains headerFormat.parser got taken held)
    (split : got ++ received chunks ++ more = headerFormat.stream payloads) {fuel : Nat}
    (enough : payloads.length < fuel) :
    ∃ later held', Drains headerFormat.parser (got ++ received chunks) (taken ++ later) held' ∧
      feed fuel { buf := held } chunks = some (.ok (later, { buf := held' })) := by
  induction chunks generalizing got taken held with
  | nil =>
      refine ⟨[], held, ?_, rfl⟩
      simpa [received] using drained
  | cons chunk chunks ih =>
      obtain ⟨chunk, past⟩ := chunk
      have bytes : received ((chunk, past) :: chunks) = chunk.bytes ++ received chunks := rfl
      rw [bytes, ← List.append_assoc] at split
      obtain ⟨messages, middle, drainedChunk, picked⟩ :=
        pickLoop_stream fits drained (by rw [← List.append_assoc]; exact split) enough past []
      obtain ⟨later, final, drainedAll, rest⟩ := ih drainedChunk split
      refine ⟨messages ++ later, final, ?_, ?_⟩
      · rw [bytes, ← List.append_assoc, ← List.append_assoc]
        exact drainedAll
      · rw [feed, Buffer.append_block]
        simp only
        rw [picked]
        simp only
        rw [rest]
        rfl

/-- Feeding the chunks of a prefix of a stream to an empty buffer yields the complete payloads. -/
theorem feed_complete {payloads : List Bytes} {more : Bytes}
    {chunks : List (Block × (Nat → UInt8 × UInt8))} (fits : headerFormat.Fits payloads)
    (split : received chunks ++ more = headerFormat.stream payloads) {fuel : Nat}
    (enough : payloads.length < fuel) :
    ∃ held, Drains headerFormat.parser (received chunks)
        (headerFormat.complete payloads (received chunks).length) held ∧
      feed fuel {} chunks =
        some (.ok (headerFormat.complete payloads (received chunks).length, { buf := held })) := by
  rw [← List.nil_append (received chunks)] at split
  obtain ⟨messages, held, drains, fed⟩ := feed_stream fits LengthPrefix.drains_nil split enough
  rw [List.nil_append] at drains split
  rw [List.nil_append] at drains
  rw [← LengthPrefix.Drains.eq_complete drains fits split]
  exact ⟨held, drains, fed⟩

/-- **Incremental framing is lossless.** Payloads of at most `2 ^ 31 - 5` bytes are encoded one after
the other; for every cut of the result into chunks, and whatever lies behind the string's
terminator at each call, the messages picked after each prefix of the chunks are the payloads whose
frames are complete in it, and in the end all of them, with nothing left in the buffer. -/
theorem framing_lossless (payloads : List Bytes)
    (small : ∀ payload ∈ payloads, payload.length ≤ 2 ^ 31 - 5) :
    ∃ encoded, encodeAll {} payloads = .ok encoded ∧
      ∀ chunks : List (Block × (Nat → UInt8 × UInt8)), received chunks = encoded.buf →
        (∀ count, ∃ held, feed (payloads.length + 1) {} (chunks.take count) =
          some (.ok (headerFormat.complete payloads (received (chunks.take count)).length,
            { buf := held }))) ∧
        feed (payloads.length + 1) {} chunks = some (.ok (payloads, {})) := by
  have fits : headerFormat.Fits payloads := by
    intro payload member
    rw [headerFormat_limit]
    exact small payload member
  refine ⟨{ buf := headerFormat.stream payloads }, encodeAll_eq fits rfl, fun chunks cut => ?_⟩
  have cut : received chunks = headerFormat.stream payloads := cut
  constructor
  · intro count
    have split : received (chunks.take count) ++ received (chunks.drop count) =
        headerFormat.stream payloads := by
      rw [← cut, received, received, received, ← List.flatMap_append, List.take_append_drop]
    obtain ⟨held, _, fed⟩ := feed_complete fits split (Nat.lt_succ_self _)
    exact ⟨held, fed⟩
  · have split : received chunks ++ [] = headerFormat.stream payloads := by
      rw [List.append_nil, cut]
    obtain ⟨held, drains, fed⟩ := feed_complete fits split (Nat.lt_succ_self _)
    rw [cut, LengthPrefix.complete_all] at drains fed
    obtain ⟨_, rfl⟩ := drains.unique (LengthPrefix.drains_stream fits)
    exact fed

/-- Two payloads, the second empty, cut inside the first header and inside the first payload. -/
theorem framing_lossless_cut :
    (∀ payload ∈ ([[104, 105], []] : List Bytes), payload.length ≤ 2 ^ 31 - 5) ∧
      feed 3 {} [(⟨[2, 0, 0], by decide⟩, fun _ => (255, 255)),
        (⟨[0, 104], by decide⟩, fun _ => (255, 255)),
        (⟨[105, 0, 0, 0, 0], by decide⟩, fun _ => (255, 255))] =
          some (.ok ([[104, 105], []], {})) := by
  have small : ∀ payload ∈ ([[104, 105], []] : List Bytes), payload.length ≤ 2 ^ 31 - 5 := by
    decide
  obtain ⟨encoded, wrote, fed⟩ := framing_lossless [[104, 105], []] small
  refine ⟨small, (fed _ ?_).2⟩
  have bytes : encodeAll {} [[104, 105], []] =
      .ok { buf := [2, 0, 0, 0, 104, 105, 0, 0, 0, 0] } := by
    decide
  rw [bytes] at wrote
  cases wrote
  rfl

end IkunSvr
