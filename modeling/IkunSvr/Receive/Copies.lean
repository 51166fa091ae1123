/-
**What `on_msg` copies into `_input_buf`.**

Each turn of the read loop appends `len + 4` bytes of the local array, `len` being the `int` in its
first four bytes. Four results say when that is a copy of received bytes:

* `readChunk_eq`, `readChunk_eq_ok` — the append is made exactly for headers from `-4` to
  `bufSize - 4`, and then with the count `header + 4`;
* `readChunk_whole_iff` — it copies the chunk, no more and no less, exactly when the header is the
  number of bytes behind it;
* `readLoop_copies_iff` — **no append of a call goes beyond what its read returned exactly when
  every chunk's header is from `-4` to `nread - 4`.**
-/

import IkunSvr.Net.Connect

namespace IkunSvr

theorem localBuf_length (chunk : Chunk) : (localBuf chunk).length = bufSize := by
  have joined : (localBuf chunk).length =
      chunk.bytes.length + (bufSize - chunk.bytes.length) := by
    rw [localBuf, List.length_append, List.length_replicate]
  rw [joined, Nat.add_sub_cancel' chunk.fits]

/-- The chunk stands at the front of the array. -/
theorem localBuf_take (chunk : Chunk) : (localBuf chunk).take chunk.bytes.length = chunk.bytes := by
  rw [localBuf, List.take_left]

/-- The bytes that a turn of the read loop appends for a header from `-4` to `bufSize - 4`. -/
def copied (chunk : Chunk) : Bytes :=
  (localBuf chunk).take (chunkHeader chunk + 4).toNat

/-- With as many bytes behind the header as it says, those are the chunk. -/
theorem copied_whole {chunk : Chunk} (whole : chunkHeader chunk + 4 = chunk.bytes.length) :
    copied chunk = chunk.bytes := by
  have count : (chunkHeader chunk + 4).toNat = chunk.bytes.length := by omega
  unfold copied
  rw [count, localBuf_take]

theorem chunkHeader_range (chunk : Chunk) :
    intMin ≤ chunkHeader chunk ∧ chunkHeader chunk ≤ intMax :=
  readInt_range _

/-! ### One turn of the read loop -/

/-- A header from `-4` to `bufSize - 4` appends `header + 4` bytes of the array. -/
theorem readChunk_eq {chunk : Chunk} (low : -4 ≤ chunkHeader chunk)
    (high : chunkHeader chunk + 4 ≤ bufSize) (buffer : Buffer) :
    readChunk chunk buffer = .ok ({ buffer with buf := buffer.buf ++ copied chunk },
      { nread := chunk.bytes.length, count := (chunkHeader chunk + 4).toNat }) := by
  have fits : chunkHeader chunk + 4 ≤ intMax := by
    unfold intMax
    unfold bufSize at high
    omega
  have count : toSize (chunkHeader chunk + 4) = (chunkHeader chunk + 4).toNat :=
    toSize_of_nonneg (by omega) fits
  have appended : buffer.append (localBuf chunk) (chunkHeader chunk + 4).toNat =
      .ok { buffer with buf := buffer.buf ++ copied chunk } :=
    Buffer.append_eq (by rw [localBuf_length]; exact Int.toNat_le.mpr high)
      (by unfold maxSize; unfold bufSize at high; omega)
  rw [readChunk_bind, addInt_ok (by unfold intMin; omega) fits, Except.bind, count, appended,
    Except.map]

/-- **An append that is made has a header from `-4` to `bufSize - 4`.** -/
theorem readChunk_eq_ok {chunk : Chunk} {buffer next : Buffer} {copy : Copy}
    (read : readChunk chunk buffer = .ok (next, copy)) :
    -4 ≤ chunkHeader chunk ∧ chunkHeader chunk + 4 ≤ bufSize := by
  have range := chunkHeader_range chunk
  rw [readChunk_bind, bind_eq_ok] at read
  obtain ⟨count, sum, rest⟩ := read
  obtain ⟨appended, found, _⟩ := map_eq_ok.mp rest
  obtain ⟨noOverflow, same⟩ := addInt_eq_ok sum
  obtain ⟨within, _⟩ := Buffer.append_eq_ok found
  rw [localBuf_length, same] at within
  by_cases negative : chunkHeader chunk + 4 < 0
  · have large := maxSize_lt_toSize negative (by omega)
    unfold maxSize at large
    unfold bufSize at within
    omega
  · rw [toSize_of_nonneg (by omega) noOverflow] at within
    exact ⟨by omega, Int.toNat_le.mp within⟩

/-- **A turn of the read loop copies the chunk** exactly when the header is the number of bytes
behind it. -/
theorem readChunk_whole_iff (chunk : Chunk) (buffer : Buffer) :
    (∃ copy, readChunk chunk buffer =
        .ok ({ buffer with buf := buffer.buf ++ chunk.bytes }, copy)) ↔
      chunkHeader chunk + 4 = chunk.bytes.length := by
  have fits := chunk.fits
  constructor
  · rintro ⟨copy, read⟩
    obtain ⟨low, high⟩ := readChunk_eq_ok read
    rw [readChunk_eq low high] at read
    simp only [Except.ok.injEq, Prod.mk.injEq, Buffer.mk.injEq, List.append_cancel_left_eq,
      and_true] at read
    have same := congrArg List.length read.1
    unfold copied at same
    rw [List.length_take, localBuf_length] at same
    omega
  · intro whole
    refine ⟨{ nread := chunk.bytes.length, count := (chunkHeader chunk + 4).toNat }, ?_⟩
    rw [readChunk_eq (by omega) (by omega), copied_whole whole]

/-! ### The read loop -/

/-- The bytes a call of `on_msg` appends. -/
def copiedAll (results : List ReadResult) : Bytes :=
  (chunks results).flatMap copied

/-- **The read loop appends `header + 4` bytes for each chunk**, as long as every header is from `-4`
to `bufSize - 4`. -/
theorem readLoop_eq {results : List ReadResult}
    (inside : ∀ chunk ∈ chunks results,
      -4 ≤ chunkHeader chunk ∧ chunkHeader chunk + 4 ≤ bufSize) (buffer : Buffer) :
    readLoop results buffer = .ok ({ buffer with buf := buffer.buf ++ copiedAll results },
      (chunks results).map fun chunk =>
        { nread := chunk.bytes.length, count := (chunkHeader chunk + 4).toNat }) := by
  induction results generalizing buffer with
  | nil => simp [readLoop, copiedAll, chunks]
  | cons result results ih =>
      cases result with
      | data chunk =>
          obtain ⟨low, high⟩ := inside chunk List.mem_cons_self
          have rest := ih (fun other member => inside other (List.mem_cons_of_mem _ member))
            { buffer with buf := buffer.buf ++ copied chunk }
          rw [readLoop_data, readChunk_eq low high, Except.bind, rest, Except.map, List.append_assoc,
            chunks, List.map_cons, copiedAll, copiedAll, chunks, List.flatMap_cons]
      | eintr => exact ih inside buffer
      | other => exact ih inside buffer

/-- A read loop that ends has made every append. -/
theorem readLoop_eq_ok {results : List ReadResult} {buffer final : Buffer} {copies : List Copy}
    (read : readLoop results buffer = .ok (final, copies)) :
    ∀ chunk ∈ chunks results, -4 ≤ chunkHeader chunk ∧ chunkHeader chunk + 4 ≤ bufSize := by
  induction results generalizing buffer final copies with
  | nil =>
      intro chunk member
      cases member
  | cons result results ih =>
      cases result with
      | data chunk =>
          rw [readLoop_data, bind_eq_ok] at read
          obtain ⟨⟨next, copy⟩, found, rest⟩ := read
          obtain ⟨⟨last, more⟩, later, _⟩ := map_eq_ok.mp rest
          intro other member
          rcases List.mem_cons.mp member with rfl | member
          · exact readChunk_eq_ok found
          · exact ih later other member
      | eintr => exact ih read
      | other => exact ih read

/-- **When `on_msg` trusts no length from the wire.** A call makes its appends without overflow,
without reading outside the array and without an exception, each of them of at most as many bytes
as its read returned, exactly when every chunk's first four bytes (a shorter chunk continued by
zeros) are an `int` from `-4` to `nread - 4`. -/
theorem readLoop_copies_iff (results : List ReadResult) (buffer : Buffer) :
    (∃ final copies, readLoop results buffer = .ok (final, copies) ∧
        ∀ copy ∈ copies, copy.count ≤ copy.nread) ↔
      ∀ chunk ∈ chunks results,
        -4 ≤ chunkHeader chunk ∧ chunkHeader chunk + 4 ≤ chunk.bytes.length := by
  constructor
  · rintro ⟨final, copies, read, within⟩ chunk member
    have inside := readLoop_eq_ok read
    rw [readLoop_eq inside] at read
    cases read
    have bound := within _ (List.mem_map_of_mem member)
    simp only at bound
    have low := (inside chunk member).1
    exact ⟨low, by omega⟩
  · intro within
    have inside : ∀ chunk ∈ chunks results,
        -4 ≤ chunkHeader chunk ∧ chunkHeader chunk + 4 ≤ bufSize := by
      intro chunk member
      have bound := within chunk member
      have fits := chunk.fits
      exact ⟨bound.1, by omega⟩
    refine ⟨_, _, readLoop_eq inside buffer, fun copy member => ?_⟩
    obtain ⟨chunk, found, rfl⟩ := List.mem_map.mp member
    have bound := within chunk found
    simp only
    omega

/-- The header of a message of 2000 bytes, arriving alone. -/
def loneHeader : Chunk := ⟨[0xd0, 0x07, 0x00, 0x00], by decide, by decide⟩

/-- **A header larger than the array**: the append reads 980 bytes behind `buf`. -/
theorem readLoop_outOfBounds :
    readLoop [.data loneHeader] {} = .error .outOfBounds ∧
      ¬ ∃ final copies, readLoop [.data loneHeader] {} = .ok (final, copies) ∧
        ∀ copy ∈ copies, copy.count ≤ copy.nread := by
  have outside : readLoop [.data loneHeader] {} = .error .outOfBounds := by decide +kernel
  refine ⟨outside, ?_⟩
  rintro ⟨final, copies, read, _⟩
  rw [outside] at read
  cases read

end IkunSvr
