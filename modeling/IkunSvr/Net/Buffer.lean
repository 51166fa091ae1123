/-
**`net/buffer`: the byte buffer and its message framing.**

`Buffer` is the class `buffer`: a `std::string` and its separator kind. The operations are those of
`buffer.cc`; what they do on the frame header `header` (the `int` in the first four bytes) is read
off `pickMsg` once and for all:

* `pickMsg_short` — with fewer than four bytes buffered the result is `false`, whatever lies behind
  the string's terminator;
* `pickMsg_incomplete`, `pickMsg_complete` — a length that has not arrived, and one that has;
* `pickMsg_below` — a header below `-4` is taken for a huge size, so the result is `false`;
* `pickMsg_negative` — a header in `-4 … -1` is accepted: the message is everything behind the
  header, and `header + 4` bytes are erased;
* `pickMsg_overflow` — a header above `intMax - 4` overflows `len + 4`.
-/

import IkunSvr.Memory

namespace IkunSvr

/-! ### The class -/

/-- `class buffer`: `_buf`, and `_sep` (0: no separator; 1: a four-byte header; 2: `"\r\n\r\n"`). -/
structure Buffer where
  buf : Bytes := []
  sep : UInt16 := 1
  deriving DecidableEq, Repr

/-- `std::string::substr`. -/
def substr (str : Bytes) (pos count : Nat) : Except Stop Bytes :=
  if str.length < pos then .error .outOfRange else .ok ((str.drop pos).take count)

/-- `std::string::erase`. -/
def eraseString (str : Bytes) (pos count : Nat) : Except Stop Bytes :=
  if str.length < pos then .error .outOfRange
  else .ok (str.take pos ++ (str.drop pos).drop count)

/-- `std::string::append(data, size)`. The count alone is held against `max_size()`: a string that
fills the address space together with what it already holds is not modelled. -/
def appendString (str data : Bytes) (size : Nat) : Except Stop Bytes :=
  if maxSize < size then .error .lengthError
  else (memcpy data size).map (str ++ ·)

namespace Buffer

/-- `buffer::append`, `data` being the bytes of the object the pointer points into. -/
def append (buffer : Buffer) (data : Bytes) (size : Nat) : Except Stop Buffer :=
  (appendString buffer.buf data size).map fun buf => { buffer with buf := buf }

/-- `buffer::append_with_sep`. -/
def appendWithSep (buffer : Buffer) (data : Bytes) (size : Nat) : Except Stop Buffer :=
  if buffer.sep = 0 then buffer.append data size
  else if buffer.sep = 1 then do
    let headed ← buffer.append (sizeBytes size) 4
    headed.append data size
  else .ok buffer

/-- `buffer::size`. -/
def size (buffer : Buffer) : Nat := buffer.buf.length

/-- `buffer::clear`. -/
def clear (buffer : Buffer) : Buffer := { buffer with buf := [] }

/-- `buffer::erase`. -/
def erase (buffer : Buffer) (pos size : Nat) : Except Stop Buffer :=
  (eraseString buffer.buf pos size).map fun buf => { buffer with buf := buf }

/-- `buffer::pick_msg` with a four-byte header, once the header is read into `len`. -/
def pickFrame (len : Int) (str : Bytes) (buffer : Buffer) :
    Except Stop (Bool × Bytes × Buffer) := do
  let frame ← addInt len 4
  if buffer.size < toSize frame then
    return (false, str, buffer)
  let msg ← substr buffer.buf 4 (toSize len)
  let rest ← buffer.erase 0 (toSize frame)
  return (true, msg, rest)

/-- `buffer::pick_msg`: the result, `str` and the buffer after the call. The header is copied out of
`data()` even when fewer than four bytes are buffered: behind the string stands its terminator, and
behind that the two bytes `past`. -/
def pickMsg (past : UInt8 × UInt8) (str : Bytes) (buffer : Buffer) :
    Except Stop (Bool × Bytes × Buffer) :=
  if buffer.size = 0 then .ok (false, str, buffer)
  else if buffer.sep = 0 then .ok (true, buffer.buf, buffer.clear)
  else if buffer.sep = 1 then
    pickFrame (readInt (buffer.buf ++ [0, past.1, past.2])) str buffer
  else .ok (true, str, buffer)

/-- The frame header: the first four bytes as an `int`. -/
def header (buffer : Buffer) : Int := readInt buffer.buf

/-! ### Appending -/

theorem append_eq {buffer : Buffer} {data : Bytes} {size : Nat} (within : size ≤ data.length)
    (small : size ≤ maxSize) :
    buffer.append data size = .ok { buffer with buf := buffer.buf ++ data.take size } := by
  unfold append appendString memcpy
  rw [if_neg (by omega), if_neg (by omega)]
  rfl

theorem append_block (buffer : Buffer) (data : Block) :
    buffer.append data.bytes data.bytes.length =
      .ok { buffer with buf := buffer.buf ++ data.bytes } := by
  rw [append_eq le_rfl data.fits, List.take_length]

/-- Only a count that lies in the object, and is no larger than a string may be, is appended. -/
theorem append_eq_ok {buffer next : Buffer} {data : Bytes} {size : Nat}
    (appended : buffer.append data size = .ok next) :
    size ≤ data.length ∧ next = { buffer with buf := buffer.buf ++ data.take size } := by
  unfold append appendString memcpy at appended
  split at appended
  · cases appended
  · split at appended
    · cases appended
    · rename_i within
      refine ⟨by omega, ?_⟩
      cases appended
      rfl

theorem append_noExit (buffer : Buffer) (data : Bytes) (size : Nat) :
    NoExit (buffer.append data size) :=
  (NoExit.guard (by decide) (memcpy_noExit data size).map).map

/-! ### Picking a message -/

section Pick

variable {past : UInt8 × UInt8} {str : Bytes} {buffer : Buffer}

theorem pickMsg_framed (framed : buffer.sep = 1) (nonempty : buffer.size ≠ 0) :
    buffer.pickMsg past str =
      pickFrame (readInt (buffer.buf ++ [0, past.1, past.2])) str buffer := by
  have sepNe : ¬ buffer.sep = 0 := by
    rw [framed]
    decide
  unfold pickMsg
  rw [if_neg nonempty, if_neg sepNe, if_pos framed]

/-- With four bytes buffered, what lies behind them is not read. -/
theorem pickMsg_long (framed : buffer.sep = 1) (long : 4 ≤ buffer.size) :
    buffer.pickMsg past str = pickFrame buffer.header str buffer := by
  rw [pickMsg_framed framed (by omega), readInt_append long]
  rfl

/-- A sum beyond the buffer is an incomplete frame. -/
theorem pickFrame_incomplete {len : Int} (low : intMin ≤ len + 4) (high : len + 4 ≤ intMax)
    (missing : buffer.size < toSize (len + 4)) :
    pickFrame len str buffer = .ok (false, str, buffer) := by
  unfold pickFrame
  rw [addInt_ok low high]
  simp only [bind, Except.bind, if_pos missing]
  rfl

/-- A sum within the buffer is an accepted frame. -/
theorem pickFrame_accepted {len : Int} (low : intMin ≤ len + 4) (high : len + 4 ≤ intMax)
    (long : 4 ≤ buffer.size) (within : toSize (len + 4) ≤ buffer.size) :
    pickFrame len str buffer = .ok (true, (buffer.buf.drop 4).take (toSize len),
      { buffer with buf := buffer.buf.drop (toSize (len + 4)) }) := by
  have notShort : ¬ buffer.buf.length < 4 := by
    unfold size at long
    omega
  unfold pickFrame substr erase eraseString
  rw [addInt_ok low high]
  simp only [bind, Except.bind, if_neg (not_lt.mpr within), if_neg notShort, Nat.not_lt_zero,
    if_false, Except.map, List.take_zero, List.drop_zero, List.nil_append]
  rfl

/-- A value with a zero among its three upper bytes is no number from `-4` to `-1`, and adding four
to it does not overflow. -/
theorem readInt_terminated {buf : Bytes} (nonempty : buf ≠ []) (short : buf.length < 4) :
    0 ≤ readInt (buf ++ [0, past.1, past.2]) ∧ readInt (buf ++ [0, past.1, past.2]) + 4 ≤ intMax ∨
      readInt (buf ++ [0, past.1, past.2]) + 4 < 0 := by
  have bound := fun byte : UInt8 => byte.toNat_lt
  unfold intMax
  match buf, nonempty, short with
  | [b₀], _, _ =>
      have b₀_lt := bound b₀
      have b₂_lt := bound past.1
      have b₃_lt := bound past.2
      simp only [List.cons_append, List.nil_append]
      rw [readInt_cons]
      simp only [UInt8.toNat_zero, toInt]
      omega
  | [b₀, b₁], _, _ =>
      have b₀_lt := bound b₀
      have b₁_lt := bound b₁
      have b₃_lt := bound past.1
      simp only [List.cons_append, List.nil_append]
      rw [readInt_cons]
      simp only [UInt8.toNat_zero, toInt]
      omega
  | [b₀, b₁, b₂], _, _ =>
      have b₀_lt := bound b₀
      have b₁_lt := bound b₁
      have b₂_lt := bound b₂
      simp only [List.cons_append, List.nil_append]
      rw [readInt_cons]
      simp only [UInt8.toNat_zero, toInt]
      omega
  | b₀ :: b₁ :: b₂ :: b₃ :: rest, _, short =>
      simp only [List.length_cons] at short
      omega

/-- **Fewer than four bytes are no frame.** One of the bytes copied is the terminator, so `len + 4`
is a size beyond the buffer or negative. -/
theorem pickMsg_short (framed : buffer.sep = 1) (short : buffer.size < 4) :
    buffer.pickMsg past str = .ok (false, str, buffer) := by
  by_cases empty : buffer.size = 0
  · unfold pickMsg
    rw [if_pos empty]
  · have nonempty : buffer.buf ≠ [] := by
      intro none
      exact empty (by rw [size, none, List.length_nil])
    have range := readInt_range (buffer.buf ++ [0, past.1, past.2])
    rw [pickMsg_framed framed empty]
    rcases @readInt_terminated past _ nonempty short with ⟨nonneg, fits⟩ | negative
    · refine pickFrame_incomplete (by unfold intMin; omega) fits ?_
      rw [toSize_of_nonneg (by omega) fits]
      omega
    · have large := maxSize_lt_toSize negative (by omega)
      refine pickFrame_incomplete (by omega) (by unfold intMax; omega) ?_
      unfold maxSize at large
      omega

/-- A length whose bytes have not all arrived. -/
theorem pickMsg_incomplete (framed : buffer.sep = 1) (long : 4 ≤ buffer.size)
    (nonneg : 0 ≤ buffer.header) (fits : buffer.header + 4 ≤ intMax)
    (missing : (buffer.size : Int) < buffer.header + 4) :
    buffer.pickMsg past str = .ok (false, str, buffer) := by
  rw [pickMsg_long framed long]
  refine pickFrame_incomplete (by unfold intMin; omega) fits ?_
  rw [toSize_of_nonneg (by omega) fits]
  omega

/-- **A complete frame**: the message and the bytes behind its frame. -/
theorem pickMsg_complete (framed : buffer.sep = 1) (nonneg : 0 ≤ buffer.header)
    (fits : buffer.header + 4 ≤ intMax) (long : 4 ≤ buffer.size)
    (arrived : buffer.header + 4 ≤ (buffer.size : Int)) :
    buffer.pickMsg past str = .ok (true, (buffer.buf.drop 4).take buffer.header.toNat,
      { buffer with buf := buffer.buf.drop (4 + buffer.header.toNat) }) := by
  have count : toSize (buffer.header + 4) = 4 + buffer.header.toNat := by
    rw [toSize_of_nonneg (by omega) fits]
    omega
  rw [pickMsg_long framed long, pickFrame_accepted (by unfold intMin; omega) fits long
    (by rw [count]; omega), count, toSize_of_nonneg nonneg (by omega)]

/-- A header below `-4` makes `len + 4` negative, which is no size a string has. -/
theorem pickMsg_below (framed : buffer.sep = 1) (long : 4 ≤ buffer.size)
    (below : buffer.header < -4) (real : buffer.size ≤ maxSize) :
    buffer.pickMsg past str = .ok (false, str, buffer) := by
  have low := (readInt_range buffer.buf).1
  have inRange : intMin ≤ buffer.header + 4 := by
    unfold header
    omega
  rw [pickMsg_long framed long]
  refine pickFrame_incomplete inRange (by unfold intMax; omega) ?_
  have := maxSize_lt_toSize (by omega : buffer.header + 4 < 0) inRange
  omega

/-- **A header from `-4` to `-1` is accepted**: `substr` gets a huge count, `erase` gets
`header + 4`, which is at most three bytes and none for `-4`. -/
theorem pickMsg_negative (framed : buffer.sep = 1) (long : 4 ≤ buffer.size)
    (low : -4 ≤ buffer.header) (negative : buffer.header < 0) (real : buffer.size ≤ maxSize) :
    buffer.pickMsg past str = .ok (true, buffer.buf.drop 4,
      { buffer with buf := buffer.buf.drop (buffer.header + 4).toNat }) := by
  have fits : buffer.header + 4 ≤ intMax := by
    unfold intMax
    omega
  have count := toSize_of_nonneg (by omega : 0 ≤ buffer.header + 4) fits
  have large := maxSize_lt_toSize negative (readInt_range buffer.buf).1
  have whole : (buffer.buf.drop 4).take (toSize buffer.header) = buffer.buf.drop 4 := by
    refine List.take_of_length_le ?_
    unfold size at real
    rw [List.length_drop]
    omega
  rw [pickMsg_long framed long, pickFrame_accepted (by unfold intMin; omega) fits long
    (by rw [count]; omega), count, whole]

/-- A header above `intMax - 4` overflows `len + 4`. -/
theorem pickMsg_overflow (framed : buffer.sep = 1) (long : 4 ≤ buffer.size)
    (above : intMax < buffer.header + 4) : buffer.pickMsg past str = .error .intOverflow := by
  rw [pickMsg_long framed long, pickFrame, addInt_overflow above]
  rfl

theorem pickFrame_noExit (len : Int) : NoExit (pickFrame len str buffer) := by
  refine (addInt_noExit len 4).bind fun frame => ?_
  split
  · exact noExit_ok _
  · have found : NoExit (substr buffer.buf 4 (toSize len)) := .guard (by decide) (noExit_ok _)
    have erased : NoExit (eraseString buffer.buf 0 (toSize frame)) :=
      .guard (by decide) (noExit_ok _)
    exact found.bind fun msg => erased.map.bind fun rest => noExit_ok _

theorem pickMsg_noExit : NoExit (buffer.pickMsg past str) := by
  unfold pickMsg
  split
  · exact noExit_ok _
  · split
    · exact noExit_ok _
    · split
      · exact pickFrame_noExit _
      · exact noExit_ok _

end Pick

end Buffer

end IkunSvr
