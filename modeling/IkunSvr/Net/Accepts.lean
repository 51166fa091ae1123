/-
**What `pick_msg` accepts.**

A buffer *holds a frame* when its first four bytes are there, read as an `int` `L ≥ 0`, and `L`
more bytes are buffered behind them (`Buffer.HoldsFrame`).

* `Buffer.pickMsg_holds`, `Buffer.pickMsg_misses` — `pick_msg` on a buffer that holds a frame, and on
  one that does not;
* `pick_msg_exact_iff` — **`pick_msg` accepts the complete frames and nothing else exactly for the
  buffers that are shorter than a header, or whose header is none of `-4 … -1` and at most
  `intMax - 4`**;
* `pickLoop_leaves` — the buffer the inner loop of `on_msg` leaves holds no frame;
* `pick_msg_takes_minus_one` — a header of `-1` is accepted, and three of its bytes are erased.
-/

import IkunSvr.Net.PickLoop

namespace IkunSvr

namespace Buffer

/-- A complete frame stands at the front of the buffer. -/
def HoldsFrame (buffer : Buffer) : Prop :=
  4 ≤ buffer.size ∧ 0 ≤ buffer.header ∧ buffer.header + 4 ≤ (buffer.size : Int)

instance (buffer : Buffer) : Decidable buffer.HoldsFrame :=
  inferInstanceAs (Decidable (_ ∧ _ ∧ _))

/-- `pick_msg` takes the frame at the front, if there is one, and otherwise changes nothing. -/
def PicksFrames (past : UInt8 × UInt8) (str : Bytes) (buffer : Buffer) : Prop :=
  (buffer.HoldsFrame → buffer.pickMsg past str =
    .ok (true, (buffer.buf.drop 4).take buffer.header.toNat,
      { buffer with buf := buffer.buf.drop (4 + buffer.header.toNat) })) ∧
  (¬ buffer.HoldsFrame → buffer.pickMsg past str = .ok (false, str, buffer))

/-- The header, if it is there, is none of `-4 … -1`, and adding four to it does not overflow. -/
def HeaderFair (buffer : Buffer) : Prop :=
  buffer.size < 4 ∨ (buffer.header < -4 ∨ 0 ≤ buffer.header) ∧ buffer.header + 4 ≤ intMax

variable {past : UInt8 × UInt8} {str : Bytes} {buffer : Buffer}

/-- **On a frame whose length is no larger than `intMax - 4`**, `pick_msg` takes it. -/
theorem pickMsg_holds (framed : buffer.sep = 1) (holds : buffer.HoldsFrame)
    (fits : buffer.header + 4 ≤ intMax) :
    buffer.pickMsg past str = .ok (true, (buffer.buf.drop 4).take buffer.header.toNat,
      { buffer with buf := buffer.buf.drop (4 + buffer.header.toNat) }) := by
  obtain ⟨long, nonneg, arrived⟩ := holds
  exact pickMsg_complete framed nonneg fits long arrived

/-- **Without a frame**, and with a fair header, `pick_msg` returns `false`. -/
theorem pickMsg_misses (framed : buffer.sep = 1) (misses : ¬ buffer.HoldsFrame)
    (fair : buffer.HeaderFair) (real : buffer.size ≤ maxSize) :
    buffer.pickMsg past str = .ok (false, str, buffer) := by
  by_cases short : buffer.size < 4
  · exact pickMsg_short framed short
  · have long : 4 ≤ buffer.size := by omega
    obtain ⟨below | nonneg, fits⟩ := fair.resolve_left short
    · exact pickMsg_below framed long below real
    · refine pickMsg_incomplete framed long nonneg fits ?_
      by_contra arrived
      exact misses ⟨long, nonneg, by omega⟩

/-- **A header from `-4` to `-1` is accepted**, though it is no frame's. -/
theorem pickMsg_takes_negative (framed : buffer.sep = 1) (long : 4 ≤ buffer.size)
    (low : -4 ≤ buffer.header) (negative : buffer.header < 0) (real : buffer.size ≤ maxSize) :
    ¬ buffer.PicksFrames past str := by
  intro picks
  have misses : ¬ buffer.HoldsFrame := fun holds => by
    have nonneg := holds.2.1
    omega
  have refused := picks.2 misses
  rw [pickMsg_negative framed long low negative real] at refused
  simp at refused

/-- **A header above `intMax - 4` stops the call**, whether or not its bytes have arrived. -/
theorem pickMsg_stops_above (framed : buffer.sep = 1) (long : 4 ≤ buffer.size)
    (above : intMax < buffer.header + 4) : ¬ buffer.PicksFrames past str := by
  intro picks
  have stops : buffer.pickMsg past str = .error .intOverflow := pickMsg_overflow framed long above
  by_cases holds : buffer.HoldsFrame
  · have taken := picks.1 holds
    rw [stops] at taken
    simp at taken
  · have refused := picks.2 holds
    rw [stops] at refused
    simp at refused

/-- A buffer that `pick_msg` refuses holds no frame. -/
theorem not_holdsFrame_of_refused {rest : Buffer} {str' : Bytes} (framed : buffer.sep = 1)
    (refused : buffer.pickMsg past str = .ok (false, str', rest)) :
    ¬ buffer.HoldsFrame := by
  intro holds
  by_cases fits : buffer.header + 4 ≤ intMax
  · rw [pickMsg_holds framed holds fits] at refused
    simp at refused
  · rw [pickMsg_overflow framed holds.1 (by omega)] at refused
    simp at refused

end Buffer

/-- **When `pick_msg` accepts exactly the complete frames.** For every content of a buffer with
`_sep == 1`, whatever lies behind the string's terminator and whatever `str` holds. -/
theorem pick_msg_exact_iff (content : Block) (past : UInt8 × UInt8) (str : Bytes) :
    Buffer.PicksFrames past str { buf := content.bytes } ↔
      Buffer.HeaderFair { buf := content.bytes } := by
  have real : Buffer.size { buf := content.bytes } ≤ maxSize := content.fits
  constructor
  · intro picks
    unfold Buffer.HeaderFair
    by_contra unfair
    rw [not_or, not_and_or, not_or] at unfair
    obtain ⟨long, negative | above⟩ := unfair
    · exact Buffer.pickMsg_takes_negative rfl (by omega) (by omega) (by omega) real picks
    · exact Buffer.pickMsg_stops_above rfl (by omega) (by omega) picks
  · intro fair
    constructor
    · intro holds
      have fits := (fair.resolve_left (by have := holds.1; omega)).2
      exact Buffer.pickMsg_holds rfl holds fits
    · exact fun misses => Buffer.pickMsg_misses rfl misses fair real

/-- **Four bytes `0xff` are accepted**: the message is empty, and three bytes are erased. -/
theorem pick_msg_takes_minus_one :
    Buffer.pickMsg (0, 0) [] { buf := [255, 255, 255, 255] } = .ok (true, [], { buf := [255] }) ∧
      ¬ Buffer.PicksFrames (0, 0) [] { buf := [255, 255, 255, 255] } := by
  have taken : Buffer.pickMsg (0, 0) [] { buf := [255, 255, 255, 255] } =
      .ok (true, [], { buf := [255] }) := by
    decide +kernel
  refine ⟨taken, fun picks => ?_⟩
  have refused := picks.2 (by decide +kernel)
  rw [taken] at refused
  simp at refused

/-! ### What the inner loop of `on_msg` leaves -/

/-- A call of `pick_msg` that returns keeps the separator kind, and with `false` the buffer. -/
theorem Buffer.pickMsg_leaves {past : UInt8 × UInt8} {str str' : Bytes} {buffer rest : Buffer}
    {found : Bool} (framed : buffer.sep = 1)
    (picked : buffer.pickMsg past str = .ok (found, str', rest)) :
    rest.sep = 1 ∧ (found = false → rest = buffer) := by
  by_cases empty : buffer.size = 0
  · unfold Buffer.pickMsg at picked
    rw [if_pos empty] at picked
    cases picked
    exact ⟨framed, fun _ => rfl⟩
  · rw [Buffer.pickMsg_framed framed empty] at picked
    unfold Buffer.pickFrame Buffer.erase at picked
    obtain ⟨frame, _, picked⟩ := bind_eq_ok.mp picked
    split at picked
    · cases picked
      exact ⟨framed, fun _ => rfl⟩
    · obtain ⟨msg, _, picked⟩ := bind_eq_ok.mp picked
      obtain ⟨left, erased, picked⟩ := bind_eq_ok.mp picked
      obtain ⟨buf, _, rfl⟩ := map_eq_ok.mp erased
      cases picked
      exact ⟨framed, nofun⟩

/-- **The loop ends with a buffer that holds no frame.** -/
theorem pickLoop_leaves {fuel : Nat} {past : Nat → UInt8 × UInt8} {str : Bytes}
    {buffer rest : Buffer} {msgs : List Bytes} (framed : buffer.sep = 1)
    (ended : pickLoop fuel past str buffer = some (.ok (msgs, rest))) :
    rest.sep = 1 ∧ ¬ rest.HoldsFrame := by
  induction fuel generalizing past str buffer msgs with
  | zero => cases ended
  | succ fuel ih =>
      rw [pickLoop] at ended
      split at ended
      · simp at ended
      · rename_i str' left refused
        simp only [Option.some.injEq, Except.ok.injEq, Prod.mk.injEq] at ended
        obtain ⟨-, rfl⟩ := ended
        obtain ⟨kept, same⟩ := Buffer.pickMsg_leaves framed refused
        have holdsNone := Buffer.not_holdsFrame_of_refused framed refused
        rw [← same rfl] at holdsNone
        exact ⟨kept, holdsNone⟩
      · rename_i msg left taken
        rw [Option.map_eq_some_iff] at ended
        obtain ⟨inner, later, same⟩ := ended
        obtain ⟨out, rfl, same⟩ := map_eq_ok.mp same
        cases same
        exact ih (Buffer.pickMsg_leaves framed taken).1 later

end IkunSvr
