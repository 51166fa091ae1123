/-
**From `epoll_wait` to a callback: `poller::loop` and `channel::handle_event`.**

* `Poller.loop` — the channels of a batch, with the `_revs` they are given;
* `handleEvent` — the callback a channel with some `_revs` calls;
* `Has` — a mask contains the bits of another.
-/

import IkunSvr.Net.Channel

namespace IkunSvr

def epollPri : Mask := 0x002#32
def epollRdhup : Mask := 0x2000#32

/-! ### Masks -/

/-- `mask` is among the events. -/
def Has (events mask : Mask) : Prop :=
  events &&& mask = mask

instance (events mask : Mask) : Decidable (Has events mask) :=
  inferInstanceAs (Decidable (_ = _))

theorem has_or_self (events mask : Mask) : Has (events ||| mask) mask := by
  unfold Has
  ext bit
  simp only [BitVec.getElem_and, BitVec.getElem_or]
  cases mask[bit] <;> simp

theorem Has.or {events mask : Mask} (has : Has events mask) (more : Mask) :
    Has (events ||| more) mask := by
  unfold Has at has ⊢
  rw [BitVec.and_or_distrib_right, has]
  ext bit
  simp only [BitVec.getElem_and, BitVec.getElem_or]
  cases mask[bit] <;> simp

/-- Clearing other bits. -/
theorem Has.clear {events mask other : Mask} (has : Has events mask) (apart : Has (~~~other) mask) :
    Has (events &&& ~~~other) mask := by
  unfold Has at has apart ⊢
  rw [BitVec.and_assoc, apart, has]

theorem not_has_clear {mask : Mask} (some_bit : mask ≠ 0) (events : Mask) :
    ¬ Has (events &&& ~~~mask) mask := by
  have disjoint : events &&& ~~~mask &&& mask = 0 := by
    ext bit
    simp only [BitVec.getElem_and, BitVec.getElem_not]
    cases mask[bit] <;> simp
  unfold Has
  rw [disjoint]
  exact fun same => some_bit same.symm

/-! ### A batch -/

/-- `poller::loop`: the events of a batch, in order, and the `_revs` their channels get, which is
`this->_evs->events` for every one of them. -/
def Poller.loop {Chnl : Type*} (evs : List (Chnl × Mask)) : List (Chnl × Mask) :=
  match evs with
  | [] => []
  | (_, events) :: _ => evs.map fun ev => (ev.1, events)

/-- The channels are those of the events. -/
theorem Poller.loop_fst {Chnl : Type*} (evs : List (Chnl × Mask)) :
    (Poller.loop evs).map Prod.fst = evs.map Prod.fst := by
  unfold Poller.loop
  split
  · rfl
  · rw [List.map_map]
    rfl

/-- The callbacks of a channel. -/
inductive Callback
  | close
  | read
  | write
  | error
  deriving DecidableEq, Repr

/-- `channel::handle_event`: the callback that is called. -/
def handleEvent (revs : Mask) : Callback :=
  if revs &&& epollRdhup ≠ 0 then .close
  else if revs &&& (epollIn ||| epollPri) ≠ 0 then .read
  else if revs &&& epollOut ≠ 0 then .write
  else .error

end IkunSvr
