/-
**The timer of an event loop.**

The timerfd is one-shot and its channel edge-triggered: an expiry is reported by one `epoll_wait`,
and only `handle_timer` arms the timer again. `TimerLoop` is an event loop as far as its timer goes:
`run` takes one batch after the other from `poller::loop` and calls `handle_event` of each channel.

* `dispatchAll_eq` — a batch runs `handle_timer` exactly when it has the timer's event and its first
  mask is one that `handle_event` answers with the read callback;
* `timer_alive_iff` — **the timer stays armed, or its expiry unreported, exactly when it has a
  positive interval and every batch with its event has such a first mask**;
* `write_before_timer` — a client's socket is writable in the batch of the expiry.
-/

import IkunSvr.Lib.Run
import IkunSvr.Net.Dispatch

namespace IkunSvr

open Run

/-! ### The loop and its timer -/

/-- A channel of an event loop. -/
inductive LoopChnl
  | timer
  | other (fd : Nat)
  deriving DecidableEq, Repr

/-- The timerfd. -/
inductive TimerFd
  | disarmed
  | armed
  /-- the expiry is yet to be reported -/
  | expired
  deriving DecidableEq, Repr

/-- `::timerfd_settime` with a one-shot value in seconds: zero disarms, and a negative value is
rejected. -/
def TimerFd.settime (timer : TimerFd) (seconds : Int) : TimerFd :=
  if 0 < seconds then .armed else if seconds = 0 then .disarmed else timer

structure TimerLoop where
  timeTvl : Int
  timer : TimerFd
  /-- how often `epoll_wait` has reported an expiry -/
  reported : Nat := 0
  /-- how often `handle_timer` has run -/
  handled : Nat := 0

inductive TimerLabel
  | expire
  /-- `epoll_wait` returns these events -/
  | batch (evs : List (LoopChnl × Mask))

namespace TimerLoop

/-- The constructor: `create_timer_fd`. -/
def create (timeTvl : Int) : TimerLoop where
  timeTvl := timeTvl
  timer := TimerFd.disarmed.settime timeTvl

/-- `handle_timer`, as far as the timer goes. -/
def handleTimer (state : TimerLoop) : TimerLoop :=
  { state with timer := state.timer.settime state.timeTvl, handled := state.handled + 1 }

/-- `handle_event` of a channel with its `_revs`: the timer's has a read callback only. -/
def dispatch (state : TimerLoop) (ev : LoopChnl × Mask) : TimerLoop :=
  match ev.1, handleEvent ev.2 with
  | .timer, .read => state.handleTimer
  | _, _ => state

/-- The batch has the timer's event. -/
def HasTimer (evs : List (LoopChnl × Mask)) : Prop :=
  LoopChnl.timer ∈ evs.map Prod.fst

instance (evs : List (LoopChnl × Mask)) : Decidable (HasTimer evs) :=
  inferInstanceAs (Decidable (_ ∈ _))

/-- epoll lists a channel once, and the timer with `EPOLLIN` when it has expired. -/
def Real (state : TimerLoop) (evs : List (LoopChnl × Mask)) : Prop :=
  (evs.map Prod.fst).Nodup ∧ (HasTimer evs → state.timer = .expired) ∧
    ∀ ev ∈ evs, ev.1 = .timer → ev.2 = epollIn

instance (state : TimerLoop) (evs : List (LoopChnl × Mask)) : Decidable (state.Real evs) :=
  inferInstanceAs (Decidable (_ ∧ _ ∧ _))

/-- `epoll_wait` has reported the events. -/
def report (state : TimerLoop) (evs : List (LoopChnl × Mask)) : TimerLoop :=
  if HasTimer evs then { state with timer := .disarmed, reported := state.reported + 1 } else state

/-- A step. -/
def step (state : TimerLoop) : TimerLabel → Option TimerLoop
  | .expire =>
      match state.timer with
      | .armed => some { state with timer := .expired }
      | _ => none
  | .batch evs =>
      if state.Real evs then some ((Poller.loop evs).foldl dispatch (state.report evs)) else none

/-! ### A timer that is alive -/

/-- The timer is armed or its expiry not yet reported, and every expiry reported was handled. -/
def Alive (state : TimerLoop) : Prop :=
  state.timer ≠ .disarmed ∧ state.handled = state.reported

/-- If the batch has the timer's event, its first mask has `EPOLLIN` or `EPOLLPRI`, and has not
`EPOLLRDHUP`. -/
def Fires (_ : TimerLoop) : TimerLabel → Prop
  | .expire => True
  | .batch evs => HasTimer evs → ∀ first ∈ evs.head?,
      first.2 &&& epollRdhup = 0 ∧ first.2 &&& (epollIn ||| epollPri) ≠ 0

/-! ### One batch -/

theorem handleEvent_eq_read {revs : Mask} :
    handleEvent revs = .read ↔ revs &&& epollRdhup = 0 ∧ revs &&& (epollIn ||| epollPri) ≠ 0 := by
  unfold handleEvent
  split
  · rename_i hung
    exact ⟨nofun, fun reads => absurd reads.1 hung⟩
  · rename_i up
    split
    · rename_i reads
      exact ⟨fun _ => ⟨not_not.mp up, reads⟩, fun _ => rfl⟩
    · rename_i silent
      refine ⟨fun called => ?_, fun reads => absurd reads.2 silent⟩
      split at called
      · cases called
      · cases called

theorem dispatch_other (state : TimerLoop) {chnl : LoopChnl} (elsewhere : chnl ≠ .timer)
    (revs : Mask) : state.dispatch (chnl, revs) = state := by
  unfold dispatch
  split
  · exact absurd ‹_› elsewhere
  · rfl

theorem dispatch_timer (state : TimerLoop) (revs : Mask) :
    state.dispatch (.timer, revs) =
      if handleEvent revs = .read then state.handleTimer else state := by
  unfold dispatch
  cases handleEvent revs <;> rfl

/-- Channels that all have the same `_revs`. -/
theorem dispatchAll_same (chnls : List LoopChnl) (apart : chnls.Nodup) (revs : Mask)
    (state : TimerLoop) :
    (chnls.map fun chnl => (chnl, revs)).foldl dispatch state =
      if LoopChnl.timer ∈ chnls ∧ handleEvent revs = .read then state.handleTimer else state := by
  induction chnls generalizing state with
  | nil => simp
  | cons chnl chnls ih =>
      obtain ⟨new, rest⟩ := List.nodup_cons.mp apart
      rw [List.map_cons, List.foldl_cons, ih rest]
      by_cases here : chnl = .timer
      · subst here
        rw [dispatch_timer, if_neg fun both => new both.1]
        simp
      · rw [dispatch_other state here]
        have elsewhere : ¬ LoopChnl.timer = chnl := fun same => here same.symm
        simp [elsewhere]

/-- **A batch runs `handle_timer` exactly when it has the timer's event and its first mask calls the
read callback.** -/
theorem dispatchAll_eq {evs : List (LoopChnl × Mask)} (apart : (evs.map Prod.fst).Nodup)
    (state : TimerLoop) :
    (Poller.loop evs).foldl dispatch state =
      if HasTimer evs ∧ ∀ first ∈ evs.head?, handleEvent first.2 = .read then state.handleTimer
      else state := by
  unfold Poller.loop
  split
  · simp [HasTimer]
  · rename_i chnl events rest
    have same := dispatchAll_same (((chnl, events) :: rest).map Prod.fst) apart events state
    rw [List.map_map] at same
    rw [show (fun ev : LoopChnl × Mask => (ev.1, events)) =
      (fun chnl => (chnl, events)) ∘ Prod.fst from rfl, same]
    simp [HasTimer]

/-- `Fires` in terms of the callback. -/
theorem fires_iff {state : TimerLoop} {evs : List (LoopChnl × Mask)} :
    state.Fires (.batch evs) ↔
      (HasTimer evs → HasTimer evs ∧ ∀ first ∈ evs.head?, handleEvent first.2 = .read) := by
  constructor
  · intro fires has
    exact ⟨has, fun first member => handleEvent_eq_read.mpr (fires has first member)⟩
  · intro reads has first member
    exact handleEvent_eq_read.mp ((reads has).2 first member)

theorem settime_pos (timer : TimerFd) {seconds : Int} (positive : 0 < seconds) :
    timer.settime seconds = .armed :=
  if_pos positive

/-- Without a positive interval the timer is never armed. -/
theorem create_disarmed {timeTvl : Int} (idle : ¬ 0 < timeTvl) :
    (create timeTvl).timer = .disarmed := by
  show TimerFd.disarmed.settime timeTvl = .disarmed
  rw [TimerFd.settime, if_neg idle]
  split
  · rfl
  · rfl

/-! ### The run -/

/-- An expiry. -/
theorem expire_eq {state next : TimerLoop} (took : state.step .expire = some next) :
    next = { state with timer := .expired } := by
  simp only [step] at took
  split at took
  · exact (Option.some.inj took).symm
  · cases took

/-- A batch is a report and, when the first mask calls the read callback, one `handle_timer`. -/
theorem batch_eq {state next : TimerLoop} {evs : List (LoopChnl × Mask)}
    (took : state.step (.batch evs) = some next) :
    state.Real evs ∧
      next = if HasTimer evs ∧ ∀ first ∈ evs.head?, handleEvent first.2 = .read
        then (state.report evs).handleTimer else state.report evs := by
  simp only [step] at took
  split at took
  · rename_i real
    exact ⟨real, (Option.some.inj took).symm.trans (dispatchAll_eq real.1 _)⟩
  · cases took

/-- **One step.** The timer stays alive when the batch fires. -/
theorem alive_step {state next : TimerLoop} {label : TimerLabel}
    (alive : state.Alive ∧ 0 < state.timeTvl) (fires : state.Fires label)
    (took : state.step label = some next) : next.Alive ∧ 0 < next.timeTvl := by
  obtain ⟨⟨ticking, even⟩, positive⟩ := alive
  cases label with
  | expire =>
      obtain rfl := expire_eq took
      exact ⟨⟨nofun, even⟩, positive⟩
  | batch evs =>
      obtain ⟨-, rfl⟩ := batch_eq took
      by_cases has : HasTimer evs
      · rw [if_pos (fires_iff.mp fires has), report, if_pos has]
        refine ⟨⟨?_, ?_⟩, positive⟩
        · show TimerFd.settime .disarmed state.timeTvl ≠ .disarmed
          rw [settime_pos _ positive]
          nofun
        · show state.handled + 1 = state.reported + 1
          rw [even]
      · rw [if_neg fun both => has both.1, report, if_neg has]
        exact ⟨⟨ticking, even⟩, positive⟩

/-- **One step, the other way.** A batch that does not fire leaves a reported expiry unhandled. -/
theorem fires_of_alive {state next : TimerLoop} {label : TimerLabel}
    (took : state.step label = some next) (after : next.Alive) : state.Fires label := by
  cases label with
  | expire => trivial
  | batch evs =>
      obtain ⟨-, rfl⟩ := batch_eq took
      by_contra missed
      have has : HasTimer evs := by
        by_contra none
        exact missed fun has => absurd has none
      rw [if_neg fun fires => missed (fires_iff.mpr fun _ => fires), report, if_pos has] at after
      exact after.1 rfl

/-- **The idle timer.** In every state of a run between batches the timer is armed or its expiry not
yet reported, and every reported expiry has been handled, exactly when the loop has a positive
interval and the first mask of every batch with the timer's event calls the read callback. -/
theorem timer_alive_iff (timeTvl : Int) (labels : List TimerLabel) :
    Always step Alive (create timeTvl) labels ↔
      0 < timeTvl ∧ Along step Fires (create timeTvl) labels := by
  by_cases positive : 0 < timeTvl
  · have start : (create timeTvl).Alive ∧ 0 < (create timeTvl).timeTvl := by
      refine ⟨⟨?_, rfl⟩, positive⟩
      show TimerFd.disarmed.settime timeTvl ≠ .disarmed
      rw [settime_pos _ positive]
      nofun
    rw [always_iff_along_through (fun _ => And.left)
      (fun _ _ _ => alive_step)
      (fun _ _ _ _ => fires_of_alive) start]
    exact ⟨And.intro positive, And.right⟩
  · refine ⟨fun always => ?_, fun both => absurd both.1 positive⟩
    exact absurd (create_disarmed positive) always.head.1

/-- A sub-loop, and a connection with a reply to send: its `EPOLLOUT` comes before the timer's event,
`handle_timer` does not run, and nothing arms the timer again. -/
theorem write_before_timer :
    ∃ final, exec step (create 5) [.expire, .batch [(.other 7, epollOut), (.timer, epollIn)]] =
        some final ∧
      ¬ final.Alive ∧ final.reported = 1 ∧ final.handled = 0 :=
  ⟨_, rfl, fun alive => alive.1 rfl, rfl, rfl⟩

end TimerLoop

end IkunSvr
