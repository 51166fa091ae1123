/-
**One batch of `epoll_wait`: the channels' `_revs`, and the callbacks they call.**

`Poller.loopOn` is `poller::loop` with the memory it writes, the `_revs` of the channels; `called` is
the body of `eventloop::run` on what it returns.

* `fill_eq` — the loop returns the channels in order, and gives each of them `this->_evs->events`;
* `loopOn_loop` — together these are the pairs of `Poller.loop`;
* `own_events_iff` — **the channels get their own events exactly when all events of the batch carry
  one mask, and each calls the callback it would call alone exactly when `handle_event` answers all
  the masks alike**;
* `output_in_input_batch` — a channel with output pending behind one with input.
-/

import IkunSvr.Net.Dispatch
import Mathlib.Logic.Function.Basic
import Mathlib.Data.List.Basic

namespace IkunSvr

namespace Poller

variable {Chnl : Type*} [DecidableEq Chnl]

/-! ### `poller::loop` -/

/-- The `for` loop of `poller::loop`, `events` being `this->_evs->events`: `set_revs`, and then
`push_back`. -/
def fill (events : Mask) : List (Chnl × Mask) → List Chnl → (Chnl → Mask) →
    List Chnl × (Chnl → Mask)
  | [], evs, revs => (evs, revs)
  | (chnl, _) :: rest, evs, revs =>
      fill events rest (evs ++ [chnl]) (Function.update revs chnl events)

/-- `poller::loop` on what `epoll_wait` reports: the vector it returns, and the `_revs` of the
channels after it. -/
def loopOn (reported : List (Chnl × Mask)) (revs : Chnl → Mask) : List Chnl × (Chnl → Mask) :=
  match reported with
  | [] => ([], revs)
  | (_, events) :: _ => fill events reported [] revs

/-- `eventloop::run` on one batch: the channels, and the callback each of them calls. -/
def called (reported : List (Chnl × Mask)) (revs : Chnl → Mask) : List (Chnl × Callback) :=
  (loopOn reported revs).1.map fun chnl => (chnl, handleEvent ((loopOn reported revs).2 chnl))

/-- **The loop** appends the channels in order, and gives all of them the same mask. -/
theorem fill_eq (events : Mask) (reported : List (Chnl × Mask)) (evs : List Chnl)
    (revs : Chnl → Mask) :
    fill events reported evs revs = (evs ++ reported.map Prod.fst,
      fun chnl => if chnl ∈ reported.map Prod.fst then events else revs chnl) := by
  induction reported generalizing evs revs with
  | nil => simp [fill]
  | cons ev reported ih =>
      rw [fill, ih, List.map_cons, List.append_assoc]
      congr 1
      funext chnl
      by_cases later : chnl ∈ reported.map Prod.fst
      · rw [if_pos later, if_pos (List.mem_cons_of_mem _ later)]
      · rw [if_neg later]
        by_cases here : chnl = ev.1
        · rw [here, Function.update_self, if_pos List.mem_cons_self]
        · have absent : chnl ∉ ev.1 :: reported.map Prod.fst := by simp [here, later]
          rw [Function.update_of_ne here, if_neg absent]

section Batch

variable (reported : List (Chnl × Mask)) (revs : Chnl → Mask)

/-- The channels come back in the order of the report. -/
theorem loopOn_order : (loopOn reported revs).1 = reported.map Prod.fst := by
  unfold loopOn
  split
  · rfl
  · rw [fill_eq, List.nil_append]

variable {reported}

/-- **A reported channel gets the mask of the first event.** -/
theorem loopOn_revs {ev : Chnl × Mask} (member : ev ∈ reported) {first : Chnl × Mask}
    (head : first ∈ reported.head?) : (loopOn reported revs).2 ev.1 = first.2 := by
  unfold loopOn
  split
  · simp at head
  · rename_i chnl events rest
    rw [List.head?_cons, Option.mem_some_iff] at head
    rw [fill_eq, ← head]
    simp only
    rw [if_pos (List.mem_map_of_mem member)]

omit [DecidableEq Chnl] in
theorem exists_head {ev : Chnl × Mask} (member : ev ∈ reported) :
    ∃ first, first ∈ reported.head? := by
  have nonempty : reported ≠ [] := List.ne_nil_of_mem member
  exact ⟨reported.head nonempty, List.head_mem_head? nonempty⟩

/-- The returned channels with their `_revs` are the pairs of `Poller.loop`. -/
theorem loopOn_loop :
    ((loopOn reported revs).1.map fun chnl => (chnl, (loopOn reported revs).2 chnl)) =
      Poller.loop reported := by
  rw [loopOn_order, List.map_map]
  cases reported with
  | nil => rfl
  | cons first rest =>
      show _ = (first :: rest).map fun ev => (ev.1, first.2)
      apply List.map_congr_left
      intro ev member
      show (ev.1, _) = (ev.1, first.2)
      have head : first ∈ (first :: rest).head? := rfl
      rw [loopOn_revs revs member head]

end Batch

/-! ### Whose events a channel is dispatched with -/

/-- `poller::loop` returns each reported channel, in order, with `_revs` the mask reported for it. -/
structure OwnEvents (reported : List (Chnl × Mask)) (revs : Chnl → Mask) : Prop where
  order : (loopOn reported revs).1 = reported.map Prod.fst
  own : ∀ ev ∈ reported, (loopOn reported revs).2 ev.1 = ev.2

/-- Each channel of the batch calls the callback it calls when its event is reported alone. -/
def Independent (reported : List (Chnl × Mask)) (revs : Chnl → Mask) : Prop :=
  called reported revs = reported.flatMap fun ev => called [ev] revs

/-- All events carry the mask of the first one. -/
def OneMask (reported : List (Chnl × Mask)) : Prop :=
  ∀ ev ∈ reported, ∀ first ∈ reported.head?, ev.2 = first.2

/-- `handle_event` answers all the masks as it answers the first one. -/
def OneCallback (reported : List (Chnl × Mask)) : Prop :=
  ∀ ev ∈ reported, ∀ first ∈ reported.head?, handleEvent ev.2 = handleEvent first.2

/-- What a batch calls, in terms of its first mask. -/
theorem called_eq {reported : List (Chnl × Mask)} (revs : Chnl → Mask) {first : Chnl × Mask}
    (head : first ∈ reported.head?) :
    called reported revs = reported.map fun ev => (ev.1, handleEvent first.2) := by
  unfold called
  rw [loopOn_order, List.map_map]
  apply List.map_congr_left
  intro ev member
  show (ev.1, _) = (ev.1, _)
  rw [loopOn_revs revs member head]

theorem called_alone (ev : Chnl × Mask) (revs : Chnl → Mask) :
    called [ev] revs = [(ev.1, handleEvent ev.2)] :=
  called_eq revs (by simp)

/-- **When a channel is dispatched with its own events.** For every batch, and whatever the `_revs`
were before it. -/
theorem own_events_iff (reported : List (Chnl × Mask)) (revs : Chnl → Mask) :
    (OwnEvents reported revs ↔ OneMask reported) ∧
      (Independent reported revs ↔ OneCallback reported) := by
  constructor
  · constructor
    · intro owns ev member first head
      rw [← owns.own ev member, loopOn_revs revs member head]
    · intro same
      refine ⟨loopOn_order reported revs, fun ev member => ?_⟩
      obtain ⟨first, head⟩ := exists_head member
      rw [loopOn_revs revs member head, same ev member first head]
  · have alone : (reported.flatMap fun ev => called [ev] revs) =
        reported.map fun ev => (ev.1, handleEvent ev.2) := by
      simp only [called_alone]
      exact (List.map_eq_flatMap ..).symm
    unfold Independent
    rw [alone]
    constructor
    · intro same ev member first head
      rw [called_eq revs head, List.map_inj_left] at same
      exact (congrArg Prod.snd (same ev member)).symm
    · intro alike
      cases reported with
      | nil => rfl
      | cons first rest =>
          have head : first ∈ (first :: rest).head? := rfl
          rw [called_eq revs head, List.map_inj_left]
          intro ev member
          rw [alike ev member first head]

/-- **A channel with output pending, behind one with input**: both get `EPOLLIN`, and the second one
calls its read callback, where alone it calls the write callback. -/
theorem output_in_input_batch :
    ¬ OwnEvents [(0, epollIn), (1, epollOut)] (fun _ : ℕ => 0) ∧
      called [(0, epollIn), (1, epollOut)] (fun _ : ℕ => 0) = [(0, .read), (1, .read)] ∧
      called [(1, epollOut)] (fun _ : ℕ => 0) = [(1, .write)] := by
  refine ⟨fun owns => ?_, by decide, by decide⟩
  have wrong : (loopOn [(0, epollIn), (1, epollOut)] (fun _ : ℕ => 0)).2 1 = epollIn := by
    decide
  have own := owns.own (1, epollOut) (by simp)
  rw [wrong] at own
  exact absurd own (by decide)

end Poller

end IkunSvr
