/-
**An `echosvr` answers every request, once.**

The pool and the loop of an `Echosvr` each do what they do alone, so what holds of either in every
state that it reaches holds of it here; a worker that answers is a thread that calls the loop. As in
`Echosvr`, each reply is taken to reach `send_in_loop` intact.

* `Parts` — the pool and the loop are in states of their own systems; `parts_step`;
* `measure_step` — every step of those that go on lowers what is still to do: a task of the pool pays
  for the turn of its worker and for the task of the loop that this adds;
* `Rests.pool`, `Rests.loop` — where the service is at rest, so are the pool and the loop;
* `every_request_answered` — **no reply is appended twice or without its request, the service comes to
  rest, and then the reply to every request has been appended**.
-/

import IkunSvr.Loop.Serving
import IkunSvr.Pool.Replies
import IkunSvr.Pool.Serving
import Mathlib.Data.Fintype.Option
import Mathlib.Data.Fintype.Sum

namespace IkunSvr

open Run WaitQueue WaitQueue.State

namespace Echosvr

variable {count : ℕ} {Other : Type*}

/-- A step of a worker, of the loop's thread, or of a thread on its way out of `add`; or `epoll_wait`
that returns the eventfd alone. -/
def Label.goes : Label count Other → Bool
  | .work _ | .run => true
  | .receive => false
  | .pool does => WaitQueue.Label.own (does.label : WaitQueue.Label (Fin count) (Option Other) _)
  | .loop does => WakeLoop.Label.goes (does.label : WakeLoop.Label (Fin count ⊕ Other) _)

/-- What the reply costs that the worker has still to hand over. -/
def AnswerPc.owed : AnswerPc → ℕ
  | .unanswered => 10
  | .added | .answered => 0

/-- What is still to do. A turn of a worker counts for the reply that it may hand over. -/
def measure [Fintype Other] (state : Echosvr count Other) : ℕ :=
  11 * state.pool.measure + (∑ worker, (state.answering worker).owed) + state.loop.measure

section Step

variable [DecidableEq Other] {state next : Echosvr count Other} {label : Label count Other}

/-- Nobody can go on. -/
def Rests (state : Echosvr count Other) : Prop :=
  Run.Rests step Label.goes state

/-! ### The pool and the loop -/

/-- The pool and the loop are as they could be alone, and a worker is in `eventloop::add` from its push
to its `weakup`. -/
structure Parts (state : Echosvr count Other) : Prop where
  pool : Reachable Threadpool.step Threadpool.create state.pool
  loop : Reachable WakeLoop.step WakeLoop.create state.loop
  calling : ∀ worker, state.loop.callers (.inl worker) = .idle ↔ state.answering worker ≠ .added

omit [DecidableEq Other] in
theorem parts_create (fd : ℕ) [DecidableEq Other] : (create fd : Echosvr count Other).Parts :=
  ⟨⟨[], rfl⟩, ⟨[], rfl⟩, fun _ => iff_of_true rfl nofun⟩

/-- A worker moves on in `send`, and in its call of the loop with it. -/
theorem calling_update (parts : state.Parts) (worker : Fin count) (call : WakeLoop.CallPc)
    (pc : AnswerPc) (agree : call = .idle ↔ pc ≠ .added) (other : Fin count) :
    Function.update state.loop.callers (.inl worker) call (.inl other) = .idle ↔
      Function.update state.answering worker pc other ≠ .added := by
  by_cases here : other = worker
  · subst here
    rw [Function.update_self, Function.update_self]
    exact agree
  · rw [Function.update_of_ne fun same => here (Sum.inl.inj same), Function.update_of_ne here]
    exact parts.calling other

theorem parts_work (parts : state.Parts) {worker : Fin count} (took : state.work worker = some next) :
    next.Parts := by
  unfold work at took
  split at took
  next request running =>
    split at took
    next =>
      obtain ⟨loop, added, rfl⟩ := Option.map_eq_some_iff.mp took
      refine ⟨parts.pool, parts.loop.next added, ?_⟩
      rw [WakeLoop.callers_step added]
      exact calling_update parts worker _ _ (by simp)
    next =>
      obtain ⟨loop, woken, rfl⟩ := Option.map_eq_some_iff.mp took
      refine ⟨parts.pool, parts.loop.next woken, ?_⟩
      rw [WakeLoop.callers_step woken]
      exact calling_update parts worker _ _ (by simp)
    next answered =>
      obtain ⟨pool, finished, rfl⟩ := Option.map_eq_some_iff.mp took
      have out : state.loop.callers (.inl worker) = .idle :=
        (parts.calling worker).mpr (by rw [answered]; nofun)
      refine ⟨parts.pool.next finished, parts.loop, fun other => ?_⟩
      have kept := calling_update parts worker .idle .unanswered (by simp) other
      rwa [← out, Function.update_eq_self, out] at kept
  next =>
    obtain ⟨pool, moved, rfl⟩ := Option.map_eq_some_iff.mp took
    exact ⟨parts.pool.next moved, parts.loop, parts.calling⟩

/-- **Every step is one of the pool's, or one of the loop's, or both go on as they are.** -/
theorem parts_step (parts : state.Parts) (took : state.step label = some next) : next.Parts := by
  cases label with
  | receive =>
      change state.receive = some next at took
      unfold receive handleMsg at took
      repeat' split at took
      · cases took
        exact ⟨parts.pool, parts.loop, parts.calling⟩
      · obtain ⟨pool, pushed, rfl⟩ := Option.map_eq_some_iff.mp took
        exact ⟨parts.pool.next pushed, parts.loop, parts.calling⟩
      all_goals cases took
  | work worker => exact parts_work parts took
  | run =>
      change state.run = some next at took
      unfold run at took
      split at took
      next => cases took
      next =>
        obtain ⟨loop, ran, rfl⟩ := Option.map_eq_some_iff.mp took
        have ran : state.loop.step .run = some loop := ran
        refine ⟨parts.pool, parts.loop.next ran, ?_⟩
        rw [WakeLoop.callers_step ran]
        exact parts.calling
  | pool does =>
      obtain ⟨pool, called, rfl⟩ := Option.map_eq_some_iff.mp took
      exact ⟨parts.pool.next called, parts.loop, parts.calling⟩
  | loop does =>
      obtain ⟨loop, called, rfl⟩ := Option.map_eq_some_iff.mp took
      refine ⟨parts.pool, parts.loop.next called, fun worker => ?_⟩
      rw [WakeLoop.callers_step called]
      cases does <;> exact parts.calling worker

/-! ### What is still to do -/

section Measure

variable [Fintype Other]

omit [DecidableEq Other] in
theorem measure_pool {pool : Threadpool count (Option Other) (Option ℕ)}
    (less : pool.measure < state.pool.measure) :
    measure { state with pool := pool } < state.measure := by
  show 11 * pool.measure + (∑ worker, (state.answering worker).owed) + state.loop.measure <
    state.measure
  unfold measure
  omega

omit [DecidableEq Other] in
theorem measure_loop {loop : WakeLoop (Fin count ⊕ Other) (Option ℕ)}
    (less : loop.measure < state.loop.measure) (output : List ℕ) :
    measure { state with loop := loop, output := output } < state.measure := by
  show 11 * state.pool.measure + (∑ worker, (state.answering worker).owed) + loop.measure <
    state.measure
  unfold measure
  omega

omit [DecidableEq Other] in
/-- A worker moves on in `send`, and the pool or the loop with it. -/
theorem measure_answer {worker : Fin count} {pc : AnswerPc}
    {pool : Threadpool count (Option Other) (Option ℕ)}
    {loop : WakeLoop (Fin count ⊕ Other) (Option ℕ)}
    (less : 11 * pool.measure + pc.owed + loop.measure <
      11 * state.pool.measure + (state.answering worker).owed + state.loop.measure)
    (handed : List ℕ) :
    measure { state with
      pool := pool
      loop := loop
      answering := Function.update state.answering worker pc
      handed := handed } < state.measure := by
  have share := sum_update AnswerPc.owed state.answering worker pc
  show 11 * pool.measure + (∑ other, (Function.update state.answering worker pc other).owed) +
    loop.measure < state.measure
  unfold measure
  omega

/-- **A step of a worker lowers what is still to do.** -/
theorem measure_work {worker : Fin count} (took : state.work worker = some next) :
    next.measure < state.measure := by
  unfold work at took
  split at took
  next request running =>
    split at took
    next unanswered =>
      obtain ⟨loop, added, rfl⟩ := Option.map_eq_some_iff.mp took
      have costs := WakeLoop.measure_add added
      refine measure_answer ?_ _
      rw [unanswered, costs]
      simp only [AnswerPc.owed]
      omega
    next added =>
      obtain ⟨loop, woken, rfl⟩ := Option.map_eq_some_iff.mp took
      have less := WakeLoop.measure_step rfl woken
      refine measure_answer ?_ _
      rw [added]
      simp only [AnswerPc.owed]
      omega
    next answered =>
      obtain ⟨pool, finished, rfl⟩ := Option.map_eq_some_iff.mp took
      have less := WaitQueue.State.measure_step rfl finished
      refine measure_answer ?_ _
      rw [answered]
      simp only [AnswerPc.owed]
      omega
  next =>
    obtain ⟨pool, moved, rfl⟩ := Option.map_eq_some_iff.mp took
    exact measure_pool (WaitQueue.State.measure_step rfl moved)

/-- **Every step of those that go on lowers what is still to do.** -/
theorem measure_step (goes : label.goes = true) (took : state.step label = some next) :
    next.measure < state.measure := by
  cases label with
  | receive => cases goes
  | work worker => exact measure_work took
  | run =>
      change state.run = some next at took
      unfold run at took
      split at took
      next => cases took
      next =>
        obtain ⟨loop, ran, rfl⟩ := Option.map_eq_some_iff.mp took
        exact measure_loop (WakeLoop.measure_run ran) _
  | pool does =>
      obtain ⟨pool, called, rfl⟩ := Option.map_eq_some_iff.mp took
      exact measure_pool (WaitQueue.State.measure_step goes called)
  | loop does =>
      obtain ⟨loop, called, rfl⟩ := Option.map_eq_some_iff.mp took
      exact measure_loop (WakeLoop.measure_step goes called) state.output

end Measure

/-! ### Rest -/

/-- Who goes on receives nothing, and stops neither the pool nor the loop. -/
theorem goes_keeps (goes : label.goes = true) (took : state.step label = some next) :
    next.received = state.received ∧ next.pool.stop = state.pool.stop ∧
      next.loop.shutDown = state.loop.shutDown := by
  cases label with
  | receive => cases goes
  | work worker =>
      change state.work worker = some next at took
      unfold work at took
      split at took
      next =>
        split at took
        next =>
          obtain ⟨loop, added, rfl⟩ := Option.map_eq_some_iff.mp took
          exact ⟨rfl, rfl, WakeLoop.shutDown_step added⟩
        next =>
          obtain ⟨loop, woken, rfl⟩ := Option.map_eq_some_iff.mp took
          exact ⟨rfl, rfl, (WakeLoop.goes_keeps rfl woken).2⟩
        next =>
          obtain ⟨pool, finished, rfl⟩ := Option.map_eq_some_iff.mp took
          exact ⟨rfl, stop_same finished nofun, rfl⟩
      next =>
        obtain ⟨pool, moved, rfl⟩ := Option.map_eq_some_iff.mp took
        exact ⟨rfl, stop_same moved nofun, rfl⟩
  | run =>
      change state.run = some next at took
      unfold run at took
      split at took
      next => cases took
      next =>
        obtain ⟨loop, ran, rfl⟩ := Option.map_eq_some_iff.mp took
        have ran : state.loop.step .run = some loop := ran
        exact ⟨rfl, rfl, (WakeLoop.goes_keeps rfl ran).2⟩
  | pool does =>
      obtain ⟨pool, called, rfl⟩ := Option.map_eq_some_iff.mp took
      exact ⟨rfl, (own_keeps goes called).2, rfl⟩
  | loop does =>
      obtain ⟨loop, called, rfl⟩ := Option.map_eq_some_iff.mp took
      exact ⟨rfl, rfl, (WakeLoop.goes_keeps goes called).2⟩

/-- **Where nobody can go on, the loop is at rest** as far as its thread goes: it is not in
`threadpool::add`, so it could take a step if the loop could. -/
theorem Rests.run (rests : state.Rests) : state.loop.run = none := by
  have stuck : state.run = none := rests .run rfl
  unfold Echosvr.run at stuck
  split at stuck
  next task notifying =>
    obtain ⟨woken, pool, notified, -⟩ := deliver_one Threadpool.tests notifying
    have blocked := rests (.pool (.notifyOne none woken)) rfl
    change ((Threadpool.step state.pool (.notifyOne none woken)).map _) = none at blocked
    rw [Option.map_eq_none_iff] at blocked
    exact absurd (notified.symm.trans blocked) nofun
  next => exact Option.map_eq_none_iff.mp stuck

/-- **Where nobody can go on, no worker is in `on_msg`.** -/
theorem Rests.free (rests : state.Rests) (parts : state.Parts) (worker : Fin count) (request : ℕ) :
    state.pool.workers worker ≠ .running (some request) := by
  intro running
  have stuck : state.work worker = none := rests (.work worker) rfl
  simp only [work, running] at stuck
  split at stuck
  next unanswered =>
    have free : state.loop.loop.locked = false := by
      cases locked : state.loop.loop.locked with
      | false => rfl
      | true =>
          cases stands : state.loop.loop with
          | draining rest =>
              have still := rests.run
              simp only [WakeLoop.run, stands] at still
              split at still <;> cases still
          | _ => simp [stands, WakeLoop.RunPc.locked] at locked
    have idle := (parts.calling worker).mpr (by simp [unanswered])
    simp [WakeLoop.step, idle, free] at stuck
  next added =>
    have calls := mt (parts.calling worker).mp (fun out => out added)
    simp [WakeLoop.step, calls] at stuck
  next =>
    simp [Threadpool.step, WaitQueue.State.step, WaitQueue.State.work, running] at stuck

/-- **Where nobody can go on, the pool is at rest.** -/
theorem Rests.pool (rests : state.Rests) (parts : state.Parts) :
    state.pool.Rests Threadpool.tests := by
  intro label own
  cases label with
  | work worker =>
      have stuck : state.work worker = none := rests (.work worker) rfl
      unfold work at stuck
      split at stuck
      next request running => exact absurd running (rests.free parts worker request)
      next => exact Option.map_eq_none_iff.mp stuck
  | notifyOne client woken =>
      exact Option.map_eq_none_iff.mp (rests (.pool (.notifyOne client woken)) rfl)
  | push | shutDown | spurious => cases own

/-- **Where nobody can go on, the loop is at rest.** -/
theorem Rests.loop (rests : state.Rests) (parts : state.Parts) {begun : ℕ}
    (flows : state.Flows begun) : state.loop.Rests := by
  intro label goes
  cases label with
  | run => exact rests.run
  | weakup client =>
      cases client with
      | inl worker =>
          have out : state.loop.callers (.inl worker) = .idle := by
            refine (parts.calling worker).mpr fun added => ?_
            obtain ⟨request, running⟩ := flows.busy worker (by rw [added]; nofun)
            exact rests.free parts worker request running
          exact if_pos out
      | inr other => exact Option.map_eq_none_iff.mp (rests (.loop (.weakup other)) rfl)
  | fetch reported => exact Option.map_eq_none_iff.mp (rests (.loop (.fetch reported)) goes)
  | add | shutDown => cases goes

/-- Where every worker and the loop's thread wait, no thread is in `add`, and the eventfd has not been
written to, nobody can go on. -/
theorem rests_of_waiting (blocked : ∀ worker, state.pool.workers worker = .waiting)
    (out : ∀ client, state.pool.clients client = .idle) (waiting : state.loop.loop = .waiting)
    (calm : ∀ other, state.loop.callers (.inr other) = .idle) (unwritten : state.loop.counter = 0) :
    state.Rests := by
  intro label goes
  cases label with
  | work worker =>
      simp [step, work, blocked worker, Threadpool.step, WaitQueue.State.step, WaitQueue.State.work]
  | run => simp [step, Echosvr.run, out, WakeLoop.run, waiting]
  | receive => cases goes
  | pool does =>
      cases does with
      | notifyOne client woken =>
          simp [step, PoolCall.label, Threadpool.step, WaitQueue.State.step, out]
      | add | shutDown | spurious => cases goes
  | loop does =>
      cases does with
      | weakup other => simp [step, LoopCall.label, WakeLoop.step, calm]
      | fetch reported =>
          refine Option.map_eq_none_iff.mpr (if_neg ?_)
          rintro ⟨-, returns⟩
          obtain ⟨ev, rfl, weak⟩ := List.map_eq_singleton_iff.mp (of_decide_eq_true goes)
          have readable := (returns.2.2.2.1 ev (List.mem_singleton_self ev) weak).2
          exact absurd unwritten readable.2.1.ne'
      | add | shutDown => cases goes

/-- What has been handed over is each a reply to one request. -/
def Once (state : Echosvr count Other) : Prop :=
  state.handed.Nodup ∧ state.Moves ∧ state.Parts

omit [DecidableEq Other] in
theorem once_create (fd : ℕ) [DecidableEq Other] : (create fd : Echosvr count Other).Once :=
  ⟨List.nodup_nil, moves_create fd, parts_create fd⟩

/-- **No reply is handed over twice.** -/
theorem once_step (once : state.Once) (took : state.step label = some next) : next.Once := by
  obtain ⟨apart, ⟨begun, flows⟩, parts⟩ := once
  obtain ⟨moves, acts⟩ := step_acts flows took
  refine ⟨?_, moves, parts_step parts took⟩
  have concat : ∀ request, request ∉ state.handed → (state.handed ++ [request]).Nodup :=
    fun request absent => List.nodup_append_comm.mp (List.nodup_cons.mpr ⟨absent, apart⟩)
  cases acts with
  | hand worker request working owes handed =>
      rw [handed]
      exact concat request (flows.owed worker request owes).2
  | direct none handed =>
      rw [handed]
      refine concat state.received fun member => ?_
      rw [flows.mem_handed none, flows.begun_eq none] at member
      exact Nat.lt_irrefl _ member
  | still handed => rwa [handed]

/-- **Where nobody can go on, every request has been answered.** -/
theorem answered_of_rest [Fintype Other] (once : state.Once) (runs : state.pool.stop = false)
    (listens : state.loop.shutDown = false) (rests : state.Rests) :
    state.output.Perm (List.range state.received) := by
  obtain ⟨apart, ⟨begun, flows⟩, parts⟩ := once
  obtain ⟨-, drained, -⟩ :=
    (WakeLoop.sound_reachable parts.loop).ran_of_rest listens (rests.loop parts flows)
  have all : begun = state.received := by
    rcases Nat.eq_zero_or_pos count with none | some
    · exact flows.begun_eq none
    · have : NeZero count := ⟨some.ne'⟩
      obtain ⟨empty, -⟩ := served_of_rest (tended_reachable Threadpool.tests_serves parts.pool) runs
        (rests.pool parts)
      have queued := congrArg List.length flows.queued
      simpa [empty] using queued
  have output : state.output = state.handed := by
    rw [← flows.passed, drained]
    exact (List.append_nil _).symm
  rw [output, List.perm_ext_iff_of_nodup apart List.nodup_range]
  intro request
  rw [List.mem_range, ← all]
  refine ⟨flows.handed request, fun early => ?_⟩
  rcases flows.covered request early with present | ⟨worker, owes⟩
  · exact present
  · exact absurd owes.1 (rests.free parts worker request)

/-- **Every request is answered.** In every reachable state the replies in `_output_buf` are each to
another request that was received. From there, the workers, the loop's thread and the threads on their
way out of `add` take a bounded number of steps, if nothing is received, nobody adds anything to the
pool or the loop, and epoll has no events but the eventfd's; and where they can take no more, and
neither the pool nor the loop was shut down, every request has its reply. -/
theorem every_request_answered [Fintype Other] {fd : ℕ} {state final : Echosvr count Other}
    (reach : Reachable step (create fd) state) {labels : List (Label count Other)}
    (ran : exec (only step Label.goes) state labels = some final) :
    (state.output.Nodup ∧ ∀ request ∈ state.output, request < state.received) ∧
      labels.length ≤ state.measure ∧ final.received = state.received ∧
      (state.pool.stop = false → state.loop.shutDown = false → final.Rests →
        final.output.Perm (List.range final.received)) := by
  have always : ∀ {later : Echosvr count Other}, Reachable step (create fd) later → later.Once :=
    fun reached => reached.invariant (fun _ _ _ once took => once_step once took) (once_create fd)
  refine ⟨?_, only_ends (fun _ _ _ goes took => measure_step goes took) ran, ?_⟩
  · obtain ⟨apart, ⟨begun, flows⟩, -⟩ := always reach
    have sublist : state.output.Sublist state.handed := by
      rw [← flows.passed]
      exact List.sublist_append_left _ _
    refine ⟨apart.sublist sublist, fun request member => ?_⟩
    have early := flows.handed request (sublist.subset member)
    have queued := congrArg List.length flows.queued
    simp only [List.length_append, List.length_range] at queued
    omega
  · obtain ⟨received, stop, shutDown⟩ := only_kept
      (fun later => later.received = state.received ∧ later.pool.stop = state.pool.stop ∧
        later.loop.shutDown = state.loop.shutDown)
      (by
        rintro now label later goes ⟨received, stop, shutDown⟩ took
        obtain ⟨same, still, stays⟩ := goes_keeps goes took
        exact ⟨same.trans received, still.trans stop, stays.trans shutDown⟩)
      ⟨rfl, rfl, rfl⟩ ran
    exact ⟨received, fun runs listens rests =>
      answered_of_rest (always (reach.only ran)) (stop.trans runs) (shutDown.trans listens) rests⟩

/-- Two workers answer two requests. -/
theorem every_request_answered_two :
    ∃ final : Echosvr 2 Unit, final.output.Perm (List.range final.received) ∧ final.received = 2 := by
  have run : ∃ state final : Echosvr 2 Unit, exec step (create 5)
        [.run, .loop (.fetch [(.other 5, epollIn)]), .receive, .pool (.notifyOne none none), .receive] =
          some state ∧
      exec (only step Label.goes) state
        ([.pool (.notifyOne none none)] ++ List.replicate 5 (.work 0) ++ List.replicate 12 (.work 1) ++
          List.replicate 7 (.work 0) ++
          [.run, .run, .run, .loop (.fetch [(.weak, epollIn)])] ++ List.replicate 8 .run) =
          some final ∧
      state.pool.stop = false ∧ state.loop.shutDown = false ∧ state.received = 2 ∧
      final.pool.workers 0 = .waiting ∧ final.pool.workers 1 = .waiting ∧
      final.pool.clients none = .idle ∧ final.pool.clients (some ()) = .idle ∧
      final.loop.loop = .waiting ∧
      final.loop.callers (.inr ()) = .idle ∧ final.loop.counter = 0 :=
    ⟨_, _, rfl, rfl, rfl, rfl, rfl, rfl, rfl, rfl, rfl, rfl, rfl, rfl⟩
  obtain ⟨state, final, ran, went, runs, listens, received, first, second, out, others, waiting, calm,
    unwritten⟩ := run
  have rests : final.Rests := by
    refine rests_of_waiting ?_ ?_ waiting ?_ unwritten
    · exact Fin.forall_fin_two.mpr ⟨first, second⟩
    · exact Option.forall.mpr ⟨out, fun _ => others⟩
    · exact fun _ => calm
  obtain ⟨-, -, same, answers⟩ := every_request_answered ⟨_, ran⟩ went
  exact ⟨final, answers runs listens rests, same.trans received⟩

end Step

end Echosvr

end IkunSvr
