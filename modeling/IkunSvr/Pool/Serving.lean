/-
**The thread pool serves what it accepts.**

Before `shut_down` no task that `add` has pushed is left waiting, although `notify_one` wakes one
worker at most, and none if they are all busy.

* `nobody_sleeps_on_task` — **while a worker is blocked, there are no more tasks in the queue than
  notifications to come and workers on their way to it**;
* `every_task_executed` — **the workers come to rest, and then every task has been executed, once**.
-/

import IkunSvr.Lib.WaitQueueLive
import IkunSvr.Pool.Threadpool

namespace IkunSvr

open Run WaitQueue WaitQueue.State

namespace Threadpool

variable {count : ℕ} {Client Task : Type*} [DecidableEq Client] [Fintype Client]

/-- Before `_stop` is set a worker goes on exactly when there is a task. -/
theorem tests_serves : tests.Serves :=
  ⟨by decide, by decide⟩

/-- **Nobody sleeps on a task.** In every reachable state in which `_stop` is not set, however many
workers and threads in `add` there are: while a worker is blocked, every task in the queue has a
`notify_one` of its own to come, or a worker of its own that will look at the queue before it blocks. -/
theorem nobody_sleeps_on_task {state : Threadpool count Client Task}
    (reach : Reachable step create state) (runs : state.stop = false)
    (sleeper : ∃ worker, state.workers worker = .waiting) :
    state.queue.length ≤ state.notices + state.coming :=
  ((tended_reachable tests_serves reach).2 runs).matched sleeper

/-- Two tasks are added while two workers are blocked, and one of them is notified. -/
theorem nobody_sleeps_on_task_two :
    ∃ state : Threadpool 2 (Fin 2) ℕ, state.queue = [7, 8] ∧ state.workers 1 = .waiting ∧
      state.queue.length ≤ state.notices + state.coming := by
  have run : (exec step (create : Threadpool 2 (Fin 2) ℕ)
      [.work 0, .work 0, .work 0, .work 0, .work 1, .work 1, .work 1, .work 1, .push 0 7, .push 1 8,
        .notifyOne 0 (some 0)]).map (fun state => (state.queue, state.stop,
          (state.workers 1).blocked)) = some ([7, 8], false, true) := by
    decide
  obtain ⟨state, ran, facts⟩ := Option.map_eq_some_iff.mp run
  obtain ⟨queue, rest⟩ := Prod.mk.inj facts
  obtain ⟨runs, blocked⟩ := Prod.mk.inj rest
  have waiting : state.workers 1 = .waiting := by
    cases here : state.workers 1 with
    | waiting => rfl
    | _ => simp [here, WorkerPc.blocked] at blocked
  exact ⟨state, queue, waiting, nobody_sleeps_on_task ⟨_, ran⟩ runs ⟨1, waiting⟩⟩

/-- **Every task is executed.** From any reachable state in which `_stop` is not set, the workers and
the threads on their way out of `add` take a bounded number of steps, if nobody calls; and where they
can take no more, the queue is empty, every worker is blocked, and the tasks executed are those that
were pushed, each once. -/
theorem every_task_executed [NeZero count] {state final : Threadpool count Client Task}
    (reach : Reachable step create state) (runs : state.stop = false)
    {labels : List (Label (Fin count) Client Task)}
    (ran : exec (serve tests) state labels = some final) :
    labels.length ≤ state.measure ∧
      (final.Rests tests → final.queue = [] ∧ (∀ worker, final.workers worker = .waiting) ∧
        final.done.Perm state.pushed) := by
  refine ⟨serve_ends ran, fun rests => ?_⟩
  obtain ⟨tended, clear, same⟩ := serve_run tests_serves (tended_reachable tests_serves reach) runs ran
  rw [← same]
  exact served_of_rest tended clear rests

/-- A task is added, and the worker executes it and blocks. -/
theorem every_task_executed_one :
    ∃ final : Threadpool 1 Unit ℕ, final.queue = [] ∧ (∀ worker, final.workers worker = .waiting) ∧
      final.done.Perm [7] := by
  have run : ∃ state final : Threadpool 1 Unit ℕ, exec step create [.push () 7] = some state ∧
      exec (serve tests) state (.notifyOne () none :: List.replicate 10 (.work 0)) = some final ∧
      state.stop = false ∧ state.pushed = [7] ∧ final.workers 0 = .waiting ∧
      final.clients () = .idle :=
    ⟨_, _, rfl, rfl, rfl, rfl, rfl, rfl⟩
  obtain ⟨state, final, ran, served, runs, pushed, waiting, idle⟩ := run
  have rests : final.Rests tests := by
    intro label own
    cases label with
    | work worker =>
        obtain rfl : worker = 0 := Subsingleton.elim _ _
        simp [State.step, work, waiting]
    | notifyOne client woken => simp [State.step, idle]
    | push | shutDown | spurious => cases own
  have executed := (every_task_executed ⟨_, ran⟩ runs served).2 rests
  rw [pushed] at executed
  exact ⟨final, executed⟩

end Threadpool

end IkunSvr
