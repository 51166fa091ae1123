/-
**The thread pool.**

`threadpool(count, …)` starts `count` workers, each of which waits on `_cond` for the predicate
`waitPred`, leaves on `exitTest`, and otherwise takes the front of `_queue` and runs it with the
mutex released. `add` pushes under the mutex and calls `notify_one`; `shut_down` returns at once if
`_stop` is set, else sets it without the mutex, calls `notify_all` and joins every worker.

* `hands_out_in_order` — **the tasks are handed out in the order they were added, each once**;
* `shut_down_executes_iff` — **what was added before `shut_down` is executed exactly when a worker
  had come for it by the time `_stop` was stored**;
* `shut_down_wakes_iff` — **`shut_down` leaves nobody blocked exactly when no worker stood between
  the predicate and the block when `notify_all` was called**;
* `stop_drops_task`, `stop_misses_worker` — the runs that go wrong.
-/

import IkunSvr.Lib.WaitQueueStop

namespace IkunSvr

open Run WaitQueue WaitQueue.State

namespace Threadpool

/-! ### The worker loop -/

/-- The predicate passed to `_cond.wait`. -/
def waitPred (stop empty : Bool) : Bool :=
  stop == true || empty == false

/-- The condition on which the worker returns. -/
def exitTest (stop empty : Bool) : Bool :=
  stop == true || empty == true

/-- What a worker of the pool tests. -/
def tests : Protocol where
  ready := waitPred
  leaves := exitTest
  leaves_empty := by decide
  leaves_stopped := by decide

end Threadpool

/-- A pool of `count` workers, whose tasks are added by any number of clients. -/
abbrev Threadpool (count : ℕ) (Client Task : Type*) := WaitQueue.State (Fin count) Client Task

namespace Threadpool

variable {count : ℕ} {Client Task : Type*}

/-- The pool as constructed: every worker is before its loop. -/
abbrev create : Threadpool count Client Task := start

variable [DecidableEq Client]

/-- A step of a worker, of a client in `add`, or of the thread in `shut_down`. -/
abbrev step : Threadpool count Client Task → Label (Fin count) Client Task →
    Option (Threadpool count Client Task) :=
  WaitQueue.State.step tests

/-! ### The queue -/

/-- **The pool is a queue.** In every reachable state the tasks taken by the workers, in the order
taken, and then the queue are the tasks in the order they were pushed; a task that was pushed is
executed, in the hands of one worker, or queued; and who is about to take the front finds one. -/
theorem hands_out_in_order {state : Threadpool count Client Task}
    (reach : Reachable step create state) :
    state.taken ++ state.queue = state.pushed ∧
    (state.pushed : Multiset Task) =
      state.done + ∑ worker, (state.workers worker).hand + state.queue ∧
    ∀ worker, state.workers worker = .taking → state.queue ≠ [] := by
  have sound := sound_reachable reach
  refine ⟨sound.fifo, ?_, sound.front⟩
  rw [← sound.fifo, ← sound.once]
  rfl

/-- Two tasks are added, and the worker has come to run the first. -/
theorem hands_out_in_order_two :
    ∃ state : Threadpool 1 Unit ℕ, state.taken = [7] ∧ state.queue = [8] ∧
      (state.taken ++ state.queue = state.pushed ∧
      (state.pushed : Multiset ℕ) =
        state.done + ∑ worker, (state.workers worker).hand + state.queue ∧
      ∀ worker, state.workers worker = .taking → state.queue ≠ []) := by
  have run : (exec step (create : Threadpool 1 Unit ℕ)
      [.push () 7, .notifyOne () none, .push () 8, .work 0, .work 0, .work 0, .work 0, .work 0]).map
        (fun state => (state.taken, state.queue)) = some ([7], [8]) := by
    decide
  obtain ⟨state, ran, facts⟩ := Option.map_eq_some_iff.mp run
  obtain ⟨taken, queue⟩ := Prod.mk.inj facts
  exact ⟨state, taken, queue, hands_out_in_order ⟨_, ran⟩⟩

/-! ### What is executed by the time `shut_down` returns -/

/-- By the time `shut_down` has returned, every task whose `add` had returned before it was called
is executed, and nothing is executed twice. -/
def Served (state : Threadpool count Client Task) : Prop :=
  state.stopper = .returned → state.Executed

/-- The step from one state to the other stores `_stop`. -/
def Stores (state next : Threadpool count Client Task) : Prop :=
  state.stop = false ∧ next.stop = true

/-- If the step stores `_stop`, then every task accepted so far has been taken, or a worker stands
behind its last test to take it. -/
def StoresCovered (state : Threadpool count Client Task) (label : Label (Fin count) Client Task) :
    Prop :=
  ∀ next, step state label = some next → Stores state next → state.Covered

/-- What holds in every state, for the count of what is taken. -/
def Sane (state : Threadpool count Client Task) : Prop :=
  state.Sound ∧ state.Stops

/-- Once `_stop` is set, what was accepted is covered. -/
def StaysCovered (state : Threadpool count Client Task) : Prop :=
  state.stop = true → state.Covered

variable {state next : Threadpool count Client Task} {label : Label (Fin count) Client Task}

omit [DecidableEq Client] in
theorem sane_create : Sane (create : Threadpool count Client Task) :=
  ⟨sound_start, stops_start⟩

theorem sane_step (sane : Sane state) (took : step state label = some next) : Sane next :=
  ⟨sound_step sane.1 took, stops_step sane.2 took⟩

/-- A step keeps what was accepted covered exactly when it does not store `_stop` too early. -/
theorem staysCovered_step (sane : Sane state) (stays : StaysCovered state)
    (took : step state label = some next) : StaysCovered next ↔ StoresCovered state label := by
  cases stopped : state.stop with
  | true =>
      have covered : next.Covered := (covered_step sane.1 sane.2 stopped took).mpr (stays stopped)
      constructor
      · intro _ other _ stores
        have clear := stores.1
        rw [stopped] at clear
        cases clear
      · exact fun _ _ => covered
  | false =>
      rcases stop_step took with same | ⟨tested, stored⟩
      · rw [stopped] at same
        constructor
        · intro _ other tookToo stores
          rw [took] at tookToo
          cases tookToo
          have set := stores.2
          rw [same] at set
          cases set
        · intro _ set
          rw [same] at set
          cases set
      · have unchanged : next.Covered ↔ state.Covered := by
          rw [stored]
          exact Iff.rfl
        have set : next.stop = true := by rw [stored]
        constructor
        · exact fun covered _ _ _ => unchanged.mp (covered set)
        · exact fun covered _ => unchanged.mpr (covered next took ⟨stopped, set⟩)

/-- Where `_stop` is set, a step does not uncover what it finds covered. -/
theorem staysCovered_back (sane : Sane state) (took : step state label = some next)
    (stays : StaysCovered next) : StaysCovered state := by
  intro stopped
  exact (covered_step sane.1 sane.2 stopped took).mp (stays (stop_stays stopped took))

omit [DecidableEq Client] in
theorem staysCovered_create : StaysCovered (create : Threadpool count Client Task) := nofun

theorem sane_always (labels : List (Label (Fin count) Client Task)) :
    Always step Sane create labels :=
  always_of_step (fun _ _ _ sane took => sane_step sane took) sane_create labels

/-- A run stays covered exactly when it stores `_stop` with everything accepted covered. -/
theorem staysCovered_iff (labels : List (Label (Fin count) Client Task)) :
    Always step StaysCovered create labels ↔ Along step StoresCovered create labels :=
  always_iff_along_within (fun _ _ _ sane took => sane_step sane took)
    (fun _ _ _ sane stays took => staysCovered_step sane stays took) sane_create
    staysCovered_create

omit [DecidableEq Client] in
/-- Once `shut_down` has called `notify_all`, `_stop` is set. -/
theorem stopped_of_behind (stops : state.Stops)
    (behind : state.stopper = .joining ∨ state.stopper = .returned) : state.stop = true := by
  rw [stops.flag]
  rcases behind with joining | returned
  · rw [joining]
    rfl
  · rw [returned]
    rfl

/-- **When `shut_down` executes everything that was added before it.** In a run that stores `_stop`
only with every accepted task taken, or a worker behind its last test to take it, every accepted
task is executed, once, by the time `shut_down` has returned. And in a run in which `shut_down` has
returned they are executed exactly when the run stored `_stop` so. -/
theorem shut_down_executes_iff :
    (∀ labels : List (Label (Fin count) Client Task), Along step StoresCovered create labels →
      Always step Served create labels) ∧
    (∀ (labels : List (Label (Fin count) Client Task)) (final : Threadpool count Client Task),
      exec step create labels = some final → final.stopper = .returned →
        (final.Executed ↔ Along step StoresCovered create labels)) := by
  constructor
  · intro labels along
    have stays := (sane_always labels).and ((staysCovered_iff labels).mpr along)
    refine stays.mono ?_
    rintro state ⟨sane, covered⟩ returned
    have stopped := stopped_of_behind sane.2 (.inr returned)
    exact (executed_iff_covered sane.1 sane.2 returned).mpr (covered stopped)
  · intro labels final ran returned
    have sane := (sane_always labels).last ran
    have stopped := stopped_of_behind sane.2 (.inr returned)
    rw [executed_iff_covered sane.1 sane.2 returned, ← staysCovered_iff labels]
    constructor
    · intro covered
      exact always_of_last (fun _ _ _ sane took => sane_step sane took)
        (fun _ _ _ sane took stays => staysCovered_back sane took stays) sane_create ran
        fun _ => covered
    · intro stays
      exact stays.last ran stopped

/-- A worker comes for the task, `_stop` is stored, and the task is executed. -/
theorem shut_down_executes_iff_taken :
    ∃ final : Threadpool 1 Unit ℕ, final.accepted = [7] ∧ final.stopper = .returned ∧
      (final.Executed ↔ Along step StoresCovered (create : Threadpool 1 Unit ℕ)
        [.push () 7, .notifyOne () none, .work 0, .work 0, .work 0, .work 0, .shutDown, .shutDown,
          .shutDown, .work 0, .work 0, .work 0, .shutDown]) ∧ final.done = [7] := by
  have run : (exec step (create : Threadpool 1 Unit ℕ)
      [.push () 7, .notifyOne () none, .work 0, .work 0, .work 0, .work 0, .shutDown, .shutDown,
        .shutDown, .work 0, .work 0, .work 0, .shutDown]).map
        (fun final => (final.accepted, final.stopper, final.done)) = some ([7], .returned, [7]) := by
    decide
  obtain ⟨final, ran, facts⟩ := Option.map_eq_some_iff.mp run
  obtain ⟨accepted, rest⟩ := Prod.mk.inj facts
  obtain ⟨returned, done⟩ := Prod.mk.inj rest
  exact ⟨final, accepted, returned, shut_down_executes_iff.2 _ final ran returned, done⟩

/-- **A task is added, `shut_down` stores `_stop`, and the worker leaves**: the task is dropped. -/
theorem stop_drops_task :
    ¬ Always step Served (create : Threadpool 1 Unit ℕ)
      [.push () 7, .notifyOne () none, .shutDown, .shutDown, .shutDown, .work 0, .shutDown] := by
  have run : (exec step (create : Threadpool 1 Unit ℕ)
      [.push () 7, .notifyOne () none, .shutDown, .shutDown, .shutDown, .work 0, .shutDown]).map
        (fun final => (final.accepted, final.stopper, final.done)) = some ([7], .returned, []) := by
    decide
  obtain ⟨final, ran, facts⟩ := Option.map_eq_some_iff.mp run
  obtain ⟨accepted, rest⟩ := Prod.mk.inj facts
  obtain ⟨returned, done⟩ := Prod.mk.inj rest
  intro served
  have executed := (served.last ran returned).1
  rw [accepted, done] at executed
  cases executed.length_le

/-! ### Who is blocked when `shut_down` joins -/

/-- `shut_down` has called `notify_all`, no `add` has still to notify, and a worker is blocked: the
joins do not return. -/
def Stuck (state : Threadpool count Client Task) : Prop :=
  state.stopper = .joining ∧ (∀ client, state.clients client = .idle) ∧
    ∃ worker, state.workers worker = .waiting

/-- The step from one state to the other is the `notify_all` of `shut_down`. -/
def NotifiesAll (state next : Threadpool count Client Task) : Prop :=
  state.stopper = .stored ∧ next.stopper = .joining

/-- No worker stands between the predicate, found false, and the block. -/
def NoneParking (state : Threadpool count Client Task) : Prop :=
  ∀ worker, state.workers worker ≠ .parking

/-- If the step is the `notify_all` of `shut_down`, no worker is about to block. -/
def NotifiesNoneParking (state : Threadpool count Client Task)
    (label : Label (Fin count) Client Task) : Prop :=
  ∀ next, step state label = some next → NotifiesAll state next → NoneParking state

/-- Behind `notify_all`, nobody blocks any more. -/
def Awake (state : Threadpool count Client Task) : Prop :=
  state.Stops ∧ (state.stopper = .joining ∨ state.stopper = .returned →
    ∀ worker, state.workers worker ≠ .waiting ∧ state.workers worker ≠ .parking)

omit [DecidableEq Client] in
theorem awake_create : Awake (create : Threadpool count Client Task) :=
  ⟨stops_start, by rintro (joining | returned) <;> contradiction⟩

/-- With `_stop` set a worker that tests the predicate finds it true. -/
theorem turn_awake {empty : Bool} {worker : Fin count} {here pc : WorkerPc Task}
    {owner after : Option (Fin count)}
    (turns : Turn tests true empty worker here owner pc after) (moving : here ≠ .parking) :
    pc ≠ .waiting ∧ pc ≠ .parking := by
  cases turns with
  | hold _ unready => cases unready
  | park => exact absurd rfl moving
  | _ => exact ⟨nofun, nofun⟩

/-- A worker that moves on behind `notify_all` leaves everyone awake. -/
theorem awake_update {workers : Fin count → WorkerPc Task} {worker : Fin count} {pc : WorkerPc Task}
    (awake : ∀ other, workers other ≠ .waiting ∧ workers other ≠ .parking)
    (moved : pc ≠ .waiting ∧ pc ≠ .parking) (other : Fin count) :
    Function.update workers worker pc other ≠ .waiting ∧
      Function.update workers worker pc other ≠ .parking := by
  by_cases same : other = worker
  · subst same
    rw [Function.update_self]
    exact moved
  · rw [Function.update_of_ne same]
    exact awake other

/-- A step other than a `notify_all` that comes too early keeps everyone awake. -/
theorem awake_step (awake : Awake state) (allowed : NotifiesNoneParking state label)
    (took : step state label = some next) : Awake next := by
  refine ⟨stops_step awake.1 took, ?_⟩
  obtain ⟨stops, awake⟩ := awake
  cases step_acts took with
  | turn worker here pc owner stands turns =>
      intro behind
      have stopped : state.stop = true := stopped_of_behind stops behind
      have moving : here ≠ .parking := stands ▸ (awake behind worker).2
      exact awake_update (awake behind) (turn_awake (stopped ▸ turns) moving)
  | take worker task queue taking found =>
      exact fun behind => awake_update (awake behind) ⟨nofun, nofun⟩
  | finish worker task running =>
      exact fun behind => awake_update (awake behind) ⟨nofun, nofun⟩
  | push client task idle free => exact awake
  | notify client task worker pushed blocked =>
      exact fun behind => awake_update (awake behind) ⟨nofun, nofun⟩
  | silent client task pushed nobody => exact awake
  | call idle =>
      have clear : state.stop = false := by
        rw [stops.flag, idle]
        rfl
      simp only [clear]
      rintro (joining | returned) <;> contradiction
  | store tested => rintro (joining | returned) <;> contradiction
  | notifyAll stored =>
      intro _ worker
      have standing := allowed _ took ⟨stored, rfl⟩ worker
      cases here : state.workers worker with
      | parking => exact absurd here standing
      | _ =>
          show (state.workers worker).wake ≠ _ ∧ (state.workers worker).wake ≠ _
          rw [here]
          exact ⟨nofun, nofun⟩
  | join joining ended => exact fun _ => awake (.inl joining)

/-- A run that calls `notify_all` with no worker about to block is never stuck. -/
theorem awake_run {labels : List (Label (Fin count) Client Task)}
    (along : Along step NotifiesNoneParking state labels) (awake : Awake state) :
    Always step (fun state => ¬ Stuck state) state labels := by
  have stays : Always step Awake state labels :=
    always_of_along (fun _ _ _ awake allowed took => awake_step awake allowed took) awake along
  refine stays.mono ?_
  rintro state awake ⟨joining, -, worker, blocked⟩
  exact (awake.2 (.inl joining) worker).1 blocked

/-- `shut_down` has called `notify_all`. -/
def Behind (state : Threadpool count Client Task) : Prop :=
  state.stopper = .joining ∨ state.stopper = .returned

theorem behind_step (behind : Behind state) (took : step state label = some next) :
    Behind next := by
  cases step_acts took with
  | join joining ended => exact .inr rfl
  | call here | store here | notifyAll here =>
      rcases behind with joining | returned
      · rw [joining] at here
        cases here
      · rw [returned] at here
        cases here
  | _ => exact behind

/-- Behind `notify_all`, everyone awake stays awake. -/
theorem awake_behind (awake : Awake state) (behind : Behind state)
    (labels : List (Label (Fin count) Client Task)) :
    Always step (fun state => ¬ Stuck state) state labels := by
  have stays : Always step (fun state => Awake state ∧ Behind state) state labels := by
    refine always_of_step ?_ ⟨awake, behind⟩ labels
    rintro state label next ⟨awake, behind⟩ took
    refine ⟨awake_step awake (fun _ _ notifies => ?_) took, behind_step behind took⟩
    rcases behind with joining | returned
    · rw [notifies.1] at joining
      cases joining
    · rw [notifies.1] at returned
      cases returned
  refine stays.mono ?_
  rintro state ⟨awake, behind⟩ ⟨-, -, worker, blocked⟩
  exact (awake.2 behind worker).1 blocked

theorem notifiesAll_workers (took : step state label = some next) (notifies : NotifiesAll state next)
    (worker : Fin count) : next.workers worker = (state.workers worker).wake := by
  cases step_acts took with
  | notifyAll stored => rfl
  | join joining ended => cases notifies.2
  | call here | store here =>
      rw [notifies.1] at here
      cases here
  | _ => exact absurd (notifies.1.symm.trans notifies.2) (by decide)

variable [Fintype Client]

/-- Once `notify_all` has been called, a worker that stood between the predicate and the block can
block with nobody left to notify it. -/
theorem parking_sticks {worker : Fin count} (joining : state.stopper = .joining)
    (parking : state.workers worker = .parking) :
    ∃ labels final, exec step state labels = some final ∧ Stuck final := by
  obtain ⟨labels, last, ran, each, -, stopper, stay⟩ :=
    deliver_all tests (Finset.univ : Finset Client).toList state
  have still : last.workers worker = .parking := by
    rw [stay worker (by rw [parking]; nofun), parking]
  have blocks : step last (.work worker) = some (last.turn worker .waiting none) := by
    show last.work tests worker = _
    unfold work
    rw [still]
  refine ⟨labels ++ [.work worker], last.turn worker .waiting none, ?_, ?_, ?_, worker, ?_⟩
  · rw [exec_append, ran, Option.bind_some, exec, blocks]
    rfl
  · show last.stopper = .joining
    rw [stopper, joining]
  · intro client
    exact each client (Finset.mem_toList.mpr (Finset.mem_univ client))
  · exact Function.update_self ..

/-- **When `shut_down` leaves nobody blocked.** A run that calls `notify_all` only with no worker
between the predicate and the block never reaches a state in which a worker is blocked and nobody is
left to notify it. And after any other reachable `notify_all` some continuation does. -/
theorem shut_down_wakes_iff :
    (∀ labels : List (Label (Fin count) Client Task), Along step NotifiesNoneParking create labels →
      Always step (fun state => ¬ Stuck state) create labels) ∧
    (∀ state next : Threadpool count Client Task, Reachable step create state →
      ∀ label, step state label = some next → NotifiesAll state next →
        ((∀ labels, Always step (fun state => ¬ Stuck state) next labels) ↔
          NoneParking state)) := by
  refine ⟨fun labels along => awake_run along awake_create, ?_⟩
  intro state next reach label took notifies
  have stops : state.Stops :=
    reach.invariant (fun _ _ _ stops took => stops_step stops took) stops_start
  constructor
  · intro never worker parking
    have kept : next.workers worker = .parking := by
      rw [notifiesAll_workers took notifies worker, parking]
      rfl
    obtain ⟨labels, final, ran, stuck⟩ := parking_sticks notifies.2 kept
    exact (never labels).last ran stuck
  · intro standing labels
    have awake : Awake state := by
      refine ⟨stops, ?_⟩
      rw [notifies.1]
      rintro (joining | returned) <;> contradiction
    exact awake_behind (awake_step awake (fun _ _ _ => standing) took) (.inl notifies.2) labels

/-- The worker is blocked when `shut_down` calls `notify_all`. -/
theorem shut_down_wakes_iff_blocked :
    ∃ state next : Threadpool 1 Unit ℕ, Reachable step create state ∧
      step state .shutDown = some next ∧ state.workers 0 = .waiting ∧
      ((∀ labels, Always step (fun state => ¬ Stuck state) next labels) ↔ NoneParking state) := by
  have run : ∃ state next : Threadpool 1 Unit ℕ,
      exec step create [.work 0, .work 0, .work 0, .work 0, .shutDown, .shutDown] = some state ∧
      step state .shutDown = some next ∧ state.workers 0 = .waiting ∧ NotifiesAll state next :=
    ⟨_, _, rfl, rfl, rfl, rfl, rfl⟩
  obtain ⟨state, next, ran, took, blocked, notifies⟩ := run
  exact ⟨state, next, ⟨_, ran⟩, took, blocked,
    shut_down_wakes_iff.2 state next ⟨_, ran⟩ .shutDown took notifies⟩

/-- **A worker finds the predicate false, `shut_down` stores `_stop` and calls `notify_all`, and the
worker blocks**: the join waits for it, and nobody is left to notify it. -/
theorem stop_misses_worker :
    ¬ Always step (fun state => ¬ Stuck state) (create : Threadpool 1 Unit ℕ)
      [.work 0, .work 0, .work 0, .shutDown, .shutDown, .shutDown, .work 0] := by
  have run : ∃ final : Threadpool 1 Unit ℕ,
      exec step create [.work 0, .work 0, .work 0, .shutDown, .shutDown, .shutDown, .work 0] =
        some final ∧ Stuck final :=
    ⟨_, rfl, rfl, fun _ => rfl, 0, rfl⟩
  obtain ⟨final, ran, stuck⟩ := run
  intro never
  exact never.last ran stuck

end Threadpool

end IkunSvr
