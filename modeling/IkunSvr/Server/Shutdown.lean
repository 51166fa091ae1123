/-
**Shutting the loops of a `tcpsvr` down.**

The constructor of `tcpsvr` makes `_thd_count` sub-loops, and adds the `run` of each to a pool of as
many workers; `start` runs the main loop on the thread that calls it. `shut_down` stops the main loop,
then each sub-loop, and then the pool, whose workers it joins. `IoThreads` puts these together: a worker
that has taken the `run` of a sub-loop is that loop's thread until `run` returns. Any number of other
threads add tasks to the sub-loops meanwhile.

* `Acts` — a step is one of the pool's, or one of a single loop's;
* `Kept`, `Halts` — each `run` is executed once, and `shut_down` has stopped the loops it has passed;
* `after_shut_down` — **when `shut_down` has returned, no thread is in the `run` of a sub-loop**, nor can
  come to be; before, each is executed by one thread at most;
* `shut_down_ends` — **`shut_down` does not wait for a loop**: it returns, unless a worker blocks behind
  its `notify_all`.
-/

import IkunSvr.Loop.Serving
import IkunSvr.Pool.Serving
import Mathlib.Data.Fintype.Option

namespace IkunSvr

open Run WaitQueue WaitQueue.State

namespace IoThreads

/-- Where the thread in `tcpsvr::shut_down` is. -/
inductive StopPc (thds : ℕ)
  | idle
  /-- in the `shut_down` of the main loop, before `weakup` -/
  | main
  /-- before the sub-loop of this index, or behind all of them -/
  | subs (idx : ℕ)
  /-- in the `shut_down` of this sub-loop, before `weakup` -/
  | sub (idx : Fin thds)
  deriving DecidableEq

namespace StopPc

variable {thds : ℕ}

/-- The `shut_down` of the sub-loop has set its flag. -/
def passed (idx : Fin thds) : StopPc thds → Bool
  | .idle | .main => false
  | .subs next => decide (idx.val < next)
  | .sub last => decide (idx ≤ last)

/-- The `shut_down` of every loop is over. -/
def last : StopPc thds → Bool
  | .subs next => decide (thds ≤ next)
  | .idle | .main | .sub _ => false

/-- What is still to do with the loops, the turns of their threads that it brings about included. -/
def steps : StopPc thds → ℕ
  | .idle => 10 * thds + 11
  | .main => 10 * thds + 1
  | .subs idx => 10 * (thds - idx)
  | .sub idx => 10 * (thds - (idx + 1)) + 1

end StopPc

end IoThreads

/-- The loops of a `tcpsvr`, and the threads that run and stop them. The client `none` of a loop is the
thread in `shut_down`. -/
structure IoThreads (thds : ℕ) (Other Task : Type*) where
  /-- its client is the thread in the constructor -/
  pool : Threadpool thds Unit (Fin thds) := Threadpool.create
  main : WakeLoop (Option Other) Task := WakeLoop.create
  subs : Fin thds → WakeLoop (Option Other) Task := fun _ => WakeLoop.create
  /-- how many sub-loops the constructor has made -/
  made : ℕ := 0
  stopper : IoThreads.StopPc thds := .idle

namespace IoThreads

/-- A step of some thread. -/
inductive Label (thds : ℕ) (Other Task : Type*)
  /-- the constructor makes the next sub-loop, and pushes its `run` -/
  | construct
  | notify (woken : Option (Fin thds))
  /-- the next step of a worker, in `run` if it has taken that -/
  | work (worker : Fin thds)
  | spurious (worker : Fin thds)
  /-- `epoll_wait` of the loop that the worker runs returns these events -/
  | fetch (worker : Fin thds) (reported : List (WakeLoop.Chnl × Mask))
  /-- the next step of the thread in `start` -/
  | start
  /-- `epoll_wait` of the main loop returns these events -/
  | fetchMain (reported : List (WakeLoop.Chnl × Mask))
  | add (idx : Fin thds) (other : Other) (task : Task)
  | weakup (idx : Fin thds) (other : Other)
  /-- the next step of `shut_down` -/
  | stop

variable {thds : ℕ} {Other Task : Type*}

/-- No thread has taken a step. -/
def create : IoThreads thds Other Task where

/-- The sub-loop goes on. -/
def setSub (state : IoThreads thds Other Task) (idx : Fin thds)
    (loop : WakeLoop (Option Other) Task) : IoThreads thds Other Task :=
  { state with subs := Function.update state.subs idx loop }

/-- A step of the pool. -/
def onPool (state : IoThreads thds Other Task) (label : WaitQueue.Label (Fin thds) Unit (Fin thds)) :
    Option (IoThreads thds Other Task) :=
  (Threadpool.step state.pool label).map fun pool => { state with pool := pool }

section Step

variable [DecidableEq Other]

/-- A step of a sub-loop. -/
def onSub (state : IoThreads thds Other Task) (idx : Fin thds)
    (label : WakeLoop.Label (Option Other) Task) : Option (IoThreads thds Other Task) :=
  ((state.subs idx).step label).map (state.setSub idx)

/-- A step of the main loop. -/
def onMain (state : IoThreads thds Other Task) (label : WakeLoop.Label (Option Other) Task) :
    Option (IoThreads thds Other Task) :=
  (state.main.step label).map fun main => { state with main := main }

/-- The next step of a worker. -/
def work (state : IoThreads thds Other Task) (worker : Fin thds) :
    Option (IoThreads thds Other Task) :=
  match state.pool.workers worker with
  | .running idx =>
      if (state.subs idx).loop = .returned then state.onPool (.work worker) else state.onSub idx .run
  | _ => state.onPool (.work worker)

/-- The next step of `shut_down`. It is called when the constructor has returned. -/
def shutDown (state : IoThreads thds Other Task) : Option (IoThreads thds Other Task) :=
  match state.stopper with
  | .idle =>
      match state.pool.clients () with
      | .idle =>
          if state.made = thds then
            (state.onMain (.shutDown none)).map fun next => { next with stopper := .main }
          else none
      | .notifying _ => none
  | .main => (state.onMain (.weakup none)).map fun next => { next with stopper := .subs 0 }
  | .subs idx =>
      if inside : idx < thds then
        (state.onSub ⟨idx, inside⟩ (.shutDown none)).map fun next =>
          { next with stopper := .sub ⟨idx, inside⟩ }
      else state.onPool .shutDown
  | .sub idx =>
      (state.onSub idx (.weakup none)).map fun next => { next with stopper := .subs (idx + 1) }

/-- A step. -/
def step (state : IoThreads thds Other Task) :
    Label thds Other Task → Option (IoThreads thds Other Task)
  | .construct =>
      if inside : state.made < thds then
        (state.onPool (.push () ⟨state.made, inside⟩)).map fun next =>
          { next with made := state.made + 1 }
      else none
  | .notify woken => state.onPool (.notifyOne () woken)
  | .work worker => state.work worker
  | .spurious worker => state.onPool (.spurious worker)
  | .fetch worker reported =>
      match state.pool.workers worker with
      | .running idx => state.onSub idx (.fetch reported)
      | _ => none
  | .start => state.onMain .run
  | .fetchMain reported => state.onMain (.fetch reported)
  | .add idx other task => state.onSub idx (.add (some other) task)
  | .weakup idx other => state.onSub idx (.weakup (some other))
  | .stop => state.shutDown

/-! ### What a step does -/

/-- What a step does. -/
inductive Acts (state : IoThreads thds Other Task) : IoThreads thds Other Task → Prop
  | pool {label : WaitQueue.Label (Fin thds) Unit (Fin thds)}
      {pool : Threadpool thds Unit (Fin thds)} (acted : Threadpool.step state.pool label = some pool)
      (pushes : label.pushes = [])
      (ends : ∀ worker idx, label = .work worker → state.pool.workers worker = .running idx →
        (state.subs idx).loop = .returned)
      (stops : label = .shutDown → state.stopper.last = true) :
      Acts state { state with pool := pool }
  | construct (inside : state.made < thds) {pool : Threadpool thds Unit (Fin thds)}
      (acted : Threadpool.step state.pool (.push () ⟨state.made, inside⟩) = some pool) :
      Acts state { state with pool := pool, made := state.made + 1 }
  | sub (idx : Fin thds) {label : WakeLoop.Label (Option Other) Task}
      {loop : WakeLoop (Option Other) Task} (acted : (state.subs idx).step label = some loop)
      (others : label.caller ≠ some none)
      (runs : label.caller = none → ∃ worker, state.pool.workers worker = .running idx) :
      Acts state (state.setSub idx loop)
  | main {label : WakeLoop.Label (Option Other) Task} {main : WakeLoop (Option Other) Task}
      (acted : state.main.step label = some main) (own : label.caller = none) :
      Acts state { state with main := main }
  | stopMain (here : state.stopper = .idle) (built : state.made = thds)
      (quiet : state.pool.clients () = .idle) {main : WakeLoop (Option Other) Task}
      (acted : state.main.step (.shutDown none) = some main) :
      Acts state { state with main := main, stopper := .main }
  | wakeMain (here : state.stopper = .main) {main : WakeLoop (Option Other) Task}
      (acted : state.main.step (.weakup none) = some main) :
      Acts state { state with main := main, stopper := .subs 0 }
  | stopSub (idx : Fin thds) (here : state.stopper = .subs idx) {loop : WakeLoop (Option Other) Task}
      (acted : (state.subs idx).step (.shutDown none) = some loop) :
      Acts state { state.setSub idx loop with stopper := .sub idx }
  | wakeSub (idx : Fin thds) (here : state.stopper = .sub idx) {loop : WakeLoop (Option Other) Task}
      (acted : (state.subs idx).step (.weakup none) = some loop) :
      Acts state { state.setSub idx loop with stopper := .subs (idx + 1) }

variable {state next : IoThreads thds Other Task} {label : Label thds Other Task}

theorem onPool_acts {label : WaitQueue.Label (Fin thds) Unit (Fin thds)}
    (took : state.onPool label = some next) (pushes : label.pushes = [])
    (ends : ∀ worker idx, label = .work worker → state.pool.workers worker = .running idx →
      (state.subs idx).loop = .returned)
    (stops : label = .shutDown → state.stopper.last = true) : Acts state next := by
  obtain ⟨pool, acted, rfl⟩ := Option.map_eq_some_iff.mp took
  exact .pool acted pushes ends stops

theorem onSub_acts {idx : Fin thds} {label : WakeLoop.Label (Option Other) Task}
    (took : state.onSub idx label = some next) (others : label.caller ≠ some none)
    (runs : label.caller = none → ∃ worker, state.pool.workers worker = .running idx) :
    Acts state next := by
  obtain ⟨loop, acted, rfl⟩ := Option.map_eq_some_iff.mp took
  exact .sub idx acted others runs

theorem shutDown_acts (took : state.shutDown = some next) : Acts state next := by
  unfold shutDown at took
  split at took
  next here =>
    split at took
    next quiet =>
      split at took
      next built =>
        obtain ⟨_, called, rfl⟩ := Option.map_eq_some_iff.mp took
        obtain ⟨main, acted, rfl⟩ := Option.map_eq_some_iff.mp called
        exact .stopMain here built quiet acted
      next => cases took
    next => cases took
  next here =>
    obtain ⟨_, called, rfl⟩ := Option.map_eq_some_iff.mp took
    obtain ⟨main, acted, rfl⟩ := Option.map_eq_some_iff.mp called
    exact .wakeMain here acted
  next idx here =>
    split at took
    next inside =>
      obtain ⟨_, called, rfl⟩ := Option.map_eq_some_iff.mp took
      obtain ⟨loop, acted, rfl⟩ := Option.map_eq_some_iff.mp called
      exact .stopSub ⟨idx, inside⟩ here acted
    next behind =>
      refine onPool_acts took rfl nofun fun _ => ?_
      rw [here]
      exact decide_eq_true (not_lt.mp behind)
  next idx here =>
    obtain ⟨_, called, rfl⟩ := Option.map_eq_some_iff.mp took
    obtain ⟨loop, acted, rfl⟩ := Option.map_eq_some_iff.mp called
    exact .wakeSub idx here acted

/-- **What a step of the system does.** -/
theorem step_acts (took : state.step label = some next) : Acts state next := by
  cases label with
  | construct =>
      simp only [step] at took
      split at took
      next inside =>
        obtain ⟨_, pushed, rfl⟩ := Option.map_eq_some_iff.mp took
        obtain ⟨pool, acted, rfl⟩ := Option.map_eq_some_iff.mp pushed
        exact .construct inside acted
      next => cases took
  | notify | spurious => exact onPool_acts took rfl nofun nofun
  | work worker =>
      change state.work worker = some next at took
      unfold work at took
      split at took
      next idx running =>
        split at took
        next returned =>
          refine onPool_acts took rfl ?_ nofun
          rintro _ other ⟨⟩ here
          rw [running] at here
          cases here
          exact returned
        next => exact onSub_acts took nofun fun _ => ⟨worker, running⟩
      next elsewhere =>
        refine onPool_acts took rfl ?_ nofun
        rintro _ idx ⟨⟩ running
        exact absurd running (elsewhere idx)
  | fetch worker reported =>
      simp only [step] at took
      split at took
      next idx running => exact onSub_acts took nofun fun _ => ⟨worker, running⟩
      next => cases took
  | start | fetchMain =>
      obtain ⟨main, acted, rfl⟩ := Option.map_eq_some_iff.mp took
      exact .main acted rfl
  | add idx other task => exact onSub_acts took (by simp [WakeLoop.Label.caller]) nofun
  | weakup idx other => exact onSub_acts took (by simp [WakeLoop.Label.caller]) nofun
  | stop => exact shutDown_acts took

/-! ### What holds in every state -/

/-- The pool and the loops are as they could be alone. -/
structure Parts (state : IoThreads thds Other Task) : Prop where
  pool : Reachable Threadpool.step Threadpool.create state.pool
  main : Reachable WakeLoop.step WakeLoop.create state.main
  subs : ∀ idx, Reachable WakeLoop.step WakeLoop.create (state.subs idx)

theorem parts_create : (create : IoThreads thds Other Task).Parts :=
  ⟨⟨[], rfl⟩, ⟨[], rfl⟩, fun _ => ⟨[], rfl⟩⟩

omit [DecidableEq Other] in
/-- What holds of every sub-loop holds when one of them has gone on to where it holds. -/
theorem forall_setSub (holds : Fin thds → WakeLoop (Option Other) Task → Prop) {idx : Fin thds}
    {loop : WakeLoop (Option Other) Task} (now : holds idx loop)
    (others : ∀ other, other ≠ idx → holds other (state.subs other)) (other : Fin thds) :
    holds other ((state.setSub idx loop).subs other) :=
  (Function.forall_update_iff state.subs holds).mpr ⟨now, others⟩ other

theorem Parts.setSub (parts : state.Parts) {idx : Fin thds}
    {label : WakeLoop.Label (Option Other) Task} {loop : WakeLoop (Option Other) Task}
    (acted : (state.subs idx).step label = some loop) : ∀ other,
      Reachable WakeLoop.step WakeLoop.create ((state.setSub idx loop).subs other) :=
  forall_setSub (fun _ loop => Reachable WakeLoop.step WakeLoop.create loop)
    ((parts.subs idx).next acted) fun other _ => parts.subs other

theorem parts_step (parts : state.Parts) (acts : Acts state next) : next.Parts := by
  cases acts with
  | pool acted | construct inside acted => exact ⟨parts.pool.next acted, parts.main, parts.subs⟩
  | sub idx acted | stopSub idx here acted | wakeSub idx here acted =>
      exact ⟨parts.pool, parts.main, parts.setSub acted⟩
  | main acted | stopMain here built quiet acted | wakeMain here acted =>
      exact ⟨parts.pool, parts.main.next acted, parts.subs⟩

/-- The constructor pushes the `run` of each sub-loop once; the loop's thread is before its loop until
a worker has taken that, and has returned when it is done. -/
structure Kept (state : IoThreads thds Other Task) : Prop where
  order : state.pool.pushed = (List.finRange thds).take state.made
  begun : ∀ idx, idx ∉ state.pool.taken → (state.subs idx).loop = .top
  ended : ∀ idx, idx ∈ state.pool.done → (state.subs idx).loop = .returned

omit [DecidableEq Other] in
theorem kept_create : (create : IoThreads thds Other Task).Kept :=
  ⟨rfl, fun _ _ => rfl, nofun⟩

/-- A sub-loop goes on, by its thread only if a worker has taken its `run`. -/
theorem Kept.setSub (kept : state.Kept) {idx : Fin thds}
    {label : WakeLoop.Label (Option Other) Task} {loop : WakeLoop (Option Other) Task}
    (acted : (state.subs idx).step label = some loop)
    (runs : label.caller = none → idx ∈ state.pool.taken) : (state.setSub idx loop).Kept where
  order := kept.order
  begun := by
    refine forall_setSub (fun idx loop => idx ∉ state.pool.taken → loop.loop = .top)
      (fun untaken => ?_) fun other _ => kept.begun other
    exact (WakeLoop.loop_apart acted (mt runs untaken)).trans (kept.begun idx untaken)
  ended := forall_setSub (fun idx loop => idx ∈ state.pool.done → loop.loop = .returned)
    (fun done => WakeLoop.returned_step (kept.ended idx done) acted) fun other _ => kept.ended other

/-- **Every step keeps the loops with their threads.** -/
theorem kept_step (parts : state.Parts) (kept : state.Kept) (acts : Acts state next) : next.Kept := by
  have sound : state.pool.Sound := (tended_reachable Threadpool.tests_serves parts.pool).1
  cases acts with
  | pool acted pushes ends =>
      refine ⟨?_, fun idx untaken => kept.begun idx fun taken => untaken (taken_step acted taken),
        fun idx done => ?_⟩
      · rw [pushed_step acted, pushes, List.append_nil]
        exact kept.order
      · rcases done_step acted with same | ⟨worker, task, working, running, more⟩
        · rw [same] at done
          exact kept.ended idx done
        · rw [more] at done
          rcases List.mem_append.mp done with before | now
          · exact kept.ended idx before
          · obtain rfl := List.mem_singleton.mp now
            exact ends worker idx working running
  | construct inside acted =>
      refine ⟨?_, fun idx untaken => kept.begun idx fun taken => untaken (taken_step acted taken),
        fun idx done => ?_⟩
      · rw [pushed_step acted, kept.order, List.take_add_one, List.getElem?_eq_getElem (by simpa)]
        simp [WaitQueue.Label.pushes]
      · rcases done_step acted with same | ⟨_, _, working, -⟩
        · rw [same] at done
          exact kept.ended idx done
        · cases working
  | sub idx acted others runs =>
      exact kept.setSub acted fun own => sound.mem_taken.mpr (.inr (runs own))
  | main | stopMain | wakeMain => exact ⟨kept.order, kept.begun, kept.ended⟩
  | stopSub idx here acted | wakeSub idx here acted =>
      have moved := kept.setSub acted (by simp [WakeLoop.Label.caller])
      exact ⟨moved.order, moved.begun, moved.ended⟩

/-- Where `shut_down` stands with the loops: the flags of those it has passed are set, and it is in the
call of one of them from its store to its `weakup`. The pool is stopped behind them all. -/
structure Halts (state : IoThreads thds Other Task) : Prop where
  built : state.stopper ≠ .idle → state.made = thds
  quiet : state.stopper ≠ .idle → state.pool.clients () = .idle
  mainStopped : state.stopper ≠ .idle → state.main.shutDown = true
  mainCalling : state.main.callers none = .idle ↔ state.stopper ≠ .main
  mainOthers : ∀ other, state.main.callers (some other) = .idle
  stopped : ∀ idx, state.stopper.passed idx = true → (state.subs idx).shutDown = true
  calling : ∀ idx, (state.subs idx).callers none = .idle ↔ state.stopper ≠ .sub idx
  poolStopped : state.pool.stopper ≠ .idle → state.stopper.last = true

omit [DecidableEq Other] in
theorem halts_create : (create : IoThreads thds Other Task).Halts where
  built := fun called => absurd rfl called
  quiet := fun called => absurd rfl called
  mainStopped := fun called => absurd rfl called
  mainCalling := iff_of_true rfl nofun
  mainOthers := fun _ => rfl
  stopped := nofun
  calling := fun _ => iff_of_true rfl nofun
  poolStopped := fun called => absurd rfl called

/-- Behind every loop, `shut_down` is in the call of none. -/
theorem StopPc.last_eq {stopper : StopPc thds} (last : stopper.last = true) :
    stopper ≠ .idle ∧ stopper ≠ .main ∧ (∀ idx, stopper ≠ .sub idx) ∧
      ∀ idx, stopper.passed idx = true := by
  cases stopper with
  | subs next =>
      have behind : thds ≤ next := of_decide_eq_true last
      exact ⟨nofun, nofun, nofun, fun idx => decide_eq_true (idx.isLt.trans_le behind)⟩
  | idle | main | sub => cases last

/-- A flag that is set stays set. -/
theorem shutDown_kept {loop after : WakeLoop (Option Other) Task}
    {label : WakeLoop.Label (Option Other) Task} (acted : loop.step label = some after)
    (set : loop.shutDown = true) : after.shutDown = true := by
  rw [WakeLoop.shutDown_step acted]
  cases label <;> first | rfl | exact set

/-- The constructor's thread stays out of `add` while others use the pool. -/
theorem quiet_pool {label : WaitQueue.Label (Fin thds) Unit (Fin thds)}
    {pool after : Threadpool thds Unit (Fin thds)} (acted : Threadpool.step pool label = some after)
    (pushes : label.pushes = []) (quiet : pool.clients () = .idle) : after.clients () = .idle := by
  cases label with
  | push => cases pushes
  | notifyOne client woken => simp [Threadpool.step, State.step, quiet] at acted
  | shutDown | work | spurious =>
      rw [clients_apart acted (by simp [WaitQueue.Label.caller])]
      exact quiet

theorem halts_step (halts : state.Halts) (acts : Acts state next) : next.Halts := by
  cases acts with
  | @pool label pool acted pushes ends stops =>
      refine ⟨halts.built, fun called => quiet_pool acted pushes (halts.quiet called),
        halts.mainStopped, halts.mainCalling, halts.mainOthers, halts.stopped, halts.calling,
        fun called => ?_⟩
      by_cases stopping : label = .shutDown
      · exact stops stopping
      · refine halts.poolStopped fun idle => called ?_
        exact (still_step acted stopping).2.trans idle
  | construct inside acted =>
      refine ⟨fun called => ?_, fun called => ?_, halts.mainStopped, halts.mainCalling,
        halts.mainOthers, halts.stopped, halts.calling,
        fun called => halts.poolStopped fun idle => called ?_⟩
      · exact absurd (halts.built called) (Nat.ne_of_lt inside)
      · exact absurd (halts.built called) (Nat.ne_of_lt inside)
      · exact (still_step acted nofun).2.trans idle
  | sub idx acted others =>
      refine ⟨halts.built, halts.quiet, halts.mainStopped, halts.mainCalling, halts.mainOthers, ?_, ?_,
        halts.poolStopped⟩
      · exact forall_setSub (fun idx loop => state.stopper.passed idx = true → loop.shutDown = true)
          (fun passed => shutDown_kept acted (halts.stopped idx passed))
          fun other _ => halts.stopped other
      · refine forall_setSub (fun idx loop => loop.callers none = .idle ↔ state.stopper ≠ .sub idx) ?_
          fun other _ => halts.calling other
        rw [WakeLoop.callers_apart acted others]
        exact halts.calling idx
  | @main label main acted own =>
      have still : ∀ client, main.callers client = state.main.callers client := fun client =>
        WakeLoop.callers_apart acted (by rw [own]; nofun)
      exact ⟨halts.built, halts.quiet, fun called => shutDown_kept acted (halts.mainStopped called),
        still none ▸ halts.mainCalling, fun other => (still _).trans (halts.mainOthers other),
        halts.stopped, halts.calling, halts.poolStopped⟩
  | stopMain here built quiet acted =>
      refine ⟨fun _ => built, fun _ => quiet, fun _ => WakeLoop.shutDown_step acted, ?_, fun other => ?_, nofun,
        fun idx => ?_, fun called => ?_⟩
      · rw [WakeLoop.callers_step acted]
        simp
      · rw [WakeLoop.callers_apart acted (by simp [WakeLoop.Label.caller])]
        exact halts.mainOthers other
      · exact (halts.calling idx).trans (iff_of_true (by rw [here]; nofun) nofun)
      · have last := halts.poolStopped called
        rw [here] at last
        cases last
  | wakeMain here acted =>
      have begun : state.stopper ≠ .idle := by rw [here]; nofun
      refine ⟨fun _ => halts.built begun, fun _ => halts.quiet begun, fun _ => ?_, ?_, fun other => ?_,
        nofun, fun idx => ?_, fun called => ?_⟩
      · exact shutDown_kept acted (halts.mainStopped begun)
      · rw [WakeLoop.callers_step acted]
        simp
      · rw [WakeLoop.callers_apart acted (by simp [WakeLoop.Label.caller])]
        exact halts.mainOthers other
      · exact (halts.calling idx).trans (iff_of_true (by rw [here]; nofun) nofun)
      · have last := halts.poolStopped called
        rw [here] at last
        cases last
  | stopSub idx here acted =>
      have called : state.stopper ≠ .idle := by rw [here]; nofun
      refine ⟨fun _ => halts.built called, fun _ => halts.quiet called, fun _ => halts.mainStopped called,
        halts.mainCalling.trans (iff_of_true (by rw [here]; nofun) nofun), halts.mainOthers, ?_, ?_,
        fun stops => ?_⟩
      · refine forall_setSub (fun other loop => StopPc.passed other (.sub idx) = true →
          loop.shutDown = true) (fun _ => WakeLoop.shutDown_step acted) fun other apart passed => ?_
        refine halts.stopped other ?_
        rw [here]
        have less : other < idx := lt_of_le_of_ne (of_decide_eq_true passed) apart
        exact decide_eq_true less
      · refine forall_setSub (fun other loop => loop.callers none = .idle ↔ StopPc.sub idx ≠ .sub other)
          ?_ fun other apart => ?_
        · rw [WakeLoop.callers_step acted]
          simp
        · exact (halts.calling other).trans
            (iff_of_true (by rw [here]; nofun) fun same => apart (StopPc.sub.inj same).symm)
      · have last := halts.poolStopped stops
        rw [here] at last
        exact absurd (of_decide_eq_true last) (not_le.mpr idx.isLt)
  | wakeSub idx here acted =>
      have called : state.stopper ≠ .idle := by rw [here]; nofun
      refine ⟨fun _ => halts.built called, fun _ => halts.quiet called, fun _ => halts.mainStopped called,
        halts.mainCalling.trans (iff_of_true (by rw [here]; nofun) nofun), halts.mainOthers, ?_, ?_,
        fun stops => ?_⟩
      · have before : ∀ other : Fin thds, StopPc.passed other (.subs (idx + 1)) = true →
            (state.subs other).shutDown = true := by
          intro other passed
          refine halts.stopped other ?_
          rw [here]
          exact decide_eq_true (Nat.lt_succ_iff.mp (of_decide_eq_true passed))
        exact forall_setSub (fun other loop => StopPc.passed other (.subs (idx + 1)) = true →
          loop.shutDown = true) (fun passed => shutDown_kept acted (before idx passed))
          fun other _ => before other
      · refine forall_setSub (fun other loop => loop.callers none = .idle ↔
          StopPc.subs (idx + 1) ≠ .sub other) ?_ fun other apart => ?_
        · rw [WakeLoop.callers_step acted]
          simp
        · exact (halts.calling other).trans
            (iff_of_true (fun same => apart (StopPc.sub.inj (here.symm.trans same)).symm) nofun)
      · have last := halts.poolStopped stops
        rw [here] at last
        cases last

/-- What holds in every state. -/
structure Sound (state : IoThreads thds Other Task) : Prop where
  parts : state.Parts
  kept : state.Kept
  halts : state.Halts

theorem sound_step (sound : state.Sound) (took : state.step label = some next) : next.Sound :=
  ⟨parts_step sound.parts (step_acts took), kept_step sound.parts sound.kept (step_acts took),
    halts_step sound.halts (step_acts took)⟩

theorem sound_reachable (reach : Reachable step create state) : state.Sound :=
  reach.invariant (fun _ _ _ sound took => sound_step sound took)
    ⟨parts_create, kept_create, halts_create⟩

/-! ### When `shut_down` has returned -/

/-- The `run` of each sub-loop is pushed once. -/
theorem Sound.apart (sound : state.Sound) : state.pool.pushed.Nodup := by
  rw [sound.kept.order]
  exact (List.nodup_finRange thds).sublist (List.take_sublist _ _)

/-- **No sub-loop is run by two threads, and none is run when `shut_down` has returned.** In every
reachable state a sub-loop whose `run` is executed is executed by one worker. When the pool's
`shut_down` has returned, every worker has ended; the flag of the main loop and those of all sub-loops
are set; and each sub-loop has either returned from its `run`, or never began and its `run` is still in
the queue of the pool. -/
theorem after_shut_down (reach : Reachable step create state) :
    (∀ worker other idx, state.pool.workers worker = .running idx →
      state.pool.workers other = .running idx → other = worker) ∧
    (state.pool.stopper = .returned →
      (∀ worker, (state.pool.workers worker).gone = true) ∧ state.main.shutDown = true ∧
        ∀ idx, (state.subs idx).shutDown = true ∧
          ((state.subs idx).loop = .returned ∧ idx ∈ state.pool.done ∨
            (state.subs idx).loop = .top ∧ idx ∈ state.pool.queue)) := by
  have whole := sound_reachable reach
  have sound : state.pool.Sound := (tended_reachable Threadpool.tests_serves whole.parts.pool).1
  refine ⟨fun worker other idx running runs =>
    (sound.runs_alone whole.apart running).2 other runs, fun returned => ?_⟩
  have stops : state.pool.Stops :=
    whole.parts.pool.invariant (fun _ _ _ stops took => stops_step stops took) stops_start
  have gone := stops.ended returned
  obtain ⟨called, -, -, passed⟩ :=
    StopPc.last_eq (whole.halts.poolStopped (by rw [returned]; nofun))
  refine ⟨gone, whole.halts.mainStopped called, fun idx =>
    ⟨whole.halts.stopped idx (passed idx), ?_⟩⟩
  by_cases taken : idx ∈ state.pool.taken
  · rcases sound.mem_taken.mp taken with done | ⟨worker, running⟩
    · exact .inl ⟨whole.kept.ended idx done, done⟩
    · have left := gone worker
      rw [running] at left
      cases left
  · have pushed : idx ∈ state.pool.pushed := by
      rw [whole.kept.order, whole.halts.built called, List.take_of_length_le (by simp)]
      exact List.mem_finRange idx
    rw [← sound.fifo] at pushed
    exact .inr ⟨whole.kept.begun idx taken, (List.mem_append.mp pushed).resolve_left taken⟩

/-- One sub-loop, which a worker runs when `shut_down` is called; its `run` returns, the worker ends, and
`shut_down` returns. -/
theorem after_shut_down_one :
    ∃ state : IoThreads 1 Unit ℕ, state.pool.stopper = .returned ∧
      (∀ worker, (state.pool.workers worker).gone = true) ∧
        ((state.subs 0).loop = .returned ∧ 0 ∈ state.pool.done ∨
          (state.subs 0).loop = .top ∧ 0 ∈ state.pool.queue) := by
  have run : ∃ state : IoThreads 1 Unit ℕ, exec step create
      ([.construct, .notify none] ++ List.replicate 6 (.work 0) ++ List.replicate 4 .stop ++
        [.fetch 0 [(.weak, epollIn)]] ++ List.replicate 7 (.work 0) ++ List.replicate 3 .stop ++
        [.work 0, .stop]) = some state ∧ state.pool.stopper = .returned :=
    ⟨_, rfl, rfl⟩
  obtain ⟨state, ran, returned⟩ := run
  obtain ⟨gone, -, subs⟩ := (after_shut_down ⟨_, ran⟩).2 returned
  exact ⟨state, returned, gone, (subs 0).2⟩

/-! ### What is still to do -/

/-- A step of a thread of the server's, or of one that has still to call `weakup`; or `epoll_wait` that
returns the eventfd alone. -/
def Label.goes : Label thds Other Task → Bool
  | .work _ | .start | .weakup .. | .stop | .notify _ => true
  | .fetch _ reported | .fetchMain reported => reported.map Prod.fst = [.weak]
  | .construct | .spurious _ | .add .. => false

/-- What is still to do. -/
def measure [Fintype Other] (state : IoThreads thds Other Task) : ℕ :=
  state.pool.measure + state.pool.stopper.steps thds + state.main.measure +
    (∑ idx, (state.subs idx).measure) + state.stopper.steps

/-- Nobody can go on. -/
def Rests (state : IoThreads thds Other Task) : Prop :=
  Run.Rests step Label.goes state

section Measure

variable [Fintype Other]

omit [DecidableEq Other] in
/-- A sub-loop goes on, and `shut_down` with it. -/
theorem measure_setSub {idx : Fin thds} {loop : WakeLoop (Option Other) Task} {stopper : StopPc thds}
    (less : loop.measure + stopper.steps < (state.subs idx).measure + state.stopper.steps) :
    measure { state.setSub idx loop with stopper := stopper } < state.measure := by
  have share := sum_update WakeLoop.measure state.subs idx loop
  show state.pool.measure + state.pool.stopper.steps thds + state.main.measure +
    (∑ other, (Function.update state.subs idx loop other).measure) + stopper.steps < state.measure
  unfold measure
  omega

omit [DecidableEq Other] in
/-- The main loop goes on, and `shut_down` with it. -/
theorem measure_main {main : WakeLoop (Option Other) Task} {stopper : StopPc thds}
    (less : main.measure + stopper.steps < state.main.measure + state.stopper.steps) :
    measure { state with main := main, stopper := stopper } < state.measure := by
  show state.pool.measure + state.pool.stopper.steps thds + main.measure +
    (∑ other, (state.subs other).measure) + stopper.steps < state.measure
  unfold measure
  omega

omit [DecidableEq Other] in
theorem measure_onPool {label : WaitQueue.Label (Fin thds) Unit (Fin thds)}
    (goes : label.own = true ∨ label = .shutDown) (took : state.onPool label = some next) :
    next.measure < state.measure := by
  obtain ⟨pool, acted, rfl⟩ := Option.map_eq_some_iff.mp took
  have less : pool.measure + pool.stopper.steps thds <
      state.pool.measure + state.pool.stopper.steps thds := by
    rcases goes with own | rfl
    · have lowers := WaitQueue.State.measure_step own acted
      have still := (still_step acted (by rintro rfl; cases own)).2
      rw [still]
      omega
    · have lowers := measure_shutDown (show state.pool.shutDown = some pool from acted)
      rwa [Fintype.card_fin] at lowers
  show pool.measure + pool.stopper.steps thds + state.main.measure +
    (∑ other, (state.subs other).measure) + state.stopper.steps < state.measure
  unfold measure
  omega

theorem measure_onSub {idx : Fin thds} {label : WakeLoop.Label (Option Other) Task}
    (goes : label.goes = true) (took : state.onSub idx label = some next) :
    next.measure < state.measure := by
  obtain ⟨loop, acted, rfl⟩ := Option.map_eq_some_iff.mp took
  exact measure_setSub (Nat.add_lt_add_right (WakeLoop.measure_step goes acted) _)

theorem measure_onMain {label : WakeLoop.Label (Option Other) Task} (goes : label.goes = true)
    (took : state.onMain label = some next) : next.measure < state.measure := by
  obtain ⟨main, acted, rfl⟩ := Option.map_eq_some_iff.mp took
  exact measure_main (Nat.add_lt_add_right (WakeLoop.measure_step goes acted) _)

theorem measure_stop (took : state.shutDown = some next) : next.measure < state.measure := by
  unfold shutDown at took
  split at took
  next here =>
    split at took
    next =>
      split at took
      next =>
        obtain ⟨_, called, rfl⟩ := Option.map_eq_some_iff.mp took
        obtain ⟨main, acted, rfl⟩ := Option.map_eq_some_iff.mp called
        have costs := WakeLoop.measure_shutDown acted
        show measure { state with main := main, stopper := .main } < state.measure
        refine measure_main ?_
        rw [here, costs]
        simp only [StopPc.steps]
        omega
      next => cases took
    next => cases took
  next here =>
    obtain ⟨_, called, rfl⟩ := Option.map_eq_some_iff.mp took
    obtain ⟨main, acted, rfl⟩ := Option.map_eq_some_iff.mp called
    have less := WakeLoop.measure_step rfl acted
    show measure { state with main := main, stopper := .subs 0 } < state.measure
    refine measure_main ?_
    rw [here]
    simp only [StopPc.steps]
    omega
  next idx here =>
    split at took
    next inside =>
      obtain ⟨_, called, rfl⟩ := Option.map_eq_some_iff.mp took
      obtain ⟨loop, acted, rfl⟩ := Option.map_eq_some_iff.mp called
      have costs := WakeLoop.measure_shutDown acted
      refine measure_setSub ?_
      rw [here, costs]
      simp only [StopPc.steps]
      omega
    next => exact measure_onPool (.inr rfl) took
  next idx here =>
    obtain ⟨_, called, rfl⟩ := Option.map_eq_some_iff.mp took
    obtain ⟨loop, acted, rfl⟩ := Option.map_eq_some_iff.mp called
    have less := WakeLoop.measure_step rfl acted
    refine measure_setSub ?_
    rw [here]
    simp only [StopPc.steps]
    omega

/-- **Every step of those that go on lowers what is still to do.** -/
theorem measure_step (goes : label.goes = true) (took : state.step label = some next) :
    next.measure < state.measure := by
  cases label with
  | notify woken => exact measure_onPool (.inl rfl) took
  | work worker =>
      change state.work worker = some next at took
      unfold work at took
      repeat' split at took
      · exact measure_onPool (.inl rfl) took
      · exact measure_onSub rfl took
      · exact measure_onPool (.inl rfl) took
  | fetch worker reported =>
      simp only [step] at took
      split at took
      next =>
        exact measure_onSub
          (show WakeLoop.Label.goes (.fetch reported : WakeLoop.Label (Option Other) Task) = true
            from goes) took
      next => cases took
  | start => exact measure_onMain rfl took
  | fetchMain reported =>
      exact measure_onMain
        (show WakeLoop.Label.goes (.fetch reported : WakeLoop.Label (Option Other) Task) = true
          from goes) took
  | weakup idx other => exact measure_onSub rfl took
  | stop => exact measure_stop took
  | construct | spurious | add => cases goes

end Measure

/-! ### Rest -/

/-- **Where nobody can go on, `shut_down` has passed every loop**, once it was called. -/
theorem Rests.passed (rests : state.Rests) (sound : state.Sound) (called : state.stopper ≠ .idle) :
    state.stopper.last = true := by
  have stuck : state.shutDown = none := rests .stop rfl
  cases here : state.stopper with
  | idle => exact absurd here called
  | main =>
      have calling := mt sound.halts.mainCalling.mp (fun out => out here)
      simp [shutDown, here, onMain, WakeLoop.step, calling] at stuck
  | subs idx =>
      by_cases inside : idx < thds
      · have calling := (sound.halts.calling ⟨idx, inside⟩).mpr (by simp [here])
        simp [shutDown, here, inside, onSub, WakeLoop.step, calling] at stuck
      · exact decide_eq_true (not_lt.mp inside)
  | sub idx =>
      have calling := mt (sound.halts.calling idx).mp (fun out => out here)
      simp [shutDown, here, onSub, WakeLoop.step, calling] at stuck

/-- **Where nobody can go on, the main loop has returned.** -/
theorem Rests.main (rests : state.Rests) (sound : state.Sound) (called : state.stopper ≠ .idle) :
    state.main.loop = .returned := by
  obtain ⟨-, elsewhere, -, -⟩ := StopPc.last_eq (rests.passed sound called)
  refine (WakeLoop.sound_reachable sound.parts.main).returned_of_rest
    (sound.halts.mainStopped called) ?_
  intro label goes
  cases label with
  | run => exact Option.map_eq_none_iff.mp (rests .start rfl)
  | weakup client =>
      cases client with
      | none => exact if_pos (sound.halts.mainCalling.mpr elsewhere)
      | some other => exact if_pos (sound.halts.mainOthers other)
  | fetch reported => exact Option.map_eq_none_iff.mp (rests (.fetchMain reported) goes)
  | add | shutDown => cases goes

/-- **Where nobody can go on, no worker is in the `run` of a loop.** -/
theorem Rests.free (rests : state.Rests) (sound : state.Sound) (called : state.stopper ≠ .idle)
    (worker idx : Fin thds) : state.pool.workers worker ≠ .running idx := by
  intro running
  obtain ⟨-, -, elsewhere, passed⟩ := StopPc.last_eq (rests.passed sound called)
  have stuck : state.work worker = none := rests (.work worker) rfl
  simp only [work, running] at stuck
  split at stuck
  next returned =>
    simp [onPool, Threadpool.step, WaitQueue.State.step, WaitQueue.State.work, running] at stuck
  next runs =>
    refine runs ((WakeLoop.sound_reachable (sound.parts.subs idx)).returned_of_rest
      (sound.halts.stopped idx (passed idx)) ?_)
    intro label goes
    cases label with
    | run => exact Option.map_eq_none_iff.mp stuck
    | weakup client =>
        cases client with
        | none => exact if_pos ((sound.halts.calling idx).mpr (elsewhere idx))
        | some other => exact Option.map_eq_none_iff.mp (rests (.weakup idx other) rfl)
    | fetch reported =>
        have blocked := rests (.fetch worker reported) goes
        simp only [step, running] at blocked
        exact Option.map_eq_none_iff.mp blocked
    | add | shutDown => cases goes

/-- **Where nobody can go on, the pool is at rest.** -/
theorem Rests.pool (rests : state.Rests) (sound : state.Sound) (called : state.stopper ≠ .idle) :
    state.pool.Rests Threadpool.tests := by
  intro label own
  cases label with
  | work worker =>
      have stuck : state.work worker = none := rests (.work worker) rfl
      unfold work at stuck
      split at stuck
      next idx running => exact absurd running (rests.free sound called worker idx)
      next => exact Option.map_eq_none_iff.mp stuck
  | notifyOne client woken => exact Option.map_eq_none_iff.mp (rests (.notify woken) rfl)
  | push | shutDown | spurious => cases own

/-- **Where nobody can go on**, every worker is blocked or has ended; `shut_down` has returned exactly
when none is blocked. -/
theorem Rests.joined (rests : state.Rests) (sound : state.Sound) (called : state.stopper ≠ .idle) :
    state.pool.stopper = .returned ↔ ∀ worker, state.pool.workers worker ≠ .waiting := by
  have tended := (tended_reachable Threadpool.tests_serves sound.parts.pool).1
  have still := (rests.pool sound called).still tended
  have stops : state.pool.Stops :=
    sound.parts.pool.invariant (fun _ _ _ stops took => stops_step stops took) stops_start
  constructor
  · intro returned worker waiting
    have gone := stops.ended returned worker
    rw [waiting] at gone
    cases gone
  · intro awake
    have gone : ∀ worker, (state.pool.workers worker).gone = true := by
      intro worker
      rw [(still worker).resolve_left (awake worker)]
      rfl
    obtain ⟨idx, here, behind⟩ : ∃ idx, state.stopper = .subs idx ∧ ¬ idx < thds := by
      have last := rests.passed sound called
      cases here : state.stopper with
      | subs idx =>
          rw [here] at last
          exact ⟨idx, rfl, not_lt.mpr (of_decide_eq_true last)⟩
      | idle | main | sub =>
          rw [here] at last
          cases last
    have stuck : state.shutDown = none := rests .stop rfl
    simp only [shutDown, here, dif_neg behind] at stuck
    have blocked : state.pool.shutDown = none := Option.map_eq_none_iff.mp stuck
    unfold State.shutDown at blocked
    split at blocked
    next => cases blocked
    next => cases blocked
    next => cases blocked
    next =>
      rw [if_pos gone] at blocked
      cases blocked
    next returned => exact returned

/-! ### Who is blocked in the end -/

/-- The pool takes a step of the workers', the notifications' or the stopping thread's, or none. -/
def PoolGoes (state next : IoThreads thds Other Task) : Prop :=
  next.pool = state.pool ∨ ∃ acts, (WaitQueue.Label.own acts = true ∨ acts = .shutDown) ∧
    Threadpool.step state.pool acts = some next.pool

omit [DecidableEq Other] in
theorem onPool_goes {acts : WaitQueue.Label (Fin thds) Unit (Fin thds)}
    (goes : acts.own = true ∨ acts = .shutDown) (took : state.onPool acts = some next) :
    PoolGoes state next := by
  obtain ⟨pool, acted, rfl⟩ := Option.map_eq_some_iff.mp took
  exact .inr ⟨acts, goes, acted⟩

theorem onSub_goes {idx : Fin thds} {acts : WakeLoop.Label (Option Other) Task}
    (took : state.onSub idx acts = some next) : PoolGoes state next := by
  obtain ⟨loop, acted, rfl⟩ := Option.map_eq_some_iff.mp took
  exact .inl rfl

theorem onMain_goes {acts : WakeLoop.Label (Option Other) Task}
    (took : state.onMain acts = some next) : PoolGoes state next := by
  obtain ⟨main, acted, rfl⟩ := Option.map_eq_some_iff.mp took
  exact .inl rfl

theorem goes_pool (goes : label.goes = true) (took : state.step label = some next) :
    PoolGoes state next := by
  cases label with
  | notify woken => exact onPool_goes (.inl rfl) took
  | work worker =>
      change state.work worker = some next at took
      unfold work at took
      repeat' split at took
      · exact onPool_goes (.inl rfl) took
      · exact onSub_goes took
      · exact onPool_goes (.inl rfl) took
  | fetch worker reported =>
      simp only [step] at took
      split at took
      next => exact onSub_goes took
      next => cases took
  | start | fetchMain => exact onMain_goes took
  | weakup => exact onSub_goes took
  | stop =>
      change state.shutDown = some next at took
      unfold shutDown at took
      repeat' split at took
      all_goals first
        | cases took
        | exact onPool_goes (.inr rfl) took
        | (obtain ⟨before, called, rfl⟩ := Option.map_eq_some_iff.mp took
           obtain ⟨loop, acted, rfl⟩ := Option.map_eq_some_iff.mp called
           exact .inl rfl)
  | construct | spurious | add => cases goes

/-- The call of `shut_down` goes on. -/
theorem called_step (called : state.stopper ≠ .idle) (took : state.step label = some next) :
    next.stopper ≠ .idle := by
  cases step_acts took with
  | pool | construct | sub | main => exact called
  | stopMain | wakeMain | stopSub | wakeSub => exact nofun

/-- **Behind `notify_all`, who is awake stays awake**, whatever the pool does. -/
theorem awake_pool {label : WaitQueue.Label (Fin thds) Unit (Fin thds)}
    {pool after : Threadpool thds Unit (Fin thds)}
    (awake : Threadpool.Awake pool ∧ Threadpool.Behind pool)
    (took : Threadpool.step pool label = some after) :
    Threadpool.Awake after ∧ Threadpool.Behind after := by
  refine ⟨Threadpool.awake_step awake.1 (fun _ _ notifies => ?_) took,
    Threadpool.behind_step awake.2 took⟩
  rcases awake.2 with joining | returned
  · rw [notifies.1] at joining
    cases joining
  · rw [notifies.1] at returned
    cases returned

/-- **Who is blocked in the end** is who was blocked or about to block behind `notify_all`. -/
theorem blocked_iff {final : IoThreads thds Other Task} (sound : state.Sound)
    (joining : state.pool.stopper = .joining) (idle : state.pool.clients () = .idle)
    (ends : final.Sound) (called : final.stopper ≠ .idle) (rests : final.Rests)
    {labels : List (Label thds Other Task)}
    (ran : exec (only step Label.goes) state labels = some final) :
    (∀ worker, final.pool.workers worker ≠ .waiting) ↔
      ∀ worker, state.pool.workers worker ≠ .parking ∧ state.pool.workers worker ≠ .waiting := by
  constructor
  · intro awake worker
    by_contra asleep
    have deaf : state.pool.Deaf worker := ⟨joining, fun _ => idle, by tauto⟩
    have later : final.pool.Deaf worker := by
      refine only_kept (fun later : IoThreads thds Other Task => later.pool.Deaf worker) ?_ deaf ran
      intro now label later goes deaf took
      rcases goes_pool goes took with same | ⟨acts, own, acted⟩
      · rwa [same]
      · exact deaf.step own acted
    rcases later.asleep with parking | waiting
    · have still := (rests.pool ends called).still
        (tended_reachable Threadpool.tests_serves ends.parts.pool).1 worker
      rw [parking] at still
      rcases still with waiting | left <;> contradiction
    · exact awake worker waiting
  · intro standing worker
    have stops : state.pool.Stops :=
      sound.parts.pool.invariant (fun _ _ _ stops took => stops_step stops took) stops_start
    have awake : Threadpool.Awake state.pool ∧ Threadpool.Behind state.pool :=
      ⟨⟨stops, fun _ worker => (standing worker).symm⟩, .inl joining⟩
    have later : Threadpool.Awake final.pool ∧ Threadpool.Behind final.pool := by
      refine only_kept (fun later : IoThreads thds Other Task =>
        Threadpool.Awake later.pool ∧ Threadpool.Behind later.pool) ?_ awake ran
      intro now label later goes awake took
      rcases goes_pool goes took with same | ⟨acts, own, acted⟩
      · rwa [same]
      · exact awake_pool awake acted
    exact (later.1.2 later.2 worker).1

/-- **`shut_down` waits for no loop.** From any reachable state in which `tcpsvr::shut_down` has been
called, its thread, the workers, the loops' threads and the threads that have still to call `weakup`
take a bounded number of steps, if nobody adds anything and epoll has no events but the eventfds'.
Where they can take no more, the main loop's `run` has returned, no worker is in the `run` of a
sub-loop, and `shut_down` has returned exactly when no worker is blocked. From a state in which it
joins the workers it comes to return exactly when no worker is blocked or about to be. -/
theorem shut_down_ends [Fintype Other] {final : IoThreads thds Other Task}
    (reach : Reachable step create state) (called : state.stopper ≠ .idle)
    {labels : List (Label thds Other Task)}
    (ran : exec (only step Label.goes) state labels = some final) :
    labels.length ≤ state.measure ∧ (final.Rests →
      final.main.loop = .returned ∧
      (∀ worker idx, final.pool.workers worker ≠ .running idx) ∧
      (final.pool.stopper = .returned ↔ ∀ worker, final.pool.workers worker ≠ .waiting) ∧
      (state.pool.stopper = .joining → (final.pool.stopper = .returned ↔
        ∀ worker, state.pool.workers worker ≠ .parking ∧ state.pool.workers worker ≠ .waiting))) := by
  have ends := sound_reachable (reach.only ran)
  have stays : final.stopper ≠ .idle :=
    only_kept (fun later : IoThreads thds Other Task => later.stopper ≠ .idle)
      (fun _ _ _ _ called took => called_step called took) called ran
  have sound := sound_reachable reach
  refine ⟨only_ends (fun _ _ _ goes took => measure_step goes took) ran, fun rests =>
    ⟨rests.main ends stays, rests.free ends stays, rests.joined ends stays, fun joining => ?_⟩⟩
  exact (rests.joined ends stays).trans
    (blocked_iff sound joining (sound.halts.quiet called) ends stays rests ran)

/-- The same `shut_down`, from where it joins the worker. -/
theorem shut_down_ends_one :
    ∃ final : IoThreads 1 Unit ℕ, final.main.loop = .returned ∧ final.pool.stopper = .returned := by
  have run : ∃ state final : IoThreads 1 Unit ℕ, exec step create
        ([.construct, .notify none] ++ List.replicate 6 (.work 0) ++ List.replicate 4 .stop ++
          [.fetch 0 [(.weak, epollIn)]] ++ List.replicate 7 (.work 0) ++ List.replicate 3 .stop) =
          some state ∧
      exec (only step Label.goes) state [.start, .work 0, .stop] = some final ∧
      state.stopper = .subs 1 ∧ state.pool.stopper = .joining ∧ state.pool.workers 0 = .top ∧
      final.stopper = .subs 1 ∧ final.pool.stopper = .returned ∧ final.pool.workers 0 = .left ∧
      final.pool.clients () = .idle ∧ final.main.loop = .returned ∧
      (final.subs 0).callers (some ()) = .idle :=
    ⟨_, _, rfl, rfl, rfl, rfl, rfl, rfl, rfl, rfl, rfl, rfl, rfl⟩
  obtain ⟨state, final, ran, went, called, joining, top, behind, ended, left, quiet, returned, out⟩ := run
  have rests : final.Rests := by
    intro label goes
    cases label with
    | work worker =>
        obtain rfl : worker = 0 := Fin.fin_one_eq_zero worker
        simp [step, work, left, onPool, Threadpool.step, State.step, State.work]
    | start => simp [step, onMain, WakeLoop.step, WakeLoop.run, returned]
    | weakup idx other =>
        obtain rfl : idx = 0 := Fin.fin_one_eq_zero idx
        simp [step, onSub, WakeLoop.step, out]
    | stop =>
        simp [step, shutDown, behind, onPool, Threadpool.step, State.step, State.shutDown, ended]
    | notify woken => simp [step, onPool, Threadpool.step, State.step, quiet]
    | fetch worker reported =>
        obtain rfl : worker = 0 := Fin.fin_one_eq_zero worker
        simp [step, left]
    | fetchMain reported => simp [step, onMain, WakeLoop.step, returned]
    | construct | spurious | add => cases goes
  obtain ⟨main, -, -, returns⟩ :=
    (shut_down_ends ⟨_, ran⟩ (by simp [called]) went).2 rests
  refine ⟨final, main, (returns joining).mpr fun worker => ?_⟩
  obtain rfl : worker = 0 := Fin.fin_one_eq_zero worker
  simp [top]

end Step

end IoThreads

end IkunSvr
