/-
**Tasks that post tasks.**

`handle_weakup` runs the tasks of `_tasks` with `_mutex` held, and `add` takes `_mutex` to push. `Posts`
is any number of event loops and any number of other threads; what a task does is `body`, the calls of
`add` it makes, on whichever loops. A thread has a mutex that is not its loop's only for the push.

* `Waits` — a loop whose task has come to lock the mutex of a loop;
* `deadlocked_step_iff` — a step closes a cycle of waits exactly when it is an `add` on a loop from
  which the waits lead back;
* `cycle_stays` — the loops on a cycle keep their mutexes for good;
* `measure_step`, `drained_of_end` — where the tasks post finitely often in all, every run comes to an
  end, and without a cycle every drain has then finished;
* `fine_of_ranked` — tasks that post only to loops above their own close no cycle;
* `posts_finish_iff` — **no loop comes to wait for itself exactly when no task calls `add` on a loop
  from which the waits lead back to its own**;
* `task_posts_to_own_loop` — a task that calls `add` on its own loop.
-/

import IkunSvr.Lib.Waits
import IkunSvr.Loop.Wakeup
import Mathlib.Algebra.BigOperators.Group.List.Basic
import Mathlib.Data.Fintype.EquivFin

namespace IkunSvr

open Run Relation

namespace Posts

/-- Where a thread is in the calls of `eventloop::add` that it makes. -/
inductive AddPc (Loop Task : Type*)
  /-- in no call; those still to come -/
  | between (rest : List (Loop × Task))
  /-- in `add`, before the lock -/
  | posting (loop : Loop) (task : Task) (rest : List (Loop × Task))
  /-- in `add`, behind the push and before `weakup` -/
  | signalling (loop : Loop) (rest : List (Loop × Task))

/-- Where the thread of a loop is. -/
inductive DrainPc (Loop Task : Type*)
  /-- not in `handle_weakup` -/
  | idle
  /-- in `handle_weakup`, behind the read and before the lock -/
  | locking
  /-- with the mutex, before the test `_tasks.size() > 0` -/
  | draining
  /-- with the mutex, in the task -/
  | inTask (pc : AddPc Loop Task)

namespace DrainPc

variable {Loop Task : Type*}

/-- The thread has the mutex of its loop. -/
def locked : DrainPc Loop Task → Bool
  | .idle | .locking => false
  | .draining | .inTask _ => true

/-- The loop whose mutex the task is about to lock. -/
def target : DrainPc Loop Task → Option Loop
  | .inTask (.posting loop _ _) => some loop
  | .idle | .locking | .draining | .inTask (.between _) | .inTask (.signalling ..) => none

end DrainPc

/-- A step of the thread of a loop, or of another one. -/
inductive Label (Loop Caller : Type*)
  | loop (loop : Loop)
  | caller (caller : Caller)

end Posts

/-- The event loops and the other threads that call `add`. -/
structure Posts (Loop Caller Task : Type*) where
  loops : Loop → Posts.DrainPc Loop Task
  callers : Caller → Posts.AddPc Loop Task
  queues : Loop → List Task
  /-- of the eventfds -/
  counters : Loop → ℕ

namespace Posts

variable {Loop Caller Task : Type*}

/-- Nothing is queued, and the other threads are to make these calls. -/
def start (calls : Caller → List (Loop × Task)) : Posts Loop Caller Task where
  loops := fun _ => .idle
  callers := fun caller => .between (calls caller)
  queues := fun _ => []
  counters := fun _ => 0

/-! ### Waiting -/

/-- The first loop's task has come to lock the mutex of the second. -/
def WaitsFor (state : Posts Loop Caller Task) (waiter waited : Loop) : Prop :=
  (state.loops waiter).target = some waited

/-- A loop waits, through others or directly, for its own mutex, which it has. -/
def Deadlocked (state : Posts Loop Caller Task) : Prop :=
  ¬ Waits.Acyclic state.WaitsFor

/-- If a task begins a call of `add` with the step, then on a loop from which the waits do not lead
back to the one it runs on. -/
def Clear (state : Posts Loop Caller Task) : Label Loop Caller → Prop
  | .loop loop => ∀ other task rest, state.loops loop = .inTask (.between ((other, task) :: rest)) →
      ¬ ReflTransGen state.WaitsFor other loop
  | .caller _ => True

variable {state : Posts Loop Caller Task}

/-- Who waits has the mutex of its own loop. -/
theorem WaitsFor.locked {waiter waited : Loop} (waits : state.WaitsFor waiter waited) :
    (state.loops waiter).locked = true := by
  unfold WaitsFor at waits
  cases here : state.loops waiter with
  | idle | locking => simp [here, DrainPc.target] at waits
  | draining | inTask pc => rfl

theorem waits_inj {waiter first second : Loop} (waits : state.WaitsFor waiter first)
    (waitsToo : state.WaitsFor waiter second) : second = first :=
  Option.some.inj (waitsToo.symm.trans waits)

/-- On a cycle, who is waited for has its mutex. -/
theorem locked_of_cycle {waiter waited : Loop} (cycle : TransGen state.WaitsFor waiter waiter)
    (waits : state.WaitsFor waiter waited) : (state.loops waited).locked = true := by
  obtain ⟨other, first, path⟩ := TransGen.head'_iff.mp cycle
  obtain rfl := waits_inj waits first
  rcases ReflTransGen.cases_head path with same | ⟨further, second, -⟩
  · exact same ▸ waits.locked
  · exact WaitsFor.locked second

section Step

variable [DecidableEq Loop] [DecidableEq Caller]

/-- The thread of the loop goes on to `pc`. -/
def goTo (state : Posts Loop Caller Task) (loop : Loop) (pc : DrainPc Loop Task) :
    Posts Loop Caller Task :=
  { state with loops := Function.update state.loops loop pc }

/-- The other thread goes on to `pc`. -/
def callerTo (state : Posts Loop Caller Task) (caller : Caller) (pc : AddPc Loop Task) :
    Posts Loop Caller Task :=
  { state with callers := Function.update state.callers caller pc }

/-- The queue of the loop is `queue` from now on. -/
def setQueue (state : Posts Loop Caller Task) (loop : Loop) (queue : List Task) :
    Posts Loop Caller Task :=
  { state with queues := Function.update state.queues loop queue }

/-- The counter of the loop is `counter` from now on. -/
def setCounter (state : Posts Loop Caller Task) (loop : Loop) (counter : ℕ) :
    Posts Loop Caller Task :=
  { state with counters := Function.update state.counters loop counter }

/-- The next step in the calls of `add`: what it does, and where the thread is then. -/
def add (state : Posts Loop Caller Task) :
    AddPc Loop Task → Option (Posts Loop Caller Task × AddPc Loop Task)
  | .between [] => none
  | .between ((loop, task) :: rest) => some (state, .posting loop task rest)
  | .posting loop task rest =>
      if (state.loops loop).locked then none
      else some (state.setQueue loop (state.queues loop ++ [task]), .signalling loop rest)
  | .signalling loop rest =>
      some (state.setCounter loop (eventfdWrite (state.counters loop)), .between rest)

/-- The next step of the thread of a loop. -/
def handleWeakup (body : Task → List (Loop × Task)) (state : Posts Loop Caller Task) (loop : Loop) :
    Option (Posts Loop Caller Task) :=
  match state.loops loop with
  | .idle =>
      if 0 < state.counters loop then some ((state.setCounter loop 0).goTo loop .locking) else none
  | .locking => some (state.goTo loop .draining)
  | .draining =>
      match state.queues loop with
      | [] => some (state.goTo loop .idle)
      | task :: rest => some ((state.setQueue loop rest).goTo loop (.inTask (.between (body task))))
  | .inTask (.between []) => some (state.goTo loop .draining)
  | .inTask pc => (state.add pc).map fun after => after.1.goTo loop (.inTask after.2)

/-- A step. -/
def step (body : Task → List (Loop × Task)) (state : Posts Loop Caller Task) :
    Label Loop Caller → Option (Posts Loop Caller Task)
  | .loop loop => state.handleWeakup body loop
  | .caller caller =>
      (state.add (state.callers caller)).map fun after => after.1.callerTo caller after.2

/-! ### What a step does -/

/-- What a step in the calls of `add` does. -/
inductive Adds (state : Posts Loop Caller Task) :
    AddPc Loop Task → Posts Loop Caller Task → AddPc Loop Task → Prop
  | call (loop : Loop) (task : Task) (rest : List (Loop × Task)) :
      Adds state (.between ((loop, task) :: rest)) state (.posting loop task rest)
  | push (loop : Loop) (task : Task) (rest : List (Loop × Task))
      (free : (state.loops loop).locked = false) :
      Adds state (.posting loop task rest)
        (state.setQueue loop (state.queues loop ++ [task])) (.signalling loop rest)
  | weakup (loop : Loop) (rest : List (Loop × Task)) :
      Adds state (.signalling loop rest)
        (state.setCounter loop (eventfdWrite (state.counters loop))) (.between rest)

/-- What a step does. -/
inductive Acts (body : Task → List (Loop × Task)) (state : Posts Loop Caller Task) :
    Label Loop Caller → Posts Loop Caller Task → Prop
  | wake (loop : Loop) (idle : state.loops loop = .idle) (written : 0 < state.counters loop) :
      Acts body state (.loop loop) ((state.setCounter loop 0).goTo loop .locking)
  | lock (loop : Loop) (locking : state.loops loop = .locking) :
      Acts body state (.loop loop) (state.goTo loop .draining)
  | unlock (loop : Loop) (draining : state.loops loop = .draining) (empty : state.queues loop = []) :
      Acts body state (.loop loop) (state.goTo loop .idle)
  | take (loop : Loop) (task : Task) (rest : List Task) (draining : state.loops loop = .draining)
      (front : state.queues loop = task :: rest) :
      Acts body state (.loop loop)
        ((state.setQueue loop rest).goTo loop (.inTask (.between (body task))))
  | back (loop : Loop) (done : state.loops loop = .inTask (.between [])) :
      Acts body state (.loop loop) (state.goTo loop .draining)
  | inTask (loop : Loop) (here pc : AddPc Loop Task) (after : Posts Loop Caller Task)
      (stands : state.loops loop = .inTask here) (adds : Adds state here after pc) :
      Acts body state (.loop loop) (after.goTo loop (.inTask pc))
  | caller (caller : Caller) (pc : AddPc Loop Task) (after : Posts Loop Caller Task)
      (adds : Adds state (state.callers caller) after pc) :
      Acts body state (.caller caller) (after.callerTo caller pc)

variable {body : Task → List (Loop × Task)} {state next : Posts Loop Caller Task}
  {label : Label Loop Caller}

omit [DecidableEq Caller] in
theorem add_adds {here : AddPc Loop Task} {out : Posts Loop Caller Task × AddPc Loop Task}
    (added : state.add here = some out) : Adds state here out.1 out.2 := by
  unfold add at added
  split at added
  next => cases added
  next loop task rest =>
    cases added
    exact .call loop task rest
  next loop task rest =>
    split at added
    next => cases added
    next free =>
      cases added
      exact .push loop task rest (Bool.eq_false_iff.mpr free)
  next loop rest =>
    cases added
    exact .weakup loop rest

/-- **What a step of the system does.** -/
theorem step_acts (took : step body state label = some next) : Acts body state label next := by
  cases label with
  | loop loop =>
      simp only [step, handleWeakup] at took
      split at took
      next idle =>
        split at took
        next written =>
          cases took
          exact .wake loop idle written
        next => cases took
      next locking =>
        cases took
        exact .lock loop locking
      next draining =>
        split at took
        next empty =>
          cases took
          exact .unlock loop draining empty
        next task rest front =>
          cases took
          exact .take loop task rest draining front
      next done =>
        cases took
        exact .back loop done
      next pc _ stands =>
        obtain ⟨out, added, rfl⟩ := Option.map_eq_some_iff.mp took
        exact .inTask loop pc out.2 out.1 stands (add_adds added)
  | caller caller =>
      obtain ⟨out, added, rfl⟩ := Option.map_eq_some_iff.mp took
      exact .caller caller out.2 out.1 (add_adds added)

omit [DecidableEq Caller] in
/-- No call of `add` moves a loop. -/
theorem Adds.loops {here pc : AddPc Loop Task} {after : Posts Loop Caller Task}
    (adds : Adds state here after pc) : after.loops = state.loops := by
  cases adds <;> rfl

omit [DecidableEq Caller] in
theorem Adds.callers {here pc : AddPc Loop Task} {after : Posts Loop Caller Task}
    (adds : Adds state here after pc) : after.callers = state.callers := by
  cases adds <;> rfl

/-! ### What a step does to the waits -/

omit [DecidableEq Caller] in
/-- A thread that goes where it waits for nobody adds no wait. -/
theorem waits_of_update {loop : Loop} {pc : DrainPc Loop Task}
    (moved : next.loops = Function.update state.loops loop pc) (nobody : pc.target = none)
    (first second : Loop) (waits : next.WaitsFor first second) : state.WaitsFor first second := by
  unfold WaitsFor at waits ⊢
  rw [moved] at waits
  by_cases here : first = loop
  · subst here
    rw [Function.update_self, nobody] at waits
    cases waits
  · rwa [Function.update_of_ne here] at waits

omit [DecidableEq Caller] in
/-- A task that comes to lock a mutex adds the one wait. -/
theorem waits_joined {loop other : Loop} {pc : DrainPc Loop Task}
    (moved : next.loops = Function.update state.loops loop pc) (target : pc.target = some other)
    (before : (state.loops loop).target = none) :
    next.WaitsFor = Waits.Joined state.WaitsFor loop other := by
  ext first second
  show (next.loops first).target = some second ↔
    (state.loops first).target = some second ∨ first = loop ∧ second = other
  rw [moved]
  by_cases here : first = loop
  · subst here
    rw [Function.update_self, target, before]
    simp [eq_comm]
  · rw [Function.update_of_ne here]
    simp [here]

/-- **A step closes a cycle of waits exactly when it is a call of `add` on a loop from which the waits
lead back.** -/
theorem deadlocked_step_iff (fine : ¬ state.Deadlocked) (took : step body state label = some next) :
    ¬ next.Deadlocked ↔ state.Clear label := by
  have acyclic : Waits.Acyclic state.WaitsFor := not_not.mp fine
  have quiet : ∀ {loop : Loop} {pc : DrainPc Loop Task},
      next.loops = Function.update state.loops loop pc → pc.target = none →
      (∀ other task rest, state.loops loop ≠ .inTask (.between ((other, task) :: rest))) →
        (¬ next.Deadlocked ↔ state.Clear (.loop loop : Label Loop Caller)) :=
    fun moved nobody calls => iff_of_true (not_not.mpr (acyclic.mono (waits_of_update moved nobody)))
      fun other task rest stands => absurd stands (calls other task rest)
  cases step_acts took with
  | wake loop idle written => exact quiet rfl rfl fun _ _ _ => by simp [idle]
  | lock loop locking => exact quiet rfl rfl fun _ _ _ => by simp [locking]
  | unlock loop draining empty => exact quiet rfl rfl fun _ _ _ => by simp [draining]
  | take loop task rest draining front => exact quiet rfl rfl fun _ _ _ => by simp [draining]
  | back loop done => exact quiet rfl rfl fun _ _ _ => by simp [done]
  | inTask loop here pc after stands adds =>
      cases adds with
      | call other task rest =>
          have joined : (state.goTo loop (.inTask (.posting other task rest))).WaitsFor =
              Waits.Joined state.WaitsFor loop other :=
            waits_joined rfl rfl (by rw [stands]; rfl)
          unfold Deadlocked
          rw [joined, not_not, acyclic.add_iff]
          refine ⟨fun noWay other task rest standsToo => ?_, fun clear => clear other task rest stands⟩
          cases stands.symm.trans standsToo
          exact noWay
      | push other task rest free => exact quiet rfl rfl fun _ _ _ => by simp [stands]
      | weakup other rest => exact quiet rfl rfl fun _ _ _ => by simp [stands]
  | caller caller pc after adds =>
      have same : (after.callerTo caller pc).WaitsFor = state.WaitsFor := by
        unfold WaitsFor callerTo
        rw [adds.loops]
      unfold Deadlocked
      rw [same]
      exact iff_of_true fine trivial

/-! ### Waiting for good -/

/-- A loop moves only if the mutex that its task is about to lock, if any, is free. -/
theorem moves (took : step body state label = some next) :
    next.loops = state.loops ∨ ∃ loop pc, next.loops = Function.update state.loops loop pc ∧
      ∀ other, state.WaitsFor loop other → (state.loops other).locked = false := by
  have quiet : ∀ {loop : Loop} {here : DrainPc Loop Task}, state.loops loop = here →
      here.target = none →
        ∀ other, state.WaitsFor loop other → (state.loops other).locked = false := by
    intro loop here stands nobody other waits
    simp [WaitsFor, stands, nobody] at waits
  cases step_acts took with
  | wake loop idle written => exact .inr ⟨loop, _, rfl, quiet idle rfl⟩
  | lock loop locking => exact .inr ⟨loop, _, rfl, quiet locking rfl⟩
  | unlock loop draining empty => exact .inr ⟨loop, _, rfl, quiet draining rfl⟩
  | take loop task rest draining front => exact .inr ⟨loop, _, rfl, quiet draining rfl⟩
  | back loop done => exact .inr ⟨loop, _, rfl, quiet done rfl⟩
  | inTask loop here pc after stands adds =>
      refine .inr ⟨loop, .inTask pc, ?_, ?_⟩
      · show Function.update after.loops loop (.inTask pc) = _
        rw [adds.loops]
      · cases adds with
        | call other task rest => exact quiet stands rfl
        | push other task rest free =>
            intro waited waits
            unfold WaitsFor at waits
            rw [stands] at waits
            obtain rfl := Option.some.inj waits
            exact free
        | weakup other rest => exact quiet stands rfl
  | caller caller pc after adds => exact .inl adds.loops

/-- A loop on a cycle does not move. -/
theorem stays_of_cycle {loop : Loop} (cycle : TransGen state.WaitsFor loop loop)
    (took : step body state label = some next) : next.loops loop = state.loops loop := by
  obtain ⟨other, waits, -⟩ := TransGen.head'_iff.mp cycle
  rcases moves took with same | ⟨moved, pc, update, free⟩
  · rw [same]
  · rw [update]
    refine Function.update_of_ne ?_ _ _
    rintro rfl
    have locked := locked_of_cycle cycle waits
    simp [free other waits] at locked

/-- **A cycle stays**, and nobody on it moves. -/
theorem cycle_step {loop : Loop} (cycle : TransGen state.WaitsFor loop loop)
    (took : step body state label = some next) : TransGen next.WaitsFor loop loop := by
  refine Waits.cycle_of_kept (fun first second cycle waits => ?_) cycle
  unfold WaitsFor
  rw [stays_of_cycle cycle took]
  exact waits

/-- **The loops on a cycle keep their mutexes for good**, whatever anyone does. -/
theorem cycle_stays {loop : Loop} {labels : List (Label Loop Caller)}
    (cycle : TransGen state.WaitsFor loop loop) {final : Posts Loop Caller Task}
    (ran : exec (step body) state labels = some final) :
    final.loops loop = state.loops loop ∧ (final.loops loop).locked = true := by
  have kept : ∀ (now : Posts Loop Caller Task) (label : Label Loop Caller)
      (later : Posts Loop Caller Task),
      TransGen now.WaitsFor loop loop ∧ now.loops loop = state.loops loop →
        step body now label = some later →
          TransGen later.WaitsFor loop loop ∧ later.loops loop = state.loops loop :=
    fun _ _ _ here took => ⟨cycle_step here.1 took, (stays_of_cycle here.1 took).trans here.2⟩
  have last := (always_of_step kept ⟨cycle, rfl⟩ labels).last ran
  obtain ⟨other, waits, -⟩ := TransGen.head'_iff.mp last.1
  exact ⟨last.2, waits.locked⟩

/-! ### The end of the drains -/

/-- The task calls `add` for the other one. -/
def Posted (body : Task → List (Loop × Task)) (posted task : Task) : Prop :=
  ∃ loop, (loop, posted) ∈ body task

/-- A price of every task that pays for the tasks it posts. -/
def Pays (body : Task → List (Loop × Task)) (cost : Task → ℕ) : Prop :=
  ∀ task, cost task = 1 + ((body task).map fun entry => cost entry.2 + 7).sum

omit [DecidableEq Loop] [DecidableEq Caller] in
/-- **Tasks that post finitely often in all have a price.** -/
theorem exists_cost (finitely : WellFounded (Posted body)) : ∃ cost, Pays body cost := by
  let price : ∀ task, (∀ posted, Posted body posted task → ℕ) → ℕ := fun task cost =>
    1 + ((body task).attach.map fun entry => cost entry.1.2 ⟨entry.1.1, entry.2⟩ + 7).sum
  refine ⟨finitely.fix price, fun task => ?_⟩
  rw [finitely.fix_eq]
  have entries := congrArg (List.map fun entry => finitely.fix price entry.2 + 7)
    (List.attach_map_subtype_val (body task))
  rw [List.map_map] at entries
  exact congrArg (fun prices => 1 + List.sum prices) entries

/-- What the calls of `add` still cost. -/
def AddPc.price (cost : Task → ℕ) : AddPc Loop Task → ℕ
  | .between rest => (rest.map fun entry => cost entry.2 + 7).sum
  | .posting _ task rest => cost task + 6 + (rest.map fun entry => cost entry.2 + 7).sum
  | .signalling _ rest => 4 + (rest.map fun entry => cost entry.2 + 7).sum

/-- What the thread of a loop still has to do, but for its queue. -/
def DrainPc.price (cost : Task → ℕ) : DrainPc Loop Task → ℕ
  | .idle => 0
  | .locking => 2
  | .draining => 1
  | .inTask pc => 2 + pc.price cost

/-- What a queue still costs. -/
def queuePrice (cost : Task → ℕ) (queue : List Task) : ℕ :=
  (queue.map fun task => cost task + 1).sum

section Measure

variable [Fintype Loop] [Fintype Caller]

/-- What is still to be done. -/
def measure (cost : Task → ℕ) (state : Posts Loop Caller Task) : ℕ :=
  (∑ loop, (state.loops loop).price cost) + (∑ caller, (state.callers caller).price cost) +
    (∑ loop, queuePrice cost (state.queues loop)) + ∑ loop, 3 * state.counters loop

omit [DecidableEq Caller] in
/-- What the calls of `add` do to the measure of everything but their thread. -/
theorem measure_add (cost : Task → ℕ) {here pc : AddPc Loop Task} {after : Posts Loop Caller Task}
    (adds : Adds state here after pc) :
    after.measure cost + pc.price cost < state.measure cost + here.price cost := by
  cases adds with
  | call loop task rest =>
      simp only [AddPc.price, List.map_cons, List.sum_cons]
      omega
  | push loop task rest free =>
      have queues := sum_update (queuePrice cost) state.queues loop (state.queues loop ++ [task])
      simp only [queuePrice, List.map_append, List.sum_append, List.map_cons, List.map_nil,
        List.sum_cons, List.sum_nil] at queues
      simp only [measure, setQueue, AddPc.price, queuePrice]
      omega
  | weakup loop rest =>
      have counters := sum_update (fun counter => 3 * counter) state.counters loop
        (eventfdWrite (state.counters loop))
      have written : eventfdWrite (state.counters loop) ≤ state.counters loop + 1 := by
        unfold eventfdWrite
        split <;> omega
      simp only [measure, setCounter, AddPc.price]
      omega

omit [DecidableEq Caller] in
/-- The loop's thread goes on, and its share with it. -/
theorem measure_goTo (cost : Task → ℕ) (state : Posts Loop Caller Task) (loop : Loop)
    (pc : DrainPc Loop Task) :
    (state.goTo loop pc).measure cost + (state.loops loop).price cost =
      state.measure cost + pc.price cost := by
  have loops := sum_update (DrainPc.price cost) state.loops loop pc
  simp only [measure, goTo]
  omega

omit [DecidableEq Loop] in
theorem measure_callerTo (cost : Task → ℕ) (state : Posts Loop Caller Task) (caller : Caller)
    (pc : AddPc Loop Task) :
    (state.callerTo caller pc).measure cost + (state.callers caller).price cost =
      state.measure cost + pc.price cost := by
  have callers := sum_update (AddPc.price cost) state.callers caller pc
  simp only [measure, callerTo]
  omega

omit [DecidableEq Caller] in
/-- A task that is taken is paid for. -/
theorem measure_take (cost : Task → ℕ) {loop : Loop} {task : Task} {rest : List Task}
    (front : state.queues loop = task :: rest) :
    (state.setQueue loop rest).measure cost + (cost task + 1) = state.measure cost := by
  have queues := sum_update (queuePrice cost) state.queues loop rest
  have first : queuePrice cost (state.queues loop) = cost task + 1 + queuePrice cost rest := by
    rw [front]
    rfl
  simp only [measure, setQueue]
  omega

omit [DecidableEq Caller] in
/-- A counter that has been read pays for the drain. -/
theorem measure_wake (cost : Task → ℕ) {loop : Loop} (written : 0 < state.counters loop) :
    (state.setCounter loop 0).measure cost + 3 ≤ state.measure cost := by
  have counters := sum_update (fun counter => 3 * counter) state.counters loop 0
  simp only [measure, setCounter]
  omega

/-- **Every step lowers the measure.** -/
theorem measure_step {cost : Task → ℕ} (pays : Pays body cost)
    (took : step body state label = some next) : next.measure cost < state.measure cost := by
  cases step_acts took with
  | wake loop idle written =>
      have moved := measure_goTo cost (state.setCounter loop 0) loop .locking
      have paid := measure_wake cost written
      rw [show (state.setCounter loop 0).loops loop = .idle from idle] at moved
      simp only [DrainPc.price] at moved
      omega
  | lock loop locking =>
      have moved := measure_goTo cost state loop .draining
      rw [locking] at moved
      simp only [DrainPc.price] at moved
      omega
  | unlock loop draining empty =>
      have moved := measure_goTo cost state loop .idle
      rw [draining] at moved
      simp only [DrainPc.price] at moved
      omega
  | take loop task rest draining front =>
      have moved := measure_goTo cost (state.setQueue loop rest) loop (.inTask (.between (body task)))
      have paid := measure_take cost front
      have price := pays task
      rw [show (state.setQueue loop rest).loops loop = .draining from draining] at moved
      simp only [DrainPc.price, AddPc.price] at moved
      omega
  | back loop done =>
      have moved := measure_goTo cost state loop .draining
      rw [done] at moved
      simp only [DrainPc.price, AddPc.price, List.map_nil, List.sum_nil] at moved
      omega
  | inTask loop here pc after stands adds =>
      have moved := measure_goTo cost after loop (.inTask pc)
      have added := measure_add cost adds
      rw [adds.loops, stands] at moved
      simp only [DrainPc.price] at moved
      omega
  | caller caller pc after adds =>
      have moved := measure_callerTo cost after caller pc
      have added := measure_add cost adds
      rw [adds.callers] at moved
      omega

/-- **Every run comes to an end.** -/
theorem runs_end {cost : Task → ℕ} (pays : Pays body cost) {labels : List (Label Loop Caller)}
    {final : Posts Loop Caller Task} (ran : exec (step body) state labels = some final) :
    labels.length ≤ state.measure cost :=
  length_le_of_measure (fun _ _ _ took => measure_step pays took) ran

end Measure

/-! ### Nobody is left -/

omit [DecidableEq Caller] in
/-- A call of `add` goes on, unless it is over or the mutex it is to lock is taken. -/
theorem add_goes_on {pc : AddPc Loop Task} (stuck : state.add pc = none) :
    pc = .between [] ∨ ∃ loop task rest, pc = .posting loop task rest ∧
      (state.loops loop).locked = true := by
  unfold add at stuck
  split at stuck
  next => exact .inl rfl
  next => cases stuck
  next loop task rest =>
    split at stuck
    next taken => exact .inr ⟨loop, task, rest, rfl, taken⟩
    next => cases stuck
  next => cases stuck

/-- A loop that can take no step is idle, or waits for a mutex that is taken. -/
theorem loop_goes_on {loop : Loop} (stuck : step body state (.loop loop) = none) :
    state.loops loop = .idle ∨ ∃ other, state.WaitsFor loop other ∧
      (state.loops other).locked = true := by
  simp only [step, handleWeakup] at stuck
  split at stuck
  next idle => exact .inl idle
  next => cases stuck
  next => split at stuck <;> cases stuck
  next => cases stuck
  next pc more stands =>
    rcases add_goes_on (Option.map_eq_none_iff.mp stuck) with done | ⟨other, task, rest, posting, taken⟩
    · exact absurd done more
    · refine .inr ⟨other, ?_, taken⟩
      unfold WaitsFor
      rw [stands, posting]
      rfl

/-- **Where nobody can take a step and no loop waits for itself, every drain has finished**, and so
have the other threads. -/
theorem drained_of_end [Finite Loop] (fine : ¬ state.Deadlocked)
    (stuck : ∀ label, step body state label = none) :
    (∀ loop, state.loops loop = .idle) ∧ ∀ caller, state.callers caller = .between [] := by
  have acyclic : Waits.Acyclic state.WaitsFor := not_not.mp fine
  have waiting : ∀ loop, state.loops loop ≠ .idle → ∃ other, state.WaitsFor loop other ∧
      state.loops other ≠ .idle := by
    intro loop busy
    obtain ⟨other, waits, taken⟩ := (loop_goes_on (stuck (.loop loop))).resolve_left busy
    refine ⟨other, waits, fun idle => ?_⟩
    simp [idle, DrainPc.locked] at taken
  have idle : ∀ loop, state.loops loop = .idle := by
    intro loop
    by_contra busy
    obtain ⟨last, path, ends⟩ := acyclic.exists_end loop
    -- whoever is waited for is busy, up to the last one, which then waits too
    have lastBusy : state.loops last ≠ .idle := by
      rcases ReflTransGen.cases_tail path with same | ⟨before, -, waits⟩
      · exact same ▸ busy
      · obtain ⟨other, waitsToo, otherBusy⟩ := waiting before fun idle => by
          have locked := WaitsFor.locked waits
          simp [idle, DrainPc.locked] at locked
        exact waits_inj waits waitsToo ▸ otherBusy
    obtain ⟨other, waits, -⟩ := waiting last lastBusy
    exact ends other waits
  refine ⟨idle, fun caller => ?_⟩
  have callerStuck : state.add (state.callers caller) = none :=
    Option.map_eq_none_iff.mp (stuck (.caller caller))
  rcases add_goes_on callerStuck with done | ⟨loop, task, rest, -, taken⟩
  · exact done
  · simp [idle loop, DrainPc.locked] at taken

/-! ### Tasks that post upwards -/

/-- The calls of `add` that are not over. -/
def AddPc.entries : AddPc Loop Task → List (Loop × Task)
  | .between rest | .signalling _ rest => rest
  | .posting loop task rest => (loop, task) :: rest

/-- The task is meant for the loop. -/
def Homed (home : Task → Loop) (entry : Loop × Task) : Prop :=
  home entry.2 = entry.1

/-- The entry is meant for its loop, which is above this one. -/
def Upwards {Rank : Type*} [Preorder Rank] (rank : Loop → Rank) (home : Task → Loop) (loop : Loop)
    (entry : Loop × Task) : Prop :=
  Homed home entry ∧ rank loop < rank entry.1

/-- Each task is queued and run by the loop it is meant for, and posts upwards. -/
structure Ranked {Rank : Type*} [Preorder Rank] (rank : Loop → Rank) (home : Task → Loop)
    (state : Posts Loop Caller Task) : Prop where
  queued : ∀ loop, ∀ task ∈ state.queues loop, home task = loop
  running : ∀ loop pc, state.loops loop = .inTask pc → ∀ entry ∈ pc.entries,
    Upwards rank home loop entry
  calling : ∀ caller, ∀ entry ∈ (state.callers caller).entries, Homed home entry

section Ranks

variable {Rank : Type*} [Preorder Rank] {rank : Loop → Rank} {home : Task → Loop}

omit [DecidableEq Loop] [DecidableEq Caller] in
/-- With tasks that post upwards nobody waits for itself. -/
theorem Ranked.fine (ranked : state.Ranked rank home) : ¬ state.Deadlocked := by
  refine not_not.mpr (Waits.acyclic_of_rank rank fun first second waits => ?_)
  unfold WaitsFor DrainPc.target at waits
  split at waits
  next loop task rest stands =>
    obtain rfl := Option.some.inj waits
    exact (ranked.running first _ stands _ List.mem_cons_self).2
  all_goals cases waits

omit [DecidableEq Caller] in
/-- A call of `add` has fewer entries behind it, and queues a task where it is meant for. -/
theorem Ranked.adds (ranked : state.Ranked rank home) {here pc : AddPc Loop Task}
    {after : Posts Loop Caller Task} (adds : Adds state here after pc)
    (homed : ∀ entry ∈ here.entries, Homed home entry) :
    after.Ranked rank home ∧ ∀ entry ∈ pc.entries, entry ∈ here.entries := by
  cases adds with
  | call loop task rest => exact ⟨ranked, fun entry member => member⟩
  | push loop task rest free =>
      refine ⟨⟨?_, ranked.running, ranked.calling⟩, fun entry => List.mem_cons_of_mem _⟩
      refine (Function.forall_update_iff state.queues fun loop queue =>
        ∀ task ∈ queue, home task = loop).mpr ⟨fun other member => ?_, fun other _ => ranked.queued other⟩
      rcases List.mem_append.mp member with before | last
      · exact ranked.queued loop other before
      · rw [List.mem_singleton.mp last]
        exact homed (loop, task) List.mem_cons_self
  | weakup loop rest =>
      exact ⟨⟨ranked.queued, ranked.running, ranked.calling⟩, fun entry member => member⟩

omit [DecidableEq Caller] in
/-- The thread of a loop goes on. -/
theorem Ranked.goTo (ranked : state.Ranked rank home) {loop : Loop} {pc : DrainPc Loop Task}
    (upwards : ∀ call, pc = .inTask call → ∀ entry ∈ call.entries, Upwards rank home loop entry) :
    (state.goTo loop pc).Ranked rank home where
  queued := ranked.queued
  running := (Function.forall_update_iff state.loops fun loop pc => ∀ call, pc = .inTask call →
    ∀ entry ∈ call.entries, Upwards rank home loop entry).mpr
      ⟨upwards, fun other _ => ranked.running other⟩
  calling := ranked.calling

/-- **Every step keeps the tasks where they are meant to be.** -/
theorem ranked_step
    (bodies : ∀ task, ∀ entry ∈ body task, Upwards rank home (home task) entry)
    (ranked : state.Ranked rank home) (took : step body state label = some next) :
    next.Ranked rank home := by
  cases step_acts took with
  | wake loop idle written =>
      have read : (state.setCounter loop 0).Ranked rank home :=
        ⟨ranked.queued, ranked.running, ranked.calling⟩
      exact read.goTo nofun
  | lock loop locking => exact ranked.goTo nofun
  | unlock loop draining empty => exact ranked.goTo nofun
  | take loop task rest draining front =>
      have member : ∀ other ∈ task :: rest, home other = loop :=
        fun other member => ranked.queued loop other (front ▸ member)
      have taken : (state.setQueue loop rest).Ranked rank home := by
        refine ⟨?_, ranked.running, ranked.calling⟩
        exact (Function.forall_update_iff state.queues fun loop queue =>
          ∀ task ∈ queue, home task = loop).mpr
            ⟨fun other later => member other (List.mem_cons_of_mem _ later),
              fun other _ => ranked.queued other⟩
      refine taken.goTo ?_
      rintro call ⟨⟩ entry entered
      rw [← member task List.mem_cons_self]
      exact bodies task entry entered
  | back loop done => exact ranked.goTo nofun
  | inTask loop here pc after stands adds =>
      have upwards := ranked.running loop here stands
      obtain ⟨kept, fewer⟩ := ranked.adds adds fun entry member => (upwards entry member).1
      refine kept.goTo ?_
      rintro call ⟨⟩ entry member
      exact upwards entry (fewer entry member)
  | caller caller pc after adds =>
      obtain ⟨kept, fewer⟩ := ranked.adds adds (ranked.calling caller)
      refine ⟨kept.queued, kept.running, ?_⟩
      exact (Function.forall_update_iff after.callers fun _ call =>
        ∀ entry ∈ call.entries, Homed home entry).mpr
          ⟨fun entry member => ranked.calling caller entry (fewer entry member),
            fun other _ => kept.calling other⟩

/-- **Tasks that post upwards only never leave a loop waiting for itself.** -/
theorem fine_of_ranked {calls : Caller → List (Loop × Task)}
    (bodies : ∀ task, ∀ entry ∈ body task, Upwards rank home (home task) entry)
    (firsts : ∀ caller, ∀ entry ∈ calls caller, Homed home entry)
    (labels : List (Label Loop Caller)) :
    Always (step body) (fun state => ¬ state.Deadlocked) (start calls) labels := by
  have first : (start calls).Ranked rank home := ⟨nofun, nofun, firsts⟩
  have always : Always (step body) (Ranked rank home) (start calls) labels :=
    always_of_step (fun _ _ _ ranked took => ranked_step bodies ranked took) first labels
  exact always.mono fun _ ranked => ranked.fine

end Ranks

/-! ### Every run -/

omit [DecidableEq Loop] [DecidableEq Caller] in
theorem start_fine (calls : Caller → List (Loop × Task)) : ¬ (start calls).Deadlocked := by
  refine not_not.mpr fun loop cycle => ?_
  obtain ⟨other, waits, -⟩ := TransGen.head'_iff.mp cycle
  cases waits

/-- **No loop comes to wait for itself exactly when no task calls `add` on a loop from which the waits
lead back to its own.** In every run of any number of event loops and other threads, whatever the
tasks post; a loop that does wait for itself keeps its mutex for good; and where the tasks post
finitely often in all, no run goes on for ever, and one that has not met such a call goes on until
every drain has finished. -/
theorem posts_finish_iff [Fintype Loop] [Fintype Caller] (body : Task → List (Loop × Task))
    (calls : Caller → List (Loop × Task)) :
    (∀ labels, Always (step body) (fun state => ¬ state.Deadlocked) (start calls) labels ↔
      Along (step body) Clear (start calls) labels) ∧
    (∀ (state final : Posts Loop Caller Task) (loop : Loop) (labels : List (Label Loop Caller)),
      TransGen state.WaitsFor loop loop → exec (step body) state labels = some final →
        final.loops loop = state.loops loop ∧ (final.loops loop).locked = true) ∧
    (WellFounded (Posted body) → ∃ bound, ∀ (labels : List (Label Loop Caller)) final,
      exec (step body) (start calls) labels = some final → labels.length ≤ bound ∧
        (Along (step body) Clear (start calls) labels → (∀ label, step body final label = none) →
          (∀ loop, final.loops loop = .idle) ∧ ∀ caller, final.callers caller = .between [])) := by
  have exact_run : ∀ labels, Always (step body) (fun state => ¬ state.Deadlocked) (start calls) labels ↔
      Along (step body) Clear (start calls) labels :=
    fun labels => always_iff_along (fun _ _ _ fine took => deadlocked_step_iff fine took)
      (start_fine calls)
  refine ⟨exact_run, fun _ _ _ _ cycle ran => cycle_stays cycle ran, fun finitely => ?_⟩
  obtain ⟨cost, pays⟩ := exists_cost finitely
  refine ⟨(start calls).measure cost, fun labels final ran => ⟨runs_end pays ran, ?_⟩⟩
  exact fun along stuck => drained_of_end (((exact_run labels).mpr along).last ran) stuck

end Step

/-- A task that posts `false` to the loop, and one that posts nothing. -/
def postsOnce {Loop : Type*} (loop : Loop) : Bool → List (Loop × Bool)
  | true => [(loop, false)]
  | false => []

/-- Two loops, and a task on the one that posts a task to the other. -/
theorem posts_finish_iff_two :
    ∃ bound, ∀ (labels : List (Label Bool Unit)) final,
      exec (step (postsOnce true)) (start fun _ : Unit => [(false, true)]) labels = some final →
        labels.length ≤ bound := by
  have finitely : WellFounded (Posted (postsOnce true)) := by
    refine Subrelation.wf ?_ (InvImage.wf Bool.toNat Nat.lt_wfRel.wf)
    rintro posted task ⟨loop, member⟩
    cases task with
    | false => cases member
    | true =>
        obtain ⟨rfl, rfl⟩ := Prod.mk.inj (List.mem_singleton.mp member)
        exact Nat.zero_lt_one
  obtain ⟨bound, bounded⟩ :=
    (posts_finish_iff (postsOnce true) fun _ : Unit => [(false, true)]).2.2 finitely
  exact ⟨bound, fun labels final ran => (bounded labels final ran).1⟩

/-- **A task that calls `add` on its own loop** locks the mutex with which it is run. -/
theorem task_posts_to_own_loop :
    ¬ Always (step (postsOnce ())) (fun state => ¬ state.Deadlocked)
      (start fun _ : Unit => [((), true)])
      [.caller (), .caller (), .caller (), .loop (), .loop (), .loop (), .loop ()] := by
  have run : ∃ final, exec (step (postsOnce ())) (start fun _ : Unit => [((), true)])
      [.caller (), .caller (), .caller (), .loop (), .loop (), .loop (), .loop ()] = some final ∧
        final.WaitsFor () () :=
    ⟨_, rfl, rfl⟩
  obtain ⟨final, ran, waits⟩ := run
  exact fun always => always.last ran fun acyclic => acyclic () (.single waits)

end Posts

end IkunSvr
