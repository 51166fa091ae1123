/-
**A queue of tasks behind a mutex and a condition variable.**

Any number of clients push tasks and notify one worker each. Any number of workers wait for a
predicate on the flag and the queue, test once more whether to leave, take the front task and run it
without the mutex. One thread stops them: it sets the flag, notifies all, and joins the workers. The
flag is read and written without the mutex.

The steps are atomic as follows: a worker evaluates the predicate with the mutex, then releases it
and blocks in one step; a notification wakes only workers that are blocked; a worker may also wake
for no reason. What holds the mutex throughout is one step where nothing else can be observed.

* `Protocol` — what the workers test;
* `State`, `step` — the threads and what they share;
* `Acts` — what a step does;
* `Sound` — one worker has the mutex, tasks are taken in the order they were pushed, each one once,
  and never from an empty queue; `sound_reachable`.
-/

import IkunSvr.Lib.Run
import Mathlib.Algebra.BigOperators.Group.Finset.Basic
import Mathlib.Tactic.Abel
import Mathlib.Algebra.Order.Group.Multiset
import Mathlib.Data.Fintype.Basic

namespace WaitQueue

open Run

/-! ### The threads -/

/-- What a worker tests. Both tests read the flag and whether the queue is empty. -/
structure Protocol where
  /-- the predicate of `wait` -/
  ready : Bool → Bool → Bool
  /-- the test behind `wait`, upon which the worker returns -/
  leaves : Bool → Bool → Bool
  leaves_empty : ∀ stop, leaves stop true = true
  leaves_stopped : ∀ empty, leaves true empty = true

/-- Where a worker is. -/
inductive WorkerPc (Task : Type*)
  /-- before the test of the flag that heads the loop -/
  | top
  /-- before the lock -/
  | entering
  /-- with the mutex, before the predicate -/
  | testing
  /-- with the mutex, the predicate was false -/
  | parking
  /-- blocked, without the mutex -/
  | waiting
  /-- no longer blocked, before the lock -/
  | woken
  /-- with the mutex, the predicate was true -/
  | checking
  /-- with the mutex, about to take the front task -/
  | taking
  | running (task : Task)
  | left

/-- Where a client is: between calls, or behind the push and before the notification. -/
inductive ClientPc (Task : Type*)
  | idle
  | notifying (task : Task)

/-- Where the stopping thread is. -/
inductive StopperPc
  | idle
  /-- behind the test of the flag -/
  | tested
  /-- behind the store of the flag -/
  | stored
  /-- behind the notification of all workers, joining them -/
  | joining
  | returned
  deriving DecidableEq

namespace WorkerPc

variable {Task : Type*}

/-- The worker has the mutex. -/
def locked : WorkerPc Task → Bool
  | .testing | .parking | .checking | .taking => true
  | _ => false

/-- The worker is blocked. -/
def blocked : WorkerPc Task → Bool
  | .waiting => true
  | _ => false

/-- The worker has returned. -/
def gone : WorkerPc Task → Bool
  | .left => true
  | _ => false

/-- A notification wakes a blocked worker. -/
def wake : WorkerPc Task → WorkerPc Task
  | .waiting => .woken
  | pc => pc

/-- The tasks the worker has taken and not finished. -/
def hand : WorkerPc Task → Multiset Task
  | .running task => {task}
  | _ => 0

/-- How many tasks the worker is about to take. -/
def claim : WorkerPc Task → ℕ
  | .taking => 1
  | _ => 0

@[simp] theorem wake_locked (pc : WorkerPc Task) : pc.wake.locked = pc.locked := by
  cases pc <;> rfl

@[simp] theorem wake_hand (pc : WorkerPc Task) : pc.wake.hand = pc.hand := by
  cases pc <;> rfl

@[simp] theorem wake_claim (pc : WorkerPc Task) : pc.wake.claim = pc.claim := by
  cases pc <;> rfl

@[simp] theorem wake_eq_taking (pc : WorkerPc Task) : pc.wake = .taking ↔ pc = .taking := by
  cases pc <;> simp [wake]

@[simp] theorem wake_eq_running (pc : WorkerPc Task) (task : Task) :
    pc.wake = .running task ↔ pc = .running task := by
  cases pc <;> simp [wake]

end WorkerPc

/-- The threads, what they share, and the history of the tasks. -/
structure State (Worker Client Task : Type*) where
  workers : Worker → WorkerPc Task
  clients : Client → ClientPc Task
  stopper : StopperPc := .idle
  queue : List Task := []
  stop : Bool := false
  /-- who has the mutex -/
  owner : Option Worker := none
  /-- in the order of the pushes -/
  pushed : List Task := []
  /-- in the order in which workers took them -/
  taken : List Task := []
  done : List Task := []
  /-- the tasks whose push and notification were over when the stop was called -/
  accepted : List Task := []

/-- A step of some thread. -/
inductive Label (Worker Client Task : Type*)
  | push (client : Client) (task : Task)
  /-- `worker` is the one woken, if any is blocked -/
  | notifyOne (client : Client) (worker : Option Worker)
  | shutDown
  | work (worker : Worker)
  | spurious (worker : Worker)

/-- The task the step pushes, if it is a push. -/
def Label.pushes {Worker Client Task : Type*} : Label Worker Client Task → List Task
  | .push _ task => [task]
  | .notifyOne .. | .shutDown | .work _ | .spurious _ => []

namespace State

variable {Worker Client Task : Type*}

/-- No thread has taken a step. -/
def start : State Worker Client Task where
  workers := fun _ => .top
  clients := fun _ => .idle

section Step

variable [DecidableEq Worker]

/-- The worker goes on to `pc`, and `owner` has the mutex then. -/
def turn (state : State Worker Client Task) (worker : Worker) (pc : WorkerPc Task)
    (owner : Option Worker) : State Worker Client Task :=
  { state with workers := Function.update state.workers worker pc, owner := owner }

/-- The next step of a worker. -/
def work (protocol : Protocol) (state : State Worker Client Task) (worker : Worker) :
    Option (State Worker Client Task) :=
  match state.workers worker with
  | .top => some (state.turn worker (if state.stop then .left else .entering) state.owner)
  | .entering | .woken =>
      match state.owner with
      | none => some (state.turn worker .testing (some worker))
      | some _ => none
  | .testing =>
      some (state.turn worker
        (if protocol.ready state.stop state.queue.isEmpty then .checking else .parking) state.owner)
  | .parking => some (state.turn worker .waiting none)
  | .waiting => none
  | .checking =>
      if protocol.leaves state.stop state.queue.isEmpty then some (state.turn worker .left none)
      else some (state.turn worker .taking state.owner)
  | .taking =>
      match state.queue with
      | [] => none
      | task :: queue => some { state.turn worker (.running task) none with
          queue := queue
          taken := state.taken ++ [task] }
  | .running task => some { state.turn worker .top state.owner with done := state.done ++ [task] }
  | .left => none

variable [DecidableEq Client]

/-- The client has its call behind it. What it pushed counts as accepted before the stop. -/
def accept (state : State Worker Client Task) (client : Client) (task : Task) :
    State Worker Client Task :=
  { state with
    clients := Function.update state.clients client .idle
    accepted := match state.stopper with
      | .idle => state.accepted ++ [task]
      | _ => state.accepted }

variable [Fintype Worker]

/-- The next step of the stopping thread. -/
def shutDown (state : State Worker Client Task) : Option (State Worker Client Task) :=
  match state.stopper with
  | .idle => some { state with stopper := if state.stop then .returned else .tested }
  | .tested => some { state with stopper := .stored, stop := true }
  | .stored => some { state with
      stopper := .joining
      workers := fun worker => (state.workers worker).wake }
  | .joining =>
      if ∀ worker, (state.workers worker).gone then some { state with stopper := .returned }
      else none
  | .returned => none

/-- A step of the system. -/
def step (protocol : Protocol) (state : State Worker Client Task) :
    Label Worker Client Task → Option (State Worker Client Task)
  | .push client task =>
      match state.clients client, state.owner with
      | .idle, none => some { state with
          clients := Function.update state.clients client (.notifying task)
          queue := state.queue ++ [task]
          pushed := state.pushed ++ [task] }
      | _, _ => none
  | .notifyOne client woken =>
      match state.clients client, woken with
      | .notifying task, some worker =>
          match state.workers worker with
          | .waiting => some ((state.accept client task).turn worker .woken state.owner)
          | _ => none
      | .notifying task, none =>
          if ∀ worker, ¬ (state.workers worker).blocked then some (state.accept client task)
          else none
      | _, _ => none
  | .shutDown => state.shutDown
  | .work worker => state.work protocol worker
  | .spurious worker =>
      match state.workers worker with
      | .waiting => some (state.turn worker .woken state.owner)
      | _ => none

/-! ### What a step does -/

/-- A worker's turn that leaves the tasks alone: where it was and who had the mutex, then where it
is and who has it. -/
inductive Turn (protocol : Protocol) (stop empty : Bool) (worker : Worker) :
    WorkerPc Task → Option Worker → WorkerPc Task → Option Worker → Prop
  | leave (owner : Option Worker) (stopped : stop = true) :
      Turn protocol stop empty worker .top owner .left owner
  | enter (owner : Option Worker) (runs : stop = false) :
      Turn protocol stop empty worker .top owner .entering owner
  | lock : Turn protocol stop empty worker .entering none .testing (some worker)
  | relock : Turn protocol stop empty worker .woken none .testing (some worker)
  | pass (owner : Option Worker) (ready : protocol.ready stop empty = true) :
      Turn protocol stop empty worker .testing owner .checking owner
  | hold (owner : Option Worker) (unready : protocol.ready stop empty = false) :
      Turn protocol stop empty worker .testing owner .parking owner
  | park (owner : Option Worker) : Turn protocol stop empty worker .parking owner .waiting none
  | quit (owner : Option Worker) (leaves : protocol.leaves stop empty = true) :
      Turn protocol stop empty worker .checking owner .left none
  | claim (owner : Option Worker) (stays : protocol.leaves stop empty = false) :
      Turn protocol stop empty worker .checking owner .taking owner
  | wake (owner : Option Worker) : Turn protocol stop empty worker .waiting owner .woken owner

/-- What a step does. -/
inductive Acts (protocol : Protocol) (state : State Worker Client Task) :
    State Worker Client Task → Prop
  | turn (worker : Worker) (here pc : WorkerPc Task) (owner : Option Worker)
      (stands : state.workers worker = here)
      (turns : Turn protocol state.stop state.queue.isEmpty worker here state.owner pc owner) :
      Acts protocol state (state.turn worker pc owner)
  | take (worker : Worker) (task : Task) (queue : List Task)
      (taking : state.workers worker = .taking) (front : state.queue = task :: queue) :
      Acts protocol state { state.turn worker (.running task) none with
        queue := queue
        taken := state.taken ++ [task] }
  | finish (worker : Worker) (task : Task) (running : state.workers worker = .running task) :
      Acts protocol state { state.turn worker .top state.owner with done := state.done ++ [task] }
  | push (client : Client) (task : Task) (idle : state.clients client = .idle)
      (free : state.owner = none) :
      Acts protocol state { state with
        clients := Function.update state.clients client (.notifying task)
        queue := state.queue ++ [task]
        pushed := state.pushed ++ [task] }
  | notify (client : Client) (task : Task) (worker : Worker)
      (pushed : state.clients client = .notifying task)
      (blocked : state.workers worker = .waiting) :
      Acts protocol state ((state.accept client task).turn worker .woken state.owner)
  | silent (client : Client) (task : Task) (pushed : state.clients client = .notifying task)
      (nobody : ∀ worker, (state.workers worker).blocked = false) :
      Acts protocol state (state.accept client task)
  | call (idle : state.stopper = .idle) :
      Acts protocol state { state with stopper := if state.stop then .returned else .tested }
  | store (tested : state.stopper = .tested) :
      Acts protocol state { state with stopper := .stored, stop := true }
  | notifyAll (stored : state.stopper = .stored) :
      Acts protocol state { state with
        stopper := .joining
        workers := fun worker => (state.workers worker).wake }
  | join (joining : state.stopper = .joining)
      (ended : ∀ worker, (state.workers worker).gone = true) :
      Acts protocol state { state with stopper := .returned }

variable {protocol : Protocol} {state next : State Worker Client Task}

omit [Fintype Worker] in
theorem work_acts {worker : Worker} (took : state.work protocol worker = some next) :
    Acts protocol state next := by
  unfold work at took
  split at took
  next here =>
    cases took
    refine .turn _ _ _ _ here ?_
    split
    next stopped => exact .leave _ stopped
    next runs => exact .enter _ (Bool.eq_false_of_not_eq_true runs)
  next here =>
    split at took
    next free =>
      cases took
      exact .turn _ _ _ _ here (free ▸ .lock)
    next => cases took
  next here =>
    split at took
    next free =>
      cases took
      exact .turn _ _ _ _ here (free ▸ .relock)
    next => cases took
  next here =>
    cases took
    refine .turn _ _ _ _ here ?_
    split
    next ready => exact .pass _ ready
    next unready => exact .hold _ (Bool.eq_false_of_not_eq_true unready)
  next here =>
    cases took
    exact .turn _ _ _ _ here (.park _)
  next => cases took
  next here =>
    split at took
    next leaves =>
      cases took
      exact .turn _ _ _ _ here (.quit _ leaves)
    next stays =>
      cases took
      exact .turn _ _ _ _ here (.claim _ (Bool.eq_false_of_not_eq_true stays))
  next here =>
    split at took
    next => cases took
    next task queue front =>
      cases took
      exact .take _ _ _ here front
  next task here =>
    cases took
    exact .finish _ _ here
  next => cases took

theorem shutDown_acts (took : state.shutDown = some next) :
    Acts protocol state next := by
  unfold shutDown at took
  split at took
  next idle =>
    cases took
    exact .call idle
  next tested =>
    cases took
    exact .store tested
  next stored =>
    cases took
    exact .notifyAll stored
  next joining =>
    split at took
    next ended =>
      cases took
      exact .join joining ended
    next => cases took
  next => cases took

/-- **What a step of the system does.** -/
theorem step_acts {label : Label Worker Client Task}
    (took : state.step protocol label = some next) : Acts protocol state next := by
  cases label with
  | push client task =>
      simp only [step] at took
      split at took
      next idle free =>
        cases took
        exact .push _ _ idle free
      next => cases took
  | notifyOne client woken =>
      simp only [step] at took
      split at took
      next task worker pushed =>
        split at took
        next blocked =>
          cases took
          exact .notify _ _ _ pushed blocked
        next => cases took
      next task pushed =>
        split at took
        next nobody =>
          cases took
          exact .silent _ _ pushed fun worker => Bool.eq_false_of_not_eq_true (nobody worker)
        next => cases took
      next => cases took
  | shutDown => exact shutDown_acts took
  | work worker => exact work_acts took
  | spurious worker =>
      simp only [step] at took
      split at took
      next blocked =>
        cases took
        exact .turn _ _ _ _ blocked (.wake _)
      next => cases took

/-! ### What a step does to the queue -/

omit [DecidableEq Client] [Fintype Worker] in
/-- **What a worker's step does**: it moves with nothing in hand, takes the front task, or finishes
the one in hand. -/
theorem work_cases {worker : Worker} (took : state.work protocol worker = some next) :
    (∃ pc owner, next = state.turn worker pc owner ∧
      (∀ task, state.workers worker ≠ .running task) ∧ ∀ task, pc ≠ .running task) ∨
    (∃ task queue, state.workers worker = .taking ∧ state.queue = task :: queue ∧
      next = { state.turn worker (.running task) none with
        queue := queue
        taken := state.taken ++ [task] }) ∨
    (∃ task, state.workers worker = .running task ∧
      next = { state.turn worker .top state.owner with done := state.done ++ [task] }) := by
  unfold work at took
  split at took
  next here =>
    cases took
    refine .inl ⟨_, _, rfl, by simp [here], fun task => ?_⟩
    split <;> nofun
  next here =>
    split at took <;> cases took
    exact .inl ⟨_, _, rfl, by simp [here], nofun⟩
  next here =>
    split at took <;> cases took
    exact .inl ⟨_, _, rfl, by simp [here], nofun⟩
  next here =>
    cases took
    refine .inl ⟨_, _, rfl, by simp [here], fun task => ?_⟩
    split <;> nofun
  next here =>
    cases took
    exact .inl ⟨_, _, rfl, by simp [here], nofun⟩
  next => cases took
  next here =>
    split at took <;> cases took
    · exact .inl ⟨_, _, rfl, by simp [here], nofun⟩
    · exact .inl ⟨_, _, rfl, by simp [here], nofun⟩
  next here =>
    split at took
    next => cases took
    next task queue front =>
      cases took
      exact .inr (.inl ⟨task, queue, here, front, rfl⟩)
  next task here =>
    cases took
    exact .inr (.inr ⟨task, here, rfl⟩)
  next => cases took

omit [Fintype Worker] in
/-- A worker that moves with nothing in hand changes nobody's task. -/
theorem running_update {workers : Worker → WorkerPc Task} {worker : Worker} {pc : WorkerPc Task}
    (stood : ∀ task, workers worker ≠ .running task) (moved : ∀ task, pc ≠ .running task)
    (other : Worker) (task : Task) :
    Function.update workers worker pc other = .running task ↔ workers other = .running task := by
  by_cases here : other = worker
  · subst here
    rw [Function.update_self]
    exact ⟨fun running => absurd running (moved task), fun running => absurd running (stood task)⟩
  · rw [Function.update_of_ne here]

/-- **A step that is not a worker's own** pushes what it pushes, and changes nobody's task. -/
theorem quiet_step {label : Label Worker Client Task}
    (took : state.step protocol label = some next) (quiet : ∀ worker, label ≠ .work worker) :
    next.queue = state.queue ++ label.pushes ∧ next.pushed = state.pushed ++ label.pushes ∧
      ∀ worker task, next.workers worker = .running task ↔ state.workers worker = .running task := by
  have woken : ∀ {worker : Worker}, state.workers worker = .waiting → ∀ other task,
      Function.update state.workers worker .woken other = .running task ↔
        state.workers other = .running task :=
    fun blocked => running_update (fun task => by rw [blocked]; nofun) nofun
  cases label with
  | push client task =>
      simp only [step] at took
      split at took <;> cases took
      exact ⟨rfl, rfl, fun _ _ => Iff.rfl⟩
  | notifyOne client found =>
      rw [Label.pushes, List.append_nil, List.append_nil]
      simp only [step] at took
      split at took
      next =>
        split at took <;> cases took
        exact ⟨rfl, rfl, woken ‹_›⟩
      next =>
        split at took <;> cases took
        exact ⟨rfl, rfl, fun _ _ => Iff.rfl⟩
      next => cases took
  | shutDown =>
      rw [Label.pushes, List.append_nil, List.append_nil]
      simp only [step, shutDown] at took
      split at took
      next =>
        cases took
        exact ⟨rfl, rfl, fun _ _ => Iff.rfl⟩
      next =>
        cases took
        exact ⟨rfl, rfl, fun _ _ => Iff.rfl⟩
      next =>
        cases took
        exact ⟨rfl, rfl, fun worker => WorkerPc.wake_eq_running _⟩
      next =>
        split at took <;> cases took
        exact ⟨rfl, rfl, fun _ _ => Iff.rfl⟩
      next => cases took
  | work worker => exact absurd rfl (quiet worker)
  | spurious worker =>
      rw [Label.pushes, List.append_nil, List.append_nil]
      simp only [step] at took
      split at took <;> cases took
      exact ⟨rfl, rfl, woken ‹_›⟩

/-- **Only a push adds to what is pushed.** -/
theorem pushed_step {label : Label Worker Client Task}
    (took : state.step protocol label = some next) : next.pushed = state.pushed ++ label.pushes := by
  by_cases working : ∃ worker, label = .work worker
  · obtain ⟨worker, rfl⟩ := working
    rw [Label.pushes, List.append_nil]
    rcases work_cases took with ⟨_, _, rfl, -⟩ | ⟨_, _, -, -, rfl⟩ | ⟨_, -, rfl⟩ <;> rfl
  · exact (quiet_step took fun worker same => working ⟨worker, same⟩).2.1

/-! ### The mutex -/

omit [DecidableEq Client] [Fintype Worker]

/-- The worker that has the mutex is the one that is between its lock and its unlock. -/
def Owns (workers : Worker → WorkerPc Task) (owner : Option Worker) : Prop :=
  ∀ worker, (workers worker).locked = true ↔ owner = some worker

namespace Owns

variable {workers : Worker → WorkerPc Task} {owner : Option Worker}

theorem keep (owns : Owns workers owner) {worker : Worker} {pc : WorkerPc Task}
    (same : pc.locked = (workers worker).locked) :
    Owns (Function.update workers worker pc) owner := by
  intro other
  by_cases here : other = worker
  · subst here
    rw [Function.update_self, same]
    exact owns other
  · rw [Function.update_of_ne here]
    exact owns other

theorem lock (owns : Owns workers none) (worker : Worker) {pc : WorkerPc Task}
    (locked : pc.locked = true) : Owns (Function.update workers worker pc) (some worker) := by
  intro other
  by_cases here : other = worker
  · subst here
    rw [Function.update_self]
    exact ⟨fun _ => rfl, fun _ => locked⟩
  · rw [Function.update_of_ne here, owns other]
    constructor
    · intro free
      cases free
    · intro same
      exact absurd (Option.some.inj same).symm here

theorem unlock (owns : Owns workers owner) {worker : Worker} {pc : WorkerPc Task}
    (held : (workers worker).locked = true) (unlocked : pc.locked = false) :
    Owns (Function.update workers worker pc) none := by
  have holder : owner = some worker := (owns worker).mp held
  intro other
  by_cases here : other = worker
  · subst here
    rw [Function.update_self, unlocked]
    constructor <;> nofun
  · rw [Function.update_of_ne here, owns other, holder]
    constructor
    · intro same
      exact absurd (Option.some.inj same).symm here
    · nofun

omit [DecidableEq Worker] in
/-- At most one worker has the mutex. -/
theorem unique (owns : Owns workers owner) {worker other : Worker}
    (held : (workers worker).locked = true) (heldToo : (workers other).locked = true) :
    worker = other := by
  have first := (owns worker).mp held
  have second := (owns other).mp heldToo
  rw [first] at second
  exact Option.some.inj second

omit [DecidableEq Worker] in
theorem wakeAll (owns : Owns workers owner) :
    Owns (fun worker => (workers worker).wake) owner := by
  intro worker
  rw [WorkerPc.wake_locked]
  exact owns worker

theorem turn (owns : Owns workers owner) {stop empty : Bool} {worker : Worker}
    {here pc : WorkerPc Task} {after : Option Worker} (stands : workers worker = here)
    (turns : Turn protocol stop empty worker here owner pc after) :
    Owns (Function.update workers worker pc) after := by
  cases turns with
  | lock | relock => exact owns.lock worker rfl
  | park | quit => exact owns.unlock (by rw [stands]; rfl) rfl
  | leave | enter | pass | hold | claim | wake => exact owns.keep (by rw [stands]; rfl)

end Owns

end Step

/-! ### The queue -/

section Sums

variable [Fintype Worker] [DecidableEq Worker] {Weight : Type*} [AddCommMonoid Weight]
  (weigh : WorkerPc Task → Weight) (workers : Worker → WorkerPc Task)

/-- A sum over the workers does not see a turn that keeps the worker's own share. -/
theorem sum_update_same {worker : Worker} {pc : WorkerPc Task}
    (same : weigh pc = weigh (workers worker)) :
    ∑ other, weigh (Function.update workers worker pc other) = ∑ other, weigh (workers other) := by
  apply Finset.sum_congr rfl
  intro other _
  by_cases here : other = worker
  · subst here
    rw [Function.update_self, same]
  · rw [Function.update_of_ne here]

end Sums

variable [Fintype Worker]

/-- One worker at most has the mutex; the tasks are taken in the order they were pushed, each by one
worker that has finished it or is running it; and who is about to take a task finds one. -/
structure Sound (state : State Worker Client Task) : Prop where
  owns : Owns state.workers state.owner
  fifo : state.taken ++ state.queue = state.pushed
  once : (state.taken : Multiset Task) = state.done + ∑ worker, (state.workers worker).hand
  front : ∀ worker, state.workers worker = .taking → state.queue ≠ []

theorem sound_start : (start : State Worker Client Task).Sound where
  owns := by
    intro worker
    constructor <;> nofun
  fifo := rfl
  once := by
    show (0 : Multiset Task) = 0 + ∑ worker : Worker, 0
    simp
  front := nofun

section Steps

variable [DecidableEq Worker] [DecidableEq Client] {protocol : Protocol}
  {state next : State Worker Client Task}

omit [Fintype Worker] [DecidableEq Worker] in
/-- A turn takes and finishes no task. -/
theorem Turn.hands {stop empty : Bool} {worker : Worker} {here pc : WorkerPc Task}
    {owner after : Option Worker} (turns : Turn protocol stop empty worker here owner pc after) :
    pc.hand = here.hand := by
  cases turns <;> rfl

omit [Fintype Worker] [DecidableEq Worker] in
/-- Who comes to take a task has found one. -/
theorem Turn.front {stop empty : Bool} {worker : Worker} {here : WorkerPc Task}
    {owner after : Option Worker}
    (turns : Turn protocol stop empty worker here owner .taking after) : empty = false := by
  cases turns with
  | claim _ stays =>
      cases empty with
      | false => rfl
      | true =>
          rw [protocol.leaves_empty] at stays
          cases stays

omit [DecidableEq Client] in
/-- What a worker's turn leaves of the invariant. -/
theorem Sound.turn (sound : state.Sound) {worker : Worker} {here pc : WorkerPc Task}
    {owner : Option Worker} (stands : state.workers worker = here)
    (turns : Turn protocol state.stop state.queue.isEmpty worker here state.owner pc owner) :
    (state.turn worker pc owner).Sound where
  owns := sound.owns.turn stands turns
  fifo := sound.fifo
  once := by
    have same : pc.hand = (state.workers worker).hand := by
      rw [stands]
      exact turns.hands
    show (state.taken : Multiset Task) = state.done +
      ∑ other, (Function.update state.workers worker pc other).hand
    rw [sum_update_same WorkerPc.hand state.workers same]
    exact sound.once
  front := by
    intro other taking
    change Function.update state.workers worker pc other = .taking at taking
    show state.queue ≠ []
    by_cases same : other = worker
    · subst same
      rw [Function.update_self] at taking
      subst taking
      have found := turns.front
      rw [List.isEmpty_eq_false_iff] at found
      exact found
    · rw [Function.update_of_ne same] at taking
      exact sound.front other taking

omit [DecidableEq Client] in
theorem Sound.take (sound : state.Sound) {worker : Worker} {task : Task} {queue : List Task}
    (taking : state.workers worker = .taking) (found : state.queue = task :: queue) :
    Sound { state.turn worker (.running task) none with
      queue := queue
      taken := state.taken ++ [task] } where
  owns := sound.owns.unlock (by rw [taking]; rfl) rfl
  fifo := by
    show (state.taken ++ [task]) ++ queue = state.pushed
    rw [← sound.fifo, found, List.append_assoc]
    rfl
  once := by
    have share := sum_update WorkerPc.hand state.workers worker (.running task)
    rw [taking] at share
    change _ + (0 : Multiset Task) = _ + {task} at share
    rw [add_zero] at share
    show ((state.taken ++ [task] : List Task) : Multiset Task) = state.done +
      ∑ other, (Function.update state.workers worker (.running task) other).hand
    rw [share, ← Multiset.coe_add, sound.once, add_assoc]
    rfl
  front := by
    intro other takingToo
    change Function.update state.workers worker (.running task) other = .taking at takingToo
    by_cases same : other = worker
    · subst same
      rw [Function.update_self] at takingToo
      cases takingToo
    · -- two workers would have the mutex
      rw [Function.update_of_ne same] at takingToo
      exact absurd (sound.owns.unique (by rw [takingToo]; rfl) (by rw [taking]; rfl)) same

omit [DecidableEq Client] in
theorem Sound.finish (sound : state.Sound) {worker : Worker} {task : Task}
    (running : state.workers worker = .running task) :
    Sound { state.turn worker .top state.owner with done := state.done ++ [task] } where
  owns := sound.owns.keep (by rw [running]; rfl)
  fifo := sound.fifo
  once := by
    have share := sum_update WorkerPc.hand state.workers worker .top
    rw [running] at share
    change _ + {task} = _ + (0 : Multiset Task) at share
    rw [add_zero] at share
    show (state.taken : Multiset Task) = ((state.done ++ [task] : List Task) : Multiset Task) +
      ∑ other, (Function.update state.workers worker .top other).hand
    rw [sound.once, ← share, ← Multiset.coe_add, add_assoc, add_comm _ ({task} : Multiset Task)]
    rfl
  front := by
    intro other taking
    change Function.update state.workers worker .top other = .taking at taking
    by_cases same : other = worker
    · subst same
      rw [Function.update_self] at taking
      cases taking
    · rw [Function.update_of_ne same] at taking
      exact sound.front other taking

/-- **Every step keeps the invariant.** -/
theorem sound_step {label : Label Worker Client Task} (sound : state.Sound)
    (took : state.step protocol label = some next) : next.Sound := by
  cases step_acts took with
  | turn worker here pc owner stands turns => exact sound.turn stands turns
  | take worker task queue taking found => exact sound.take taking found
  | finish worker task running => exact sound.finish running
  | push client task idle free =>
      refine ⟨sound.owns, ?_, sound.once, fun worker taking => ?_⟩
      · show state.taken ++ (state.queue ++ [task]) = state.pushed ++ [task]
        rw [← List.append_assoc, sound.fifo]
      · show state.queue ++ [task] ≠ []
        simp
  | notify client task worker pushed blocked =>
      have accepted : (state.accept client task).Sound :=
        ⟨sound.owns, sound.fifo, sound.once, sound.front⟩
      refine accepted.turn blocked (?_ : Turn protocol _ _ _ _ _ _ _)
      exact .wake _
  | silent client task pushed nobody => exact ⟨sound.owns, sound.fifo, sound.once, sound.front⟩
  | call idle => exact ⟨sound.owns, sound.fifo, sound.once, sound.front⟩
  | store tested => exact ⟨sound.owns, sound.fifo, sound.once, sound.front⟩
  | notifyAll stored =>
      refine ⟨sound.owns.wakeAll, sound.fifo, ?_, fun worker taking => ?_⟩
      · simp only [WorkerPc.wake_hand]
        exact sound.once
      · exact sound.front worker ((WorkerPc.wake_eq_taking _).mp taking)
  | join joining ended => exact ⟨sound.owns, sound.fifo, sound.once, sound.front⟩

theorem sound_reachable (reach : Reachable (step protocol) start state) : state.Sound :=
  reach.invariant (fun _ _ _ sound took => sound_step sound took) sound_start

end Steps

end State

end WaitQueue
