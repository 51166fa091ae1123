/-
**A queue whose workers are never asleep for long.**

As long as the flag is clear, no task is left to a worker that sleeps.

* `Attended` — while a worker is blocked, every task of the queue has a notification of its own to
  come, or a worker of its own on the way to the queue; `attended_reachable`;
* `measure_step` — what the workers and the notifications have still to do; every step of theirs
  lowers it;
* `served_of_rest` — where neither can take a step, every task is done.
-/

import IkunSvr.Lib.WaitQueueStop
import Mathlib.Algebra.Order.BigOperators.Group.Finset
import Mathlib.Data.Fintype.Card

namespace WaitQueue

open Run

/-- With the flag clear a worker is ready exactly when there is a task, and does not leave one. -/
structure Protocol.Serves (protocol : Protocol) : Prop where
  ready : ∀ empty, protocol.ready false empty = !empty
  stays : protocol.leaves false false = false

/-- The worker will look at the queue before it blocks. -/
def WorkerPc.heading {Task : Type*} : WorkerPc Task → ℕ
  | .top | .entering | .testing | .woken | .checking | .taking => 1
  | .parking | .waiting | .running _ | .left => 0

/-- The client has still to notify a worker. -/
def ClientPc.calling {Task : Type*} : ClientPc Task → ℕ
  | .idle => 0
  | .notifying _ => 1

/-- How many steps the worker can still take without a task or a notification. -/
def WorkerPc.steps {Task : Type*} : WorkerPc Task → ℕ
  | .running _ => 5
  | .top => 4
  | .entering | .woken => 3
  | .testing => 2
  | .parking | .checking => 1
  | .waiting | .taking | .left => 0

/-- What the stopping thread has still to do among so many workers, each of which it may wake. -/
def StopperPc.steps (workers : ℕ) : StopperPc → ℕ
  | .idle => 3 * workers + 4
  | .tested => 3 * workers + 3
  | .stored => 3 * workers + 2
  | .joining => 1
  | .returned => 0

/-- A step of a worker's own, or a notification. -/
def Label.own {Worker Client Task : Type*} : Label Worker Client Task → Bool
  | .work _ | .notifyOne .. => true
  | .push .. | .shutDown | .spurious _ => false

/-- The client whose step it is, if it is one's. -/
def Label.caller {Worker Client Task : Type*} : Label Worker Client Task → Option Client
  | .push client _ | .notifyOne client _ => some client
  | .shutDown | .work _ | .spurious _ => none

namespace State

variable {Worker Client Task : Type*} [Fintype Worker] [Fintype Client]

/-- How many notifications are to come. -/
def notices (state : State Worker Client Task) : ℕ :=
  ∑ client, (state.clients client).calling

/-- How many workers are on their way to the queue. -/
def coming (state : State Worker Client Task) : ℕ :=
  ∑ worker, (state.workers worker).heading

/-- **Nobody sleeps on a task**: while a worker is blocked, there are no more tasks in the queue than
notifications to come and workers on their way to it. -/
structure Attended (state : State Worker Client Task) : Prop where
  present : ∀ worker, (state.workers worker).gone = false
  parked : ∀ worker, state.workers worker = .parking → state.queue = []
  checked : ∀ worker, state.workers worker = .checking → state.queue ≠ []
  matched : (∃ worker, state.workers worker = .waiting) →
    state.queue.length ≤ state.notices + state.coming

/-- The stopping thread has notified everyone, no client has still to notify, and the worker is blocked
or about to be. -/
structure Deaf (state : State Worker Client Task) (worker : Worker) : Prop where
  joining : state.stopper = .joining
  idle : ∀ client, state.clients client = .idle
  asleep : state.workers worker = .parking ∨ state.workers worker = .waiting

/-- A task in the queue pays for a turn of the worker that takes it, and a notification for that of
the worker it wakes. -/
def measure (state : State Worker Client Task) : ℕ :=
  (∑ worker, (state.workers worker).steps) + 6 * state.queue.length + 4 * state.notices

/-- Neither a worker nor a notification can take a step. -/
def Rests (protocol : Protocol) [DecidableEq Worker] [DecidableEq Client]
    (state : State Worker Client Task) : Prop :=
  Run.Rests (step protocol) Label.own state

/-- The steps of the workers' own, and the notifications. -/
def serve (protocol : Protocol) [DecidableEq Worker] [DecidableEq Client]
    (state : State Worker Client Task) (label : Label Worker Client Task) :
    Option (State Worker Client Task) :=
  only (step protocol) Label.own state label

section Steps

variable [DecidableEq Worker] [DecidableEq Client] {protocol : Protocol}
  {state next : State Worker Client Task}

/-! ### Who is on the way -/

omit [DecidableEq Worker] [DecidableEq Client] in
theorem attended_start : (start : State Worker Client Task).Attended :=
  ⟨fun _ => rfl, nofun, nofun, fun ⟨_, waiting⟩ => nomatch waiting⟩

omit [Fintype Client] [DecidableEq Client] in
/-- A worker that moves changes the number on the way by its own share. -/
theorem coming_turn (state : State Worker Client Task) (worker : Worker) (pc : WorkerPc Task)
    (owner : Option Worker) :
    (state.turn worker pc owner).coming + (state.workers worker).heading =
      state.coming + pc.heading :=
  sum_update WorkerPc.heading state.workers worker pc

omit [Fintype Worker] [DecidableEq Worker] in
/-- A client that moves changes the number of notifications by its own share. -/
theorem notices_update (clients : Client → ClientPc Task) (client : Client) (pc : ClientPc Task) :
    (∑ other, (Function.update clients client pc other).calling) + (clients client).calling =
      (∑ other, (clients other).calling) + pc.calling :=
  sum_update ClientPc.calling clients client pc

omit [DecidableEq Client] in
/-- A worker moves, and neither leaves nor blocks nor turns away with a task in the queue. -/
theorem Attended.turn (attended : state.Attended) {worker : Worker} {pc : WorkerPc Task}
    (owner : Option Worker) (present : pc.gone = false) (parked : pc = .parking → state.queue = [])
    (checked : pc = .checking → state.queue ≠ []) (blocks : pc = .waiting → state.queue = [])
    (turns : pc.heading < (state.workers worker).heading → state.queue = []) :
    (state.turn worker pc owner).Attended where
  present := (Function.forall_update_iff state.workers fun _ pc => pc.gone = false).mpr
    ⟨present, fun other _ => attended.present other⟩
  parked := (Function.forall_update_iff state.workers fun _ pc => pc = .parking → state.queue = []).mpr
    ⟨parked, fun other _ => attended.parked other⟩
  checked := (Function.forall_update_iff state.workers fun _ pc =>
    pc = .checking → state.queue ≠ []).mpr ⟨checked, fun other _ => attended.checked other⟩
  matched := by
    rintro ⟨sleeper, waiting⟩
    show state.queue.length ≤ state.notices + (state.turn worker pc owner).coming
    by_cases empty : state.queue = []
    · simp [empty]
    · have share := coming_turn state worker pc owner
      have kept : (state.workers worker).heading ≤ pc.heading :=
        not_lt.mp fun less => empty (turns less)
      change Function.update state.workers worker pc sleeper = .waiting at waiting
      have before : ∃ other, state.workers other = .waiting := by
        by_cases here : sleeper = worker
        · subst here
          rw [Function.update_self] at waiting
          exact absurd (blocks waiting) empty
        · rw [Function.update_of_ne here] at waiting
          exact ⟨sleeper, waiting⟩
      have matched := attended.matched before
      omega

omit [Fintype Worker] [Fintype Client] [DecidableEq Worker] [DecidableEq Client] in
/-- A worker between its lock and its unlock is the one that has the mutex. -/
theorem Owns.not_free {workers : Worker → WorkerPc Task} (owns : Owns workers none)
    {worker : Worker} (locked : (workers worker).locked = true) : False := by
  have held := (owns worker).mp locked
  cases held

omit [Fintype Client] [DecidableEq Worker] [DecidableEq Client] in
/-- While one worker is about to take a task, no other has the mutex. -/
theorem Sound.alone (sound : state.Sound) {worker other : Worker}
    (taking : state.workers worker = .taking) (elsewhere : other ≠ worker) :
    state.workers other ≠ .parking ∧ state.workers other ≠ .checking := by
  have apart : (state.workers other).locked = true → False := fun locked =>
    elsewhere (sound.owns.unique locked (by rw [taking]; rfl))
  constructor
  · intro here
    exact apart (by rw [here]; rfl)
  · intro here
    exact apart (by rw [here]; rfl)

omit [Fintype Worker] [Fintype Client] [DecidableEq Worker] [DecidableEq Client] in
/-- **A turn with the flag clear**: a worker turns away or blocks only with the queue empty, and comes
to take a task only if there is one. -/
theorem Turn.attends (serves : protocol.Serves) {empty : Bool} {worker : Worker}
    {here pc : WorkerPc Task} {owner after : Option Worker}
    (turns : Turn protocol false empty worker here owner pc after)
    (parked : here = .parking → empty = true) (checked : here = .checking → empty = false) :
    pc.gone = false ∧ (pc = .parking → empty = true) ∧ (pc = .checking → empty = false) ∧
      (pc = .waiting → empty = true) ∧ (pc.heading < here.heading → empty = true) := by
  cases turns with
  | leave _ stopped => cases stopped
  | enter | lock | relock | claim | wake => exact ⟨rfl, nofun, nofun, nofun, by simp [WorkerPc.heading]⟩
  | pass _ ready =>
      rw [serves.ready] at ready
      exact ⟨rfl, nofun, fun _ => by simpa using ready, nofun, by simp [WorkerPc.heading]⟩
  | hold _ unready =>
      rw [serves.ready] at unready
      have nothing : empty = true := by simpa using unready
      exact ⟨rfl, fun _ => nothing, nofun, nofun, fun _ => nothing⟩
  | park =>
      have nothing := parked rfl
      exact ⟨rfl, nofun, nofun, fun _ => nothing, fun _ => nothing⟩
  | quit _ leaves =>
      rw [checked rfl, serves.stays] at leaves
      cases leaves

omit [DecidableEq Client] in
/-- The front task is taken. -/
theorem Attended.take (attended : state.Attended) (sound : state.Sound) {worker : Worker}
    {task : Task} {queue : List Task} (taking : state.workers worker = .taking)
    (found : state.queue = task :: queue) :
    Attended { state.turn worker (.running task) none with
      queue := queue
      taken := state.taken ++ [task] } where
  present := (Function.forall_update_iff state.workers fun _ pc => pc.gone = false).mpr
    ⟨rfl, fun other _ => attended.present other⟩
  parked := (Function.forall_update_iff state.workers fun _ pc => pc = .parking → queue = []).mpr
    ⟨nofun, fun _ elsewhere here => absurd here (sound.alone taking elsewhere).1⟩
  checked := (Function.forall_update_iff state.workers fun _ pc => pc = .checking → queue ≠ []).mpr
    ⟨nofun, fun _ elsewhere here => absurd here (sound.alone taking elsewhere).2⟩
  matched := by
    rintro ⟨sleeper, waiting⟩
    show queue.length ≤ state.notices + (state.turn worker (.running task) none).coming
    change Function.update state.workers worker (.running task) sleeper = .waiting at waiting
    have before : state.workers sleeper = .waiting := by
      by_cases here : sleeper = worker
      · subst here
        rw [Function.update_self] at waiting
        cases waiting
      · rwa [Function.update_of_ne here] at waiting
    have matched := attended.matched ⟨sleeper, before⟩
    have share := coming_turn state worker (.running task) none
    rw [taking] at share
    simp only [WorkerPc.heading] at share
    rw [found, List.length_cons] at matched
    omega

omit [Fintype Client] in
/-- The flag was clear before it is clear. -/
theorem clear_before {label : Label Worker Client Task} (took : state.step protocol label = some next)
    (runs : next.stop = false) : state.stop = false := by
  cases stopped : state.stop with
  | false => rfl
  | true =>
      rw [stop_stays stopped took] at runs
      cases runs

/-- **With the flag clear, every step leaves the queue attended.** -/
theorem attended_step (serves : protocol.Serves) {label : Label Worker Client Task}
    (sound : state.Sound) (attended : state.Attended) (took : state.step protocol label = some next)
    (runs : next.stop = false) : next.Attended := by
  have clear := clear_before took runs
  cases step_acts took with
  | turn worker here pc owner stands turns =>
      rw [clear] at turns
      obtain ⟨present, parked, checked, blocks, away⟩ := turns.attends serves
        (fun parking => by simpa using attended.parked worker (stands.trans parking))
        (fun checking => by simpa using attended.checked worker (stands.trans checking))
      exact attended.turn owner present (fun here => by simpa using parked here)
        (fun here => by simpa using checked here) (fun here => by simpa using blocks here)
        fun less => by simpa using away (stands ▸ less)
  | take worker task queue taking found => exact attended.take sound taking found
  | finish worker task running =>
      have turned : (state.turn worker .top state.owner).Attended :=
        attended.turn _ rfl nofun nofun nofun (by simp [running, WorkerPc.heading])
      exact ⟨turned.present, turned.parked, turned.checked, turned.matched⟩
  | push client task idle free =>
      have unlocked : ∀ worker, (state.workers worker).locked = true → False := fun worker locked =>
        (free ▸ sound.owns).not_free locked
      refine ⟨attended.present, fun worker here => ?_, fun _ _ => by simp, fun sleeper => ?_⟩
      · exact (unlocked worker (by rw [here]; rfl)).elim
      · have matched := attended.matched sleeper
        have share := notices_update state.clients client (.notifying task)
        rw [idle] at share
        simp only [ClientPc.calling] at share
        show (state.queue ++ [task]).length ≤
          (∑ other, (Function.update state.clients client (.notifying task) other).calling) +
            state.coming
        rw [List.length_append, List.length_singleton]
        unfold notices at matched
        simp only [ClientPc.calling] at matched ⊢
        omega
  | notify client task worker pushed blocked =>
      have share := notices_update state.clients client .idle
      have woken := coming_turn state worker .woken state.owner
      rw [pushed] at share
      rw [blocked] at woken
      have turned : (state.turn worker .woken state.owner).Attended :=
        attended.turn _ rfl nofun nofun nofun (by simp [blocked, WorkerPc.heading])
      refine ⟨turned.present, turned.parked, turned.checked, fun _ => ?_⟩
      have matched := attended.matched ⟨worker, blocked⟩
      show state.queue.length ≤ (∑ other, (Function.update state.clients client .idle other).calling) +
        (state.turn worker .woken state.owner).coming
      unfold notices at matched
      simp only [ClientPc.calling, WorkerPc.heading] at share woken matched ⊢
      omega
  | silent client task pushed nobody =>
      refine ⟨attended.present, attended.parked, attended.checked, fun ⟨worker, waiting⟩ => ?_⟩
      have awake := nobody worker
      change state.workers worker = .waiting at waiting
      rw [waiting] at awake
      cases awake
  | call idle => exact ⟨attended.present, attended.parked, attended.checked, attended.matched⟩
  | store tested => cases runs
  | notifyAll stored =>
      have same : ∀ {pc : WorkerPc Task}, pc ≠ .waiting → pc.wake = pc := by
        intro pc awake
        cases pc with
        | waiting => exact absurd rfl awake
        | _ => rfl
      have unmoved : ∀ worker pc, (state.workers worker).wake = pc → pc ≠ .woken →
          state.workers worker = pc := by
        intro worker pc woken elsewhere
        by_cases waiting : state.workers worker = .waiting
        · rw [waiting] at woken
          exact absurd woken.symm elsewhere
        · rw [same waiting] at woken
          exact woken
      refine ⟨fun worker => ?_, fun worker here => ?_, fun worker here => ?_, fun ⟨worker, here⟩ => ?_⟩
      · show (state.workers worker).wake.gone = false
        have present := attended.present worker
        cases stands : state.workers worker with
        | left =>
            rw [stands] at present
            cases present
        | _ => rfl
      · exact attended.parked worker (unmoved worker _ here nofun)
      · exact attended.checked worker (unmoved worker _ here nofun)
      · change (state.workers worker).wake = .waiting at here
        have waiting := unmoved worker _ here nofun
        rw [waiting] at here
        cases here
  | join joining ended => exact ⟨attended.present, attended.parked, attended.checked, attended.matched⟩

/-- What holds in every state: the queue is sound, and with the flag clear it is attended. -/
def Tended (state : State Worker Client Task) : Prop :=
  state.Sound ∧ (state.stop = false → state.Attended)

theorem tended_step (serves : protocol.Serves) {label : Label Worker Client Task}
    (tended : state.Tended) (took : state.step protocol label = some next) : next.Tended :=
  ⟨sound_step tended.1 took, fun runs =>
    attended_step serves tended.1 (tended.2 (clear_before took runs)) took runs⟩

/-- **Nobody sleeps on a task** in any reachable state with the flag clear. -/
theorem tended_reachable (serves : protocol.Serves)
    (reach : Reachable (step protocol) start state) : state.Tended :=
  reach.invariant (fun _ _ _ tended took => tended_step serves tended took)
    ⟨sound_start, fun _ => attended_start⟩

/-! ### What is still to do -/

omit [DecidableEq Client] in
/-- A worker that moves changes what is still to do by its own share. -/
theorem measure_turn (state : State Worker Client Task) (worker : Worker) (pc : WorkerPc Task)
    (owner : Option Worker) :
    (state.turn worker pc owner).measure + (state.workers worker).steps =
      state.measure + pc.steps := by
  have share := sum_update WorkerPc.steps state.workers worker pc
  show (∑ other, (Function.update state.workers worker pc other).steps) +
    6 * state.queue.length + 4 * state.notices + _ = _
  unfold measure
  omega

omit [DecidableEq Client] in
/-- **A step of a worker lowers the measure.** -/
theorem measure_work {worker : Worker} (took : state.work protocol worker = some next) :
    next.measure < state.measure := by
  have turned : ∀ {here : WorkerPc Task} (pc : WorkerPc Task) (owner : Option Worker),
      state.workers worker = here → pc.steps < here.steps →
        (state.turn worker pc owner).measure < state.measure := by
    intro here pc owner stands fewer
    have share := measure_turn state worker pc owner
    rw [stands] at share
    omega
  unfold work at took
  split at took
  next here =>
    cases took
    refine turned _ _ here ?_
    split <;> simp [WorkerPc.steps]
  next here =>
    split at took <;> cases took
    exact turned _ _ here (by simp [WorkerPc.steps])
  next here =>
    split at took <;> cases took
    exact turned _ _ here (by simp [WorkerPc.steps])
  next here =>
    cases took
    refine turned _ _ here ?_
    split <;> simp [WorkerPc.steps]
  next here =>
    cases took
    exact turned _ _ here (by simp [WorkerPc.steps])
  next => cases took
  next here =>
    split at took <;> cases took
    · exact turned _ _ here (by simp [WorkerPc.steps])
    · exact turned _ _ here (by simp [WorkerPc.steps])
  next here =>
    split at took
    next => cases took
    next task queue front =>
      -- the task that leaves the queue pays for the worker's next turn
      cases took
      have share := measure_turn state worker (.running task) none
      rw [here] at share
      simp only [WorkerPc.steps, measure, front, List.length_cons] at share ⊢
      show (∑ other, (Function.update state.workers worker (.running task) other).steps) +
        6 * queue.length + 4 * state.notices < _
      change (∑ other, (Function.update state.workers worker (.running task) other).steps) +
        6 * state.queue.length + 4 * state.notices + 0 = _ at share
      rw [front, List.length_cons] at share
      omega
  next task here =>
    cases took
    exact turned .top state.owner here (by simp [WorkerPc.steps])
  next => cases took

/-- **Every step of a worker and every notification lowers the measure.** -/
theorem measure_step {label : Label Worker Client Task} (own : label.own = true)
    (took : state.step protocol label = some next) : next.measure < state.measure := by
  cases label with
  | work worker => exact measure_work took
  | notifyOne client woken =>
      have fewer : ∀ {task : Task}, state.clients client = .notifying task →
          (∑ other, (Function.update state.clients client .idle other).calling) + 1 =
            state.notices := by
        intro task pushed
        have share := notices_update state.clients client .idle
        rw [pushed] at share
        exact share
      simp only [step] at took
      split at took
      next task worker pushed =>
        split at took
        next blocked =>
          cases took
          have share := measure_turn state worker .woken state.owner
          have notices := fewer pushed
          rw [blocked] at share
          show (∑ other, (Function.update state.workers worker .woken other).steps) +
            6 * state.queue.length +
              4 * (∑ other, (Function.update state.clients client .idle other).calling) < _
          change (∑ other, (Function.update state.workers worker .woken other).steps) +
            6 * state.queue.length + 4 * state.notices + 0 = state.measure + 3 at share
          omega
        next => cases took
      next task pushed =>
        split at took
        next nobody =>
          cases took
          have notices := fewer pushed
          show (∑ other, (state.workers other).steps) + 6 * state.queue.length +
            4 * (∑ other, (Function.update state.clients client .idle other).calling) < _
          unfold measure
          omega
        next => cases took
      next => cases took
  | push | shutDown | spurious => cases own

omit [Fintype Client] in
/-- Only the stopping thread moves itself and sets the flag. -/
theorem still_step {label : Label Worker Client Task} (took : state.step protocol label = some next)
    (others : label ≠ .shutDown) : next.stop = state.stop ∧ next.stopper = state.stopper := by
  cases label with
  | push client task =>
      simp only [step] at took
      split at took <;> cases took
      exact ⟨rfl, rfl⟩
  | notifyOne client woken =>
      simp only [step] at took
      repeat' split at took
      all_goals cases took
      all_goals exact ⟨rfl, rfl⟩
  | shutDown => exact absurd rfl others
  | work worker =>
      rcases work_cases took with ⟨_, _, rfl, -⟩ | ⟨_, _, -, -, rfl⟩ | ⟨_, -, rfl⟩
      all_goals exact ⟨rfl, rfl⟩
  | spurious worker =>
      simp only [step] at took
      split at took <;> cases took
      exact ⟨rfl, rfl⟩

omit [Fintype Client] in
theorem stop_same {label : Label Worker Client Task} (took : state.step protocol label = some next)
    (others : label ≠ .shutDown) : next.stop = state.stop :=
  (still_step took others).1

omit [Fintype Client] in
/-- What the workers and the notifications do adds no task and does not set the flag. -/
theorem own_keeps {label : Label Worker Client Task} (own : label.own = true)
    (took : state.step protocol label = some next) :
    next.pushed = state.pushed ∧ next.stop = state.stop := by
  cases label with
  | work | notifyOne =>
      exact ⟨(pushed_step took).trans (List.append_nil _), stop_same took nofun⟩
  | push | shutDown | spurious => cases own

/-- What holds in every state holds when the workers have gone on, with the same tasks pushed. -/
theorem serve_run (serves : protocol.Serves) {labels : List (Label Worker Client Task)}
    {final : State Worker Client Task} (tended : state.Tended) (runs : state.stop = false)
    (ran : exec (serve protocol) state labels = some final) :
    final.Tended ∧ final.stop = false ∧ final.pushed = state.pushed := by
  refine only_kept (fun later => later.Tended ∧ later.stop = false ∧ later.pushed = state.pushed)
    ?_ ⟨tended, runs, rfl⟩ ran
  rintro now label later own ⟨tended, runs, same⟩ took
  obtain ⟨pushed, stop⟩ := own_keeps own took
  exact ⟨tended_step serves tended took, stop.trans runs, pushed.trans same⟩

omit [DecidableEq Worker] [DecidableEq Client] in
/-- **A step of the stopping thread lowers what it has still to do** by more than what it gives the
workers to do. -/
theorem measure_shutDown (took : state.shutDown = some next) :
    next.measure + next.stopper.steps (Fintype.card Worker) <
      state.measure + state.stopper.steps (Fintype.card Worker) := by
  unfold shutDown at took
  split at took
  next here =>
    cases took
    rw [here]
    show state.measure + StopperPc.steps _ (if state.stop then .returned else .tested) < _
    split <;> simp [StopperPc.steps]
  next here =>
    cases took
    rw [here]
    exact Nat.add_lt_add_left (by simp [StopperPc.steps]) state.measure
  next here =>
    cases took
    have woken : ∑ worker, (state.workers worker).wake.steps ≤
        ∑ worker, ((state.workers worker).steps + 3) := by
      refine Finset.sum_le_sum fun worker _ => ?_
      cases state.workers worker <;> simp [WorkerPc.wake, WorkerPc.steps]
    rw [Finset.sum_add_distrib, Finset.sum_const, Finset.card_univ, nsmul_eq_mul] at woken
    simp only [Nat.cast_id] at woken
    rw [here]
    show (∑ worker, (state.workers worker).wake.steps) + 6 * state.queue.length + 4 * state.notices +
      1 < state.measure + (3 * Fintype.card Worker + 2)
    unfold measure
    omega
  next here =>
    split at took <;> cases took
    rw [here]
    exact Nat.add_lt_add_left (by simp [StopperPc.steps]) state.measure
  next => cases took

/-- **The workers come to rest**: left to themselves and the notifications, they take as many steps
as the measure allows at most. -/
theorem serve_ends {labels : List (Label Worker Client Task)} {final : State Worker Client Task}
    (ran : exec (serve protocol) state labels = some final) : labels.length ≤ state.measure :=
  only_ends (fun _ _ _ own took => measure_step own took) ran

/-! ### Clients -/

omit [Fintype Client] in
/-- Nobody but the client itself moves a client: its push, and its notification. -/
theorem clients_step {label : Label Worker Client Task}
    (took : state.step protocol label = some next) :
    next.clients = match label with
      | .push client task => Function.update state.clients client (.notifying task)
      | .notifyOne client _ => Function.update state.clients client .idle
      | .shutDown | .work _ | .spurious _ => state.clients := by
  cases label with
  | push client task =>
      simp only [step] at took
      split at took <;> cases took
      rfl
  | notifyOne client woken =>
      simp only [step] at took
      repeat' split at took
      all_goals cases took
      all_goals rfl
  | shutDown =>
      simp only [step, shutDown] at took
      repeat' split at took
      all_goals cases took
      all_goals rfl
  | work worker =>
      rcases work_cases took with ⟨_, _, rfl, -⟩ | ⟨_, _, -, -, rfl⟩ | ⟨_, -, rfl⟩
      all_goals rfl
  | spurious worker =>
      simp only [step] at took
      split at took <;> cases took
      rfl

omit [Fintype Client] in
/-- Another's step does not move a client. -/
theorem clients_apart {label : Label Worker Client Task} {client : Client}
    (took : state.step protocol label = some next) (apart : label.caller ≠ some client) :
    next.clients client = state.clients client := by
  rw [clients_step took]
  cases label with
  | push other task => exact Function.update_of_ne (fun same => apart (by rw [same]; rfl)) _ _
  | notifyOne other woken => exact Function.update_of_ne (fun same => apart (by rw [same]; rfl)) _ _
  | shutDown | work | spurious => rfl

/-! ### Who runs a task -/

omit [Fintype Client] in
/-- A task is done by the worker that was running it. -/
theorem done_step {label : Label Worker Client Task} (took : state.step protocol label = some next) :
    next.done = state.done ∨ ∃ worker task, label = .work worker ∧
      state.workers worker = .running task ∧ next.done = state.done ++ [task] := by
  cases label with
  | work worker =>
      rcases work_cases took with ⟨_, _, rfl, -⟩ | ⟨_, _, -, -, rfl⟩ | ⟨task, running, rfl⟩
      · exact .inl rfl
      · exact .inl rfl
      · exact .inr ⟨worker, task, rfl, running, rfl⟩
  | push | notifyOne | spurious =>
      simp only [step] at took
      repeat' split at took
      all_goals cases took
      all_goals exact .inl rfl
  | shutDown =>
      simp only [step, shutDown] at took
      repeat' split at took
      all_goals cases took
      all_goals exact .inl rfl

omit [Fintype Client] in
/-- A task that was taken stays so. -/
theorem taken_step {label : Label Worker Client Task} (took : state.step protocol label = some next) :
    state.taken ⊆ next.taken := by
  cases step_acts took with
  | take => exact List.subset_append_left _ _
  | _ => exact List.Subset.refl _

omit [Fintype Client] [DecidableEq Worker] [DecidableEq Client] in
/-- A task that was taken is done, or some worker runs it. -/
theorem Sound.mem_taken (sound : state.Sound) {task : Task} :
    task ∈ state.taken ↔ task ∈ state.done ∨ ∃ worker, state.workers worker = .running task := by
  have hands : ∀ worker, task ∈ (state.workers worker).hand ↔ state.workers worker = .running task := by
    intro worker
    cases state.workers worker <;> simp [WorkerPc.hand, eq_comm]
  rw [← Multiset.mem_coe, sound.once, Multiset.mem_add, Multiset.mem_coe, Multiset.mem_sum]
  simp only [Finset.mem_univ, true_and, hands]

omit [Fintype Client] [DecidableEq Client] in
/-- **A task pushed once is run by one worker at most**, and not when it has been done. -/
theorem Sound.runs_alone (sound : state.Sound) (apart : state.pushed.Nodup) {worker : Worker}
    {task : Task} (running : state.workers worker = .running task) :
    task ∉ state.done ∧ ∀ other, state.workers other = .running task → other = worker := by
  classical
  have once : state.taken.Nodup := by
    rw [← sound.fifo] at apart
    exact apart.of_append_left
  have whole : Multiset.Nodup ((state.done : Multiset Task) + ∑ other, (state.workers other).hand) := by
    rw [← sound.once]
    exact Multiset.coe_nodup.mpr once
  have split : ∑ other, (state.workers other).hand =
      {task} + ∑ other ∈ Finset.univ.erase worker, (state.workers other).hand := by
    rw [← Finset.add_sum_erase _ _ (Finset.mem_univ worker), running]
    rfl
  rw [split] at whole
  have single := Multiset.nodup_iff_count_le_one.mp whole task
  rw [Multiset.count_add, Multiset.count_add, Multiset.count_singleton_self] at single
  constructor
  · intro member
    have present := Multiset.count_pos.mpr (Multiset.mem_coe.mpr member)
    omega
  · intro other runningToo
    by_contra elsewhere
    have present : task ∈ ∑ other ∈ Finset.univ.erase worker, (state.workers other).hand := by
      refine Multiset.mem_sum.mpr ⟨other, Finset.mem_erase.mpr ⟨elsewhere, Finset.mem_univ other⟩, ?_⟩
      rw [runningToo]
      exact Multiset.mem_singleton_self task
    have counted := Multiset.count_pos.mpr present
    omega

/-! ### Rest -/

omit [Fintype Client] in
/-- At rest no notification is to come. -/
theorem Rests.idle (rests : state.Rests protocol) (client : Client) : state.clients client = .idle := by
  cases here : state.clients client with
  | idle => rfl
  | notifying task =>
      obtain ⟨woken, next, took, -⟩ := deliver_one protocol here
      rw [rests _ rfl] at took
      cases took

omit [Fintype Client] in
/-- At rest a worker is blocked, or has returned. -/
theorem Rests.still (rests : state.Rests protocol) (sound : state.Sound) (worker : Worker) :
    state.workers worker = .waiting ∨ state.workers worker = .left := by
  have unlocked : ∀ other, (state.workers other).locked = false := by
    intro other
    have stuck : state.work protocol other = none := rests (.work other) rfl
    cases here : state.workers other with
    | testing | parking => simp [work, here] at stuck
    | checking =>
        simp only [work, here] at stuck
        split at stuck <;> cases stuck
    | taking =>
        simp only [work, here] at stuck
        split at stuck
        next empty => exact absurd empty (sound.front other here)
        next => cases stuck
    | _ => rfl
  have free : state.owner = none := by
    cases held : state.owner with
    | none => rfl
    | some other =>
        have locked := (sound.owns other).mpr held
        rw [unlocked other] at locked
        cases locked
  have stuck : state.work protocol worker = none := rests (.work worker) rfl
  cases here : state.workers worker with
  | waiting => exact .inl rfl
  | left => exact .inr rfl
  | testing | parking | checking | taking =>
      have locked := unlocked worker
      rw [here] at locked
      cases locked
  | top | running => simp [work, here] at stuck
  | entering | woken => simp [work, here, free] at stuck

/-- **At rest, with the flag clear, every task is done.** -/
theorem served_of_rest [Nonempty Worker] (tended : state.Tended) (runs : state.stop = false)
    (rests : state.Rests protocol) :
    state.queue = [] ∧ (∀ worker, state.workers worker = .waiting) ∧
      state.done.Perm state.pushed := by
  obtain ⟨sound, attended⟩ := tended
  have attended := attended runs
  have blocked : ∀ worker, state.workers worker = .waiting := by
    intro worker
    rcases rests.still sound worker with waiting | left
    · exact waiting
    · have present := attended.present worker
      rw [left] at present
      cases present
  have nobody : state.notices = 0 ∧ state.coming = 0 := by
    constructor
    · exact Finset.sum_eq_zero fun client _ => by rw [rests.idle client]; rfl
    · exact Finset.sum_eq_zero fun worker _ => by rw [blocked worker]; rfl
  have matched := attended.matched ⟨Classical.arbitrary Worker, blocked _⟩
  rw [nobody.1, nobody.2] at matched
  have empty : state.queue = [] := List.length_eq_zero_iff.mp (by omega)
  refine ⟨empty, blocked, ?_⟩
  have once := sound.once
  have hands : ∑ worker, (state.workers worker).hand = 0 :=
    Finset.sum_eq_zero fun worker _ => by rw [blocked worker]; rfl
  rw [hands, add_zero] at once
  rw [← sound.fifo, empty, List.append_nil]
  exact (Multiset.coe_eq_coe.mp once).symm

/-! ### Nobody left to notify -/

omit [Fintype Client] in
/-- A worker's step leaves a worker asleep that sleeps. -/
theorem Deaf.work {worker other : Worker} (deaf : state.Deaf worker)
    (took : state.step protocol (.work other) = some next) : next.Deaf worker := by
  have asleep : next.workers worker = .parking ∨ next.workers worker = .waiting := by
    by_cases here : worker = other
    · rw [← here] at took
      rcases deaf.asleep with parking | waiting
      · simp only [State.step, State.work, parking] at took
        cases took
        exact .inr (Function.update_self ..)
      · simp [State.step, State.work, waiting] at took
    · have still : next.workers worker = state.workers worker := by
        rcases work_cases took with ⟨_, _, rfl, -⟩ | ⟨_, _, -, -, rfl⟩ | ⟨_, -, rfl⟩
        all_goals exact Function.update_of_ne here _ _
      rw [still]
      exact deaf.asleep
  refine ⟨(still_step took (by simp)).2.trans deaf.joining, fun client => ?_, asleep⟩
  rw [clients_apart took (by simp [Label.caller])]
  exact deaf.idle client

omit [Fintype Client] in
/-- **A worker that sleeps with nobody left to notify it sleeps on**, and the stopping thread joins it. -/
theorem Deaf.step {worker : Worker} (deaf : state.Deaf worker) {label : Label Worker Client Task}
    (goes : label.own = true ∨ label = .shutDown) (took : state.step protocol label = some next) :
    next.Deaf worker := by
  cases label with
  | notifyOne client woken => simp [State.step, deaf.idle client] at took
  | shutDown =>
      simp only [State.step, shutDown, deaf.joining] at took
      split at took
      next ended =>
        have gone := ended worker
        rcases deaf.asleep with here | here
        · rw [here] at gone
          cases gone
        · rw [here] at gone
          cases gone
      next => cases took
  | work other => exact deaf.work took
  | push | spurious => rcases goes with own | same <;> contradiction

end Steps

end State

end WaitQueue
