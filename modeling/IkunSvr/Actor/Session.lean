/-
**An actor and its session.**

`session` waits on `_cond` for the predicate `waitPred`, returns on `exitTest`, and otherwise takes
the front of `_queue` and deals with it, the mutex released. `dispatch` pushes under the mutex and
calls `notify_one`; `stop` returns at once if `_stop` is set, else sets it without the mutex and calls
`notify_all`. A second thread in `stop` sets what is set, and wakes the session as it may wake for no
reason.

* `dealt_in_order` — the tasks dealt with, the one in hand and the queue, in the order dispatched;
* `stop_ends_session_iff` — **`stop` leaves the session blocked for good unless it sets `_stop` while
  the session is not between the test that heads its loop and the return of `wait`**;
* `stop_on_idle_session` — a session that waits for a task, and is stopped.
-/

import IkunSvr.Lib.WaitQueueStop

namespace IkunSvr

open Run WaitQueue WaitQueue.State

namespace Actor

/-! ### The session -/

/-- The predicate passed to `_cond.wait`. -/
def waitPred (stop empty : Bool) : Bool :=
  stop == false && empty == false

/-- The condition on which the session returns. -/
def exitTest (stop empty : Bool) : Bool :=
  stop == true || empty == true

/-- What the session tests. -/
def tests : Protocol where
  ready := waitPred
  leaves := exitTest
  leaves_empty := by decide
  leaves_stopped := by decide

end Actor

/-- An actor with its one session, to which any number of clients dispatch tasks. -/
abbrev Actor (Client Task : Type*) := WaitQueue.State Unit Client Task

namespace Actor

variable {Client Task : Type*}

/-- The actor as constructed, the session before its loop. -/
abbrev create : Actor Client Task := start

/-- Where the session is. -/
abbrev session (state : Actor Client Task) : WorkerPc Task := state.workers ()

/-- The task the session has taken and not finished. -/
def inHand : WorkerPc Task → List Task
  | .running task => [task]
  | _ => []

variable [DecidableEq Client]

/-- A step of the session, of a client in `dispatch`, or of the thread in `stop`, which has returned
once it has called `notify_all`: there is nobody it joins. -/
def step (state : Actor Client Task) (label : Label Unit Client Task) :
    Option (Actor Client Task) :=
  match label, state.stopper with
  | .shutDown, .joining => none
  | label, _ => WaitQueue.State.step tests state label

variable {state next : Actor Client Task} {label : Label Unit Client Task}

theorem step_eq (took : step state label = some next) :
    WaitQueue.State.step tests state label = some next := by
  unfold step at took
  split at took
  · cases took
  · exact took

/-- What a step does, in terms of the queue. -/
theorem acts (took : step state label = some next) : Acts tests state next :=
  step_acts (step_eq took)

/-! ### The tasks -/

/-- The tasks taken are those dealt with, in order, and the one in hand. -/
def DealtInOrder (state : Actor Client Task) : Prop :=
  state.taken = state.done ++ inHand state.session

omit [DecidableEq Client] in
theorem Turn.inHand {stop empty : Bool} {here pc : WorkerPc Task} {owner after : Option Unit}
    (turns : Turn tests stop empty () here owner pc after) : Actor.inHand pc = Actor.inHand here := by
  cases turns <;> rfl

omit [DecidableEq Client] in
/-- There is one session. -/
theorem session_update (worker : Unit) (pc : WorkerPc Task) (workers : Unit → WorkerPc Task) :
    Function.update workers worker pc () = pc :=
  Function.update_self ..

/-- **Every step keeps the order.** -/
theorem dealtInOrder_step (ordered : DealtInOrder state) (took : step state label = some next) :
    DealtInOrder next := by
  unfold DealtInOrder at ordered ⊢
  cases acts took with
  | turn worker here pc owner stands turns =>
      show state.taken = state.done ++ Actor.inHand (Function.update state.workers worker pc ())
      rw [session_update, Turn.inHand turns, ← stands]
      exact ordered
  | take worker task queue taking found =>
      show state.taken ++ [task] =
        state.done ++ Actor.inHand (Function.update state.workers worker (.running task) ())
      rw [session_update, ordered, session, taking]
      simp [inHand]
  | finish worker task running =>
      show state.taken = (state.done ++ [task]) ++
        Actor.inHand (Function.update state.workers worker .top ())
      rw [session_update, ordered, session, running]
      simp [inHand]
  | notify client task worker pushed blocked =>
      show state.taken = state.done ++ Actor.inHand (Function.update state.workers worker .woken ())
      rw [session_update, ordered, session, blocked]
      rfl
  | notifyAll stored =>
      have same : Actor.inHand (state.session).wake = Actor.inHand state.session := by
        cases state.session <;> rfl
      show state.taken = state.done ++ Actor.inHand (state.session).wake
      rw [same]
      exact ordered
  | _ => exact ordered

/-- Whatever holds of an actor at any time, for its tasks and its stop. -/
structure Sane (state : Actor Client Task) : Prop where
  sound : state.Sound
  stops : state.Stops
  ordered : DealtInOrder state

omit [DecidableEq Client] in
theorem sane_create : Sane (create : Actor Client Task) :=
  ⟨sound_start, stops_start, rfl⟩

theorem sane_step (sane : Sane state) (took : step state label = some next) : Sane next :=
  ⟨sound_step sane.sound (step_eq took), stops_step sane.stops (step_eq took),
    dealtInOrder_step sane.ordered took⟩

omit [DecidableEq Client] in
/-- **An actor deals with its tasks in the order they were dispatched**: those dealt with, the one
in hand and the queue are the tasks pushed, in order. -/
theorem Sane.dealt_in_order (sane : Sane state) :
    state.done ++ inHand state.session ++ state.queue = state.pushed := by
  have ordered := sane.ordered
  unfold DealtInOrder at ordered
  rw [← ordered]
  exact sane.sound.fifo

/-! ### What `stop` does to the session -/

/-- The session is not between the test that heads its loop and the return of `wait`. -/
def outside : WorkerPc Task → Bool
  | .entering | .testing | .parking | .waiting | .woken => false
  | .top | .checking | .taking | .running _ | .left => true

/-- The step from one state to the other sets `_stop`. -/
def Stores (state next : Actor Client Task) : Prop :=
  state.stop = false ∧ next.stop = true

/-- If the step sets `_stop`, then with the session outside its `wait`. -/
def StopsOutside (state : Actor Client Task) (label : Label Unit Client Task) : Prop :=
  ∀ next, step state label = some next → Stores state next → outside state.session = true

/-- `stop` has called `notify_all`, and the session is blocked and stays so: no step of anyone makes
the predicate true again. -/
def Deaf (state : Actor Client Task) : Prop :=
  state.stopper = .joining ∧ state.session = .waiting ∧
    ∀ labels final, exec step state labels = some final →
      waitPred final.stop final.queue.isEmpty = false

/-- The session's own steps end it. -/
def Returns (state : Actor Client Task) : Prop :=
  ∃ count final, exec step state (List.replicate count (.work ())) = some final ∧
    final.session = .left

/-- The session is not left blocked, and once `stop` has called `notify_all` it returns. -/
def Ends (state : Actor Client Task) : Prop :=
  ¬ Deaf state ∧ (state.stopper = .joining → Returns state)

theorem stop_stays (stopped : state.stop = true) (took : step state label = some next) :
    next.stop = true :=
  State.stop_stays stopped (step_eq took)

omit [DecidableEq Client] in
/-- With `_stop` set the predicate is false, whatever is queued. -/
theorem unready (stopped : state.stop = true) :
    waitPred state.stop state.queue.isEmpty = false := by
  rw [stopped]
  rfl

/-- **A session that blocks behind `notify_all` is left blocked.** -/
theorem deaf_of_waiting (joining : state.stopper = .joining) (stopped : state.stop = true)
    (waiting : state.session = .waiting) : Deaf state := by
  refine ⟨joining, waiting, fun labels final ran => unready ?_⟩
  have always : Always step (fun state => state.stop = true) state labels :=
    always_of_step (fun _ _ _ stopped took => stop_stays stopped took) stopped labels
  exact always.last ran

/-! ### A session that is outside its `wait` -/

omit [DecidableEq Client] in
/-- With `_stop` set, a turn from outside stays outside. -/
theorem Turn.outside {empty : Bool} {here pc : WorkerPc Task} {owner after : Option Unit}
    (turns : Turn tests true empty () here owner pc after)
    (away : Actor.outside here = true) : Actor.outside pc = true := by
  cases turns with
  | leave | quit | claim | pass => rfl
  | enter _ runs => cases runs
  | lock | relock | hold | park | wake => cases away

/-- The session is outside its `wait` from the time `_stop` is set. -/
def Away (state : Actor Client Task) : Prop :=
  Sane state ∧ (state.stop = true → outside state.session = true)

omit [DecidableEq Client] in
theorem away_create : Away (create : Actor Client Task) :=
  ⟨sane_create, nofun⟩

/-- A step that does not set `_stop` at the wrong time keeps the session away. -/
theorem away_step (away : Away state) (allowed : StopsOutside state label)
    (took : step state label = some next) : Away next := by
  refine ⟨sane_step away.1 took, ?_⟩
  obtain ⟨sane, away⟩ := away
  cases acts took with
  | turn worker here pc owner stands turns =>
      intro stopped
      change state.stop = true at stopped
      rw [stopped] at turns
      show outside (Function.update state.workers worker pc ()) = true
      rw [session_update]
      exact Turn.outside turns (stands ▸ away stopped)
  | take worker task queue taking found =>
      intro _
      show outside (Function.update state.workers worker (.running task) ()) = true
      rw [session_update]
      rfl
  | finish worker task running =>
      intro _
      show outside (Function.update state.workers worker .top ()) = true
      rw [session_update]
      rfl
  | notify client task worker pushed blocked =>
      intro stopped
      have standing : outside state.session = true := away stopped
      rw [session, blocked] at standing
      cases standing
  | store tested =>
      have clear : state.stop = false := by
        rw [sane.stops.flag, tested]
        rfl
      exact fun _ => allowed _ took ⟨clear, rfl⟩
  | notifyAll stored =>
      intro stopped
      have standing : outside state.session = true := away stopped
      show outside (state.session).wake = true
      cases here : state.session with
      | waiting =>
          rw [here] at standing
          cases standing
      | _ =>
          rw [here] at standing
          exact standing
  | push | silent | call | join => exact away

/-- Whoever takes a step to a state from which the session returns, returns. -/
theorem Returns.of_step (next : Actor Client Task) (took : step state (.work ()) = some next)
    (returns : Returns next) : Returns state := by
  obtain ⟨count, final, ran, left⟩ := returns
  refine ⟨count + 1, final, ?_, left⟩
  rw [List.replicate_succ, exec, took]
  exact ran

theorem returns_left (left : state.session = .left) : Returns state :=
  ⟨0, state, rfl, left⟩

theorem step_work (state : Actor Client Task) :
    step state (.work ()) = State.work tests state () := rfl

theorem returns_top (stopped : state.stop = true) (top : state.session = .top) : Returns state := by
  refine Returns.of_step (state.turn () .left state.owner) ?_ (returns_left rfl)
  rw [step_work, work, show state.workers () = _ from top, stopped]
  rfl

theorem returns_running {task : Task} (stopped : state.stop = true)
    (running : state.session = .running task) : Returns state := by
  refine Returns.of_step { state.turn () .top state.owner with
    done := state.done ++ [task] } ?_ (returns_top stopped rfl)
  rw [step_work, work, show state.workers () = _ from running]

/-- **A session outside its `wait` returns** once `_stop` is set: it deals with the task in hand, or
with the one it is about to take, and then finds the flag. -/
theorem Away.returns (away : Away state) (stopped : state.stop = true) : Returns state := by
  have standing := away.2 stopped
  cases here : state.session with
  | left => exact returns_left here
  | top => exact returns_top stopped here
  | running task => exact returns_running stopped here
  | checking =>
      refine Returns.of_step (state.turn () .left none) ?_ (returns_left rfl)
      rw [step_work, work, show state.workers () = _ from here, stopped]
      rfl
  | taking =>
      obtain ⟨task, queue, front⟩ := List.exists_cons_of_ne_nil (away.1.sound.front () here)
      refine Returns.of_step { state.turn () (.running task) none with
        queue := queue
        taken := state.taken ++ [task] } ?_ (returns_running stopped rfl)
      rw [step_work, work, show state.workers () = _ from here, front]
  | entering | testing | parking | waiting | woken =>
      rw [here] at standing
      cases standing

theorem Away.ends (away : Away state) : Ends state := by
  have stopped : state.stopper = .joining → state.stop = true := by
    intro joining
    rw [away.1.stops.flag, joining]
    rfl
  constructor
  · rintro ⟨joining, waiting, -⟩
    have standing := away.2 (stopped joining)
    rw [waiting] at standing
    cases standing
  · exact fun joining => away.returns (stopped joining)

/-! ### A session that is inside its `wait` -/

/-- A run leads to a state in which the session is left blocked. -/
def Deafens (state : Actor Client Task) : Prop :=
  ∃ labels final, exec step state labels = some final ∧ Deaf final

theorem Deafens.of_step (label : Label Unit Client Task) (next : Actor Client Task)
    (took : step state label = some next) (deafens : Deafens next) : Deafens state := by
  obtain ⟨labels, final, ran, deaf⟩ := deafens
  refine ⟨label :: labels, final, ?_, deaf⟩
  rw [exec, took]
  exact ran

theorem deafens_parking (joining : state.stopper = .joining) (stopped : state.stop = true)
    (parking : state.session = .parking) : Deafens state := by
  refine Deafens.of_step (.work ()) (state.turn () .waiting none) ?_
    ⟨[], _, rfl, deaf_of_waiting joining stopped rfl⟩
  rw [step_work, work, show state.workers () = _ from parking]

theorem deafens_testing (joining : state.stopper = .joining) (stopped : state.stop = true)
    (testing : state.session = .testing) : Deafens state := by
  refine Deafens.of_step (.work ()) (state.turn () .parking state.owner) ?_
    (deafens_parking joining stopped rfl)
  rw [step_work, work, show state.workers () = _ from testing, stopped]
  rfl

omit [DecidableEq Client] in
/-- With no mutex in its hands, the session finds it free. -/
theorem Sane.free (sane : Sane state) (unlocked : (state.session).locked = false) :
    state.owner = none := by
  cases owner : state.owner with
  | none => rfl
  | some worker =>
      have locked := (sane.sound.owns worker).mpr owner
      rw [session, locked] at unlocked
      cases unlocked

theorem deafens_locking (joining : state.stopper = .joining) (stopped : state.stop = true)
    (free : state.owner = none) (locking : state.session = .entering ∨ state.session = .woken) :
    Deafens state := by
  refine Deafens.of_step (.work ()) (state.turn () .testing (some ())) ?_
    (deafens_testing joining stopped rfl)
  rcases locking with entering | woken
  · rw [step_work, work, show state.workers () = _ from entering]
    simp [free]
  · rw [step_work, work, show state.workers () = _ from woken]
    simp [free]

/-- **A session inside its `wait`** when `notify_all` is called tests the predicate once more and
blocks. -/
theorem deafens_inside (sane : Sane state) (joining : state.stopper = .joining)
    (inside : outside state.session = false) : Deafens state := by
  have stopped : state.stop = true := by
    rw [sane.stops.flag, joining]
    rfl
  cases here : state.session with
  | waiting => exact ⟨[], _, rfl, deaf_of_waiting joining stopped here⟩
  | parking => exact deafens_parking joining stopped here
  | testing => exact deafens_testing joining stopped here
  | entering =>
      exact deafens_locking joining stopped (sane.free (by rw [here]; rfl)) (.inl here)
  | woken => exact deafens_locking joining stopped (sane.free (by rw [here]; rfl)) (.inr here)
  | top | checking | taking | running | left =>
      rw [here] at inside
      cases inside

omit [DecidableEq Client] in
theorem outside_wake (pc : WorkerPc Task) : outside pc.wake = outside pc := by
  cases pc <;> rfl

/-- `stop` has set `_stop`, and calls `notify_all` next. -/
theorem deafens_stored (sane : Sane state) (stored : state.stopper = .stored)
    (inside : outside state.session = false) : Deafens state := by
  have took : step state .shutDown = some { state with
      stopper := .joining
      workers := fun worker => (state.workers worker).wake } := by
    unfold step
    rw [stored]
    show state.shutDown = _
    rw [shutDown, stored]
  refine Deafens.of_step _ _ took (deafens_inside (sane_step sane took) rfl ?_)
  exact (outside_wake state.session).trans inside

/-- **When `stop` ends the session.** A run that sets `_stop` only with the session outside its
`wait` never leaves it blocked, and the session returns behind `notify_all`. And behind any
reachable step that sets `_stop`, that holds of every continuation exactly when the session was
outside. -/
theorem stop_ends_session_iff :
    (∀ labels : List (Label Unit Client Task), Along step StopsOutside create labels →
      Always step Ends create labels) ∧
    (∀ state next : Actor Client Task, Reachable step create state →
      ∀ label, step state label = some next → Stores state next →
        ((∀ labels, Always step Ends next labels) ↔ outside state.session = true)) := by
  constructor
  · intro labels along
    have away : Always step Away create labels :=
      always_of_along (fun _ _ _ away allowed took => away_step away allowed took) away_create along
    exact away.mono fun _ away => away.ends
  · intro state next reach label took stores
    have sane : Sane state :=
      reach.invariant (fun _ _ _ sane took => sane_step sane took) sane_create
    constructor
    · intro ends
      by_contra inside
      have inside := Bool.eq_false_of_not_eq_true inside
      obtain ⟨tested, stored⟩ : state.stopper = .tested ∧
          next = { state with stopper := .stored, stop := true } := by
        rcases stop_step (step_eq took) with same | stored
        · rw [stores.1, stores.2] at same
          cases same
        · exact stored
      have saneNext := sane_step sane took
      subst stored
      obtain ⟨labels, final, ran, deaf⟩ := deafens_stored saneNext rfl inside
      exact ((ends labels).last ran).1 deaf
    · intro standing labels
      have away : Away next := by
        refine away_step ⟨sane, fun stopped => ?_⟩ (fun _ _ _ => standing) took
        rw [stores.1] at stopped
        cases stopped
      have always : Always step (fun state => Away state ∧ state.stop = true) next labels := by
        refine always_of_step ?_ ⟨away, stores.2⟩ labels
        rintro state label next ⟨away, stopped⟩ took
        refine ⟨away_step away (fun _ _ stores => ?_) took, stop_stays stopped took⟩
        rw [stores.1] at stopped
        cases stopped
      exact always.mono fun _ both => both.1.ends

/-- The session deals with a task when `stop` sets `_stop`. -/
theorem stop_ends_session_iff_running :
    ∃ state next : Actor Unit ℕ, Reachable step create state ∧
      step state .shutDown = some next ∧ state.session = .running 7 ∧
      ((∀ labels, Always step Ends next labels) ↔ outside state.session = true) := by
  have run : ∃ state next : Actor Unit ℕ,
      exec step create [.push () 7, .notifyOne () none, .work (), .work (), .work (), .work (),
        .work (), .shutDown] = some state ∧
      step state .shutDown = some next ∧ state.session = .running 7 ∧ Stores state next :=
    ⟨_, _, rfl, rfl, rfl, rfl, rfl⟩
  obtain ⟨state, next, ran, took, running, stores⟩ := run
  exact ⟨state, next, ⟨_, ran⟩, took, running,
    stop_ends_session_iff.2 state next ⟨_, ran⟩ .shutDown took stores⟩

/-- **The session waits for a task, and the actor is stopped**: `notify_all` wakes the session, which
finds the predicate false and blocks again. -/
theorem stop_on_idle_session :
    ¬ Always step Ends (create : Actor Unit ℕ)
      [.work (), .work (), .work (), .work (), .shutDown, .shutDown, .shutDown, .work (), .work (),
        .work ()] := by
  have run : ∃ final : Actor Unit ℕ,
      exec step create [.work (), .work (), .work (), .work (), .shutDown, .shutDown, .shutDown,
        .work (), .work (), .work ()] = some final ∧
      final.stopper = .joining ∧ final.stop = true ∧ final.session = .waiting :=
    ⟨_, rfl, rfl, rfl, rfl⟩
  obtain ⟨final, ran, joining, stopped, waiting⟩ := run
  intro ends
  exact (ends.last ran).1 (deaf_of_waiting joining stopped waiting)

end Actor

end IkunSvr
