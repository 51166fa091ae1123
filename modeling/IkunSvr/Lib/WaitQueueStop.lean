/-
**Stopping the workers of a queue.**

* `Stops` — the flag is set by the stopping thread, which returns when every worker has;
* `settled_step` — once the flag is set, no worker comes to take a task, so what is taken in the end
  is what was taken or about to be taken when the flag was stored;
* `deliver_all` — the notifications under way can be delivered while a worker keeps the mutex.
-/

import IkunSvr.Lib.WaitQueue

namespace WaitQueue

open Run

/-- The stopping thread has stored the flag. -/
def StopperPc.stored? : StopperPc → Bool
  | .idle | .tested => false
  | .stored | .joining | .returned => true

namespace State

variable {Worker Client Task : Type*} [DecidableEq Worker] [DecidableEq Client] [Fintype Worker]
  {protocol : Protocol} {state next : State Worker Client Task}

/-! ### The stopping thread -/

/-- The flag is the stopping thread's, and the workers have all left when it returns. -/
structure Stops (state : State Worker Client Task) : Prop where
  flag : state.stop = state.stopper.stored?
  ended : state.stopper = .returned → ∀ worker, (state.workers worker).gone = true

omit [DecidableEq Worker] [DecidableEq Client] [Fintype Worker] in
theorem stops_start : (start : State Worker Client Task).Stops := ⟨rfl, nofun⟩

omit [DecidableEq Worker] [DecidableEq Client] [Fintype Worker] in
/-- Who takes a turn has not returned. -/
theorem Turn.present {stop empty : Bool} {worker : Worker} {here pc : WorkerPc Task}
    {owner after : Option Worker} (turns : Turn protocol stop empty worker here owner pc after) :
    here.gone = false := by
  cases turns <;> rfl

omit [DecidableEq Worker] [DecidableEq Client] [Fintype Worker] in
/-- A worker that has not returned keeps the stopping thread from returning. -/
theorem Stops.move (stops : state.Stops) {worker : Worker}
    (present : (state.workers worker).gone = false) {workers : Worker → WorkerPc Task} :
    state.stopper = .returned → ∀ worker, (workers worker).gone = true := by
  intro returned
  have gone := stops.ended returned worker
  rw [present] at gone
  cases gone

theorem stops_step {label : Label Worker Client Task} (stops : state.Stops)
    (took : state.step protocol label = some next) : next.Stops := by
  cases step_acts took with
  | turn worker here pc owner stands turns =>
      exact ⟨stops.flag, stops.move (stands ▸ turns.present)⟩
  | take worker task queue taking found => exact ⟨stops.flag, stops.move (by rw [taking]; rfl)⟩
  | finish worker task running => exact ⟨stops.flag, stops.move (by rw [running]; rfl)⟩
  | push client task idle free => exact ⟨stops.flag, stops.ended⟩
  | notify client task worker pushed blocked =>
      exact ⟨stops.flag, stops.move (by rw [blocked]; rfl)⟩
  | silent client task pushed nobody => exact ⟨stops.flag, stops.ended⟩
  | call idle =>
      have clear : state.stop = false := by
        rw [stops.flag, idle]
        rfl
      simp only [clear]
      exact ⟨rfl, nofun⟩
  | store tested => exact ⟨rfl, nofun⟩
  | notifyAll stored =>
      refine ⟨?_, nofun⟩
      show state.stop = true
      rw [stops.flag, stored]
      rfl
  | join joining ended =>
      refine ⟨?_, fun _ => ended⟩
      show state.stop = true
      rw [stops.flag, joining]
      rfl

/-- The flag changes only where the stopping thread stores it. -/
theorem stop_step {label : Label Worker Client Task}
    (took : state.step protocol label = some next) :
    next.stop = state.stop ∨
      state.stopper = .tested ∧ next = { state with stopper := .stored, stop := true } := by
  cases step_acts took with
  | store tested => exact .inr ⟨tested, rfl⟩
  | _ => exact .inl rfl

theorem stop_stays {label : Label Worker Client Task} (stopped : state.stop = true)
    (took : state.step protocol label = some next) : next.stop = true := by
  rcases stop_step took with same | ⟨_, rfl⟩
  · rw [same, stopped]
  · rfl

/-! ### What is taken in the end -/

/-- How many tasks are taken or about to be taken. -/
def settled (state : State Worker Client Task) : ℕ :=
  state.taken.length + ∑ worker, (state.workers worker).claim

omit [DecidableEq Worker] in
theorem claim_eq_zero {pc : WorkerPc Task} (elsewhere : pc ≠ .taking) : pc.claim = 0 := by
  cases pc with
  | taking => exact absurd rfl elsewhere
  | _ => rfl

omit [DecidableEq Worker] [DecidableEq Client] in
/-- The task a worker is about to take is in the queue. -/
theorem Sound.claimed_le (sound : state.Sound) :
    ∑ worker, (state.workers worker).claim ≤ state.queue.length := by
  by_cases someone : ∃ worker, state.workers worker = .taking
  · obtain ⟨worker, taking⟩ := someone
    have alone : ∑ other, (state.workers other).claim = (state.workers worker).claim := by
      apply Finset.sum_eq_single worker
      · intro other _ elsewhere
        apply claim_eq_zero
        intro takingToo
        exact elsewhere (sound.owns.unique (by rw [takingToo]; rfl) (by rw [taking]; rfl))
      · intro absent
        exact absurd (Finset.mem_univ worker) absent
    rw [alone, taking]
    exact List.length_pos_iff.mpr (sound.front worker taking)
  · have nobody : ∑ other, (state.workers other).claim = 0 := by
      apply Finset.sum_eq_zero
      intro other _
      exact claim_eq_zero fun taking => someone ⟨other, taking⟩
    rw [nobody]
    exact Nat.zero_le _

omit [DecidableEq Worker] [DecidableEq Client] in
theorem Sound.settled_le (sound : state.Sound) : state.settled ≤ state.pushed.length := by
  rw [← sound.fifo, List.length_append]
  exact Nat.add_le_add_left sound.claimed_le _

omit [DecidableEq Client] in
theorem settled_turn (state : State Worker Client Task) {worker : Worker} {pc : WorkerPc Task}
    (owner : Option Worker)
    (same : pc.claim = (state.workers worker).claim) :
    (state.turn worker pc owner).settled = state.settled := by
  show state.taken.length + ∑ other, (Function.update state.workers worker pc other).claim = _
  rw [sum_update_same WorkerPc.claim state.workers same]
  rfl

omit [DecidableEq Worker] [DecidableEq Client] [Fintype Worker] in
theorem Turn.claims {empty : Bool} {worker : Worker} {here pc : WorkerPc Task}
    {owner after : Option Worker} (turns : Turn protocol true empty worker here owner pc after) :
    pc.claim = here.claim := by
  cases turns with
  | claim _ stays =>
      rw [protocol.leaves_stopped] at stays
      cases stays
  | _ => rfl

/-- **Once the flag is set, nobody comes to take a task.** -/
theorem settled_step {label : Label Worker Client Task} (stopped : state.stop = true)
    (took : state.step protocol label = some next) : next.settled = state.settled := by
  cases step_acts took with
  | turn worker here pc owner stands turns =>
      apply settled_turn
      rw [stopped] at turns
      rw [stands]
      exact turns.claims
  | take worker task queue taking found =>
      have share := sum_update WorkerPc.claim state.workers worker (.running task)
      rw [taking] at share
      change _ + 1 = _ + 0 at share
      show (state.taken ++ [task]).length +
        ∑ other, (Function.update state.workers worker (.running task) other).claim = _
      unfold settled
      rw [List.length_append, List.length_singleton]
      omega
  | finish worker task running =>
      have kept : (state.turn worker .top state.owner).settled = state.settled := by
        apply settled_turn
        rw [running]
        rfl
      exact kept
  | push client task idle free => rfl
  | notify client task worker pushed blocked =>
      refine settled_turn (state.accept client task) _ ?_
      show _ = (state.workers worker).claim
      rw [blocked]
      rfl
  | silent client task pushed nobody => rfl
  | call idle => rfl
  | store tested => rfl
  | notifyAll stored =>
      show state.taken.length + ∑ worker, (state.workers worker).wake.claim = _
      simp only [WorkerPc.wake_claim]
      rfl
  | join joining ended => rfl

/-- The tasks accepted before the stop are among those taken or about to be taken. -/
def Covered (state : State Worker Client Task) : Prop :=
  state.accepted.Subperm (state.pushed.take state.settled)

/-- The tasks accepted before the stop are done, and none is done more often than it was pushed. -/
def Executed (state : State Worker Client Task) : Prop :=
  state.accepted.Subperm state.done ∧ state.done.Subperm state.pushed

omit [DecidableEq Worker] [Fintype Worker] in
/-- Nothing is accepted before the stop once it was called. -/
theorem accepted_accept (called : state.stopper ≠ .idle) (client : Client) (task : Task) :
    (state.accept client task).accepted = state.accepted := by
  unfold accept
  dsimp only
  split
  next idle => exact absurd idle called
  next => rfl

theorem accepted_step {label : Label Worker Client Task} (called : state.stopper ≠ .idle)
    (took : state.step protocol label = some next) : next.accepted = state.accepted := by
  cases step_acts took with
  | notify client task worker pushed blocked => exact accepted_accept called client task
  | silent client task pushed nobody => exact accepted_accept called client task
  | _ => rfl

omit [DecidableEq Worker] [DecidableEq Client] [Fintype Worker] in
theorem Stops.called (stops : state.Stops) (stopped : state.stop = true) :
    state.stopper ≠ .idle := by
  intro idle
  rw [stops.flag, idle] at stopped
  cases stopped

/-- **Once the flag is set, a step neither covers what was accepted nor uncovers it.** -/
theorem covered_step {label : Label Worker Client Task} (sound : state.Sound) (stops : state.Stops)
    (stopped : state.stop = true) (took : state.step protocol label = some next) :
    next.Covered ↔ state.Covered := by
  unfold Covered
  rw [accepted_step (stops.called stopped) took, settled_step stopped took, pushed_step took,
    List.take_append_of_le_length sound.settled_le]

omit [DecidableEq Worker] [DecidableEq Client] in
/-- **When the stopping thread returns, what was accepted is done if and only if it was covered.** -/
theorem executed_iff_covered (sound : state.Sound) (stops : state.Stops)
    (returned : state.stopper = .returned) : state.Executed ↔ state.Covered := by
  have gone := stops.ended returned
  have empty : ∀ worker, (state.workers worker).hand = 0 := by
    intro worker
    have left := gone worker
    cases here : state.workers worker with
    | left => rfl
    | _ =>
        rw [here] at left
        cases left
  have unclaimed : ∑ worker, (state.workers worker).claim = 0 := by
    apply Finset.sum_eq_zero
    intro worker _
    apply claim_eq_zero
    intro taking
    have left := gone worker
    rw [taking] at left
    cases left
  have done : state.taken.Perm state.done := by
    have once := sound.once
    simp only [empty, Finset.sum_const_zero, add_zero] at once
    exact Multiset.coe_eq_coe.mp once
  have taken : state.pushed.take state.settled = state.taken := by
    rw [settled, unclaimed, add_zero, ← sound.fifo, List.take_left]
  unfold Executed Covered
  rw [taken, ← done.subperm_left, ← done.subperm_right]
  constructor
  · exact And.left
  · intro covered
    refine ⟨covered, ?_⟩
    rw [← sound.fifo]
    exact (List.sublist_append_left _ _).subperm

/-! ### Notifications under way -/

/-- Some worker is woken by the notification, if any is blocked. -/
theorem deliver_one (protocol : Protocol) {client : Client} {task : Task}
    (pushed : state.clients client = .notifying task) :
    ∃ woken next, state.step protocol (.notifyOne client woken) = some next ∧
      next.clients = Function.update state.clients client .idle ∧
      next.stopper = state.stopper ∧
      ∀ worker, state.workers worker ≠ .waiting → next.workers worker = state.workers worker := by
  by_cases someone : ∃ worker, state.workers worker = .waiting
  · obtain ⟨woken, blocked⟩ := someone
    refine ⟨some woken, (state.accept client task).turn woken .woken state.owner, ?_, rfl, rfl, ?_⟩
    · simp only [step, pushed, blocked]
    · intro worker awake
      show Function.update state.workers woken .woken worker = state.workers worker
      rw [Function.update_of_ne]
      intro same
      rw [same] at awake
      exact awake blocked
  · have nobody : ∀ worker, ¬ (state.workers worker).blocked = true := by
      intro worker blocked
      cases here : state.workers worker with
      | waiting => exact someone ⟨worker, here⟩
      | _ =>
          rw [here] at blocked
          cases blocked
    refine ⟨none, state.accept client task, ?_, rfl, rfl, fun _ _ => rfl⟩
    simp only [step, pushed]
    rw [if_pos nobody]

/-- **The notifications of the clients can be delivered** while a worker that is not blocked stays
where it is. -/
theorem deliver_all (protocol : Protocol) (clients : List Client)
    (state : State Worker Client Task) :
    ∃ labels final, exec (step protocol) state labels = some final ∧
      (∀ client ∈ clients, final.clients client = .idle) ∧
      (∀ client, state.clients client = .idle → final.clients client = .idle) ∧
      final.stopper = state.stopper ∧
      ∀ worker, state.workers worker ≠ .waiting → final.workers worker = state.workers worker := by
  induction clients generalizing state with
  | nil => exact ⟨[], state, rfl, nofun, fun _ idle => idle, rfl, fun _ _ => rfl⟩
  | cons client clients ih =>
      cases here : state.clients client with
      | idle =>
          obtain ⟨labels, final, ran, each, kept, stopper, stay⟩ := ih state
          refine ⟨labels, final, ran, fun other member => ?_, kept, stopper, stay⟩
          rcases List.mem_cons.mp member with rfl | member
          · exact kept _ here
          · exact each other member
      | notifying task =>
          obtain ⟨woken, next, took, idle, same, unmoved⟩ :=
            deliver_one protocol here
          obtain ⟨labels, final, ran, each, kept, stopper, stay⟩ := ih next
          refine ⟨.notifyOne client woken :: labels, final, ?_, fun other member => ?_,
            fun other before => ?_, stopper.trans same, fun worker awake => ?_⟩
          · rw [exec, took]
            exact ran
          · rcases List.mem_cons.mp member with rfl | member
            · apply kept
              rw [idle, Function.update_self]
            · exact each other member
          · apply kept
            rw [idle]
            by_cases same : other = client
            · subst same
              rw [Function.update_self]
            · rw [Function.update_of_ne same]
              exact before
          · have still := unmoved worker awake
            rw [stay worker (by rw [still]; exact awake)]
            exact still

end State

end WaitQueue
