/-
**An `mgr` deals with everything it is sent.**

No `stop` is called. The senders, the sessions and the notifications go on, and nobody sends any more.

* `Served` — the actors are attended, and a sender is a client of the actor it notifies only;
* `measure_step` — every step of theirs lowers what is still to do, the scan of `send` included;
* `dealt_of_rest` — where nobody can go on, every sender has returned and every queue is empty;
* `every_task_dealt` — **they come to rest, and then every task sent has been dealt with, once, by the
  actor it was routed to and in the order routed**.
-/

import IkunSvr.Lib.WaitQueueLive
import IkunSvr.Actor.Mgr

namespace IkunSvr

open Run WaitQueue WaitQueue.State

namespace Actor

/-- Before `_stop` is set a session goes on exactly when there is a task. -/
theorem tests_serves : tests.Serves :=
  ⟨by decide, by decide⟩

end Actor

namespace Mgr

variable {n : ℕ} {Sender Task : Type*} [Fintype Sender]

/-- A step of a sender in its call, or of a session. -/
def Label.goes : Label n Sender Task → Bool
  | .load .. | .test _ | .push _ | .notify .. | .own _ .session => true
  | .send .. | .own _ .spurious | .own _ .stop => false

/-- How many steps the sender can still take, and what its push costs the actor. -/
def SendPc.steps {Item : Type*} : SendPc n Item → ℕ
  | .idle | .notifying _ => 0
  | .scanning _ i _ left right =>
      3 * (n + 1 - i) + (2 - left.toList.length - right.toList.length) + 11

/-- What is still to do. -/
def measure (state : Mgr n Sender Task) : ℕ :=
  (∑ idx, (state.actors idx).measure) + ∑ sender, (state.senders sender).steps

variable [DecidableEq Sender]

/-- The steps of the threads that go on with what they do. -/
def goOn (state : Mgr n Sender Task) (label : Label n Sender Task) : Option (Mgr n Sender Task) :=
  only step Label.goes state label

/-- Nobody can go on. -/
def Rests (state : Mgr n Sender Task) : Prop :=
  Run.Rests step Label.goes state

/-- Every call of `send` has returned, and every actor has dealt with what was routed to it, in the
order routed; each task sent has been dealt with by one actor, once. -/
structure Dealt (state : Mgr n Sender Task) : Prop where
  returned : ∀ sender, state.senders sender = .idle
  inOrder : ∀ idx, (state.actors idx).done = state.routedTo idx
  once : ∀ item ∈ state.sent, ∃! idx, item ∈ (state.actors idx).done
  apart : ∀ idx, (state.actors idx).done.Nodup

/-- The actors are attended while they run, and their clients are the senders that are in `dispatch` of
them. -/
structure Served (state : Mgr n Sender Task) : Prop where
  tended : ∀ idx, (state.actors idx).Tended
  clients : ∀ idx sender,
    (state.actors idx).clients sender = .idle ↔ state.senders sender ≠ .notifying idx

variable {state next : Mgr n Sender Task} {label : Label n Sender Task}

omit [DecidableEq Sender] in
theorem served_create : (create : Mgr n Sender Task).Served where
  tended := fun _ => ⟨sound_start, fun _ => attended_start⟩
  clients := fun _ _ => iff_of_true rfl nofun

/-! ### The clients of the actors -/

/-- An actor that takes a step stays tended. -/
theorem Served.tended_setActor (served : state.Served) {idx : Fin (n + 1)}
    {acts : WaitQueue.Label Unit Sender (Sent Sender Task)} {actor : Actor Sender (Sent Sender Task)}
    (acted : Actor.step (state.actors idx) acts = some actor) :
    ∀ other, State.Tended ((state.setActor idx actor).actors other) :=
  forall_setActor (fun _ => State.Tended)
    (tended_step Actor.tests_serves (served.tended idx) (Actor.step_eq acted)) served.tended

/-- A sender whose step it is not stays with the actors as it was. -/
theorem Served.others (served : state.Served) {idx : Fin (n + 1)}
    {acts : WaitQueue.Label Unit Sender (Sent Sender Task)} {actor : Actor Sender (Sent Sender Task)}
    (acted : Actor.step (state.actors idx) acts = some actor) {client : Sender}
    (apart : acts.caller ≠ some client) (other : Fin (n + 1)) :
    ((state.setActor idx actor).actors other).clients client = .idle ↔
      state.senders client ≠ .notifying other := by
  refine forall_setActor (fun other actor => actor.clients client = .idle ↔
    state.senders client ≠ .notifying other) ?_ (fun other => served.clients other client) other
  rw [clients_apart (Actor.step_eq acted) apart]
  exact served.clients idx client

/-- A sender goes on in its scan. -/
theorem Served.scan (served : state.Served) {sender : Sender} {pc : SendPc n (Sent Sender Task)}
    (elsewhere : ∀ idx, state.senders sender ≠ .notifying idx) (still : ∀ idx, pc ≠ .notifying idx) :
    (state.goTo sender pc).Served where
  tended := served.tended
  clients := by
    intro idx other
    show _ ↔ Function.update state.senders sender pc other ≠ _
    by_cases here : other = sender
    · subst here
      rw [Function.update_self]
      exact iff_of_true ((served.clients idx other).mpr (elsewhere idx)) (still idx)
    · rw [Function.update_of_ne here]
      exact served.clients idx other

/-- **Every step keeps the actors served.** -/
theorem served_step (served : state.Served) (took : step state label = some next) : next.Served := by
  cases step_turns took with
  | send sender task idle =>
      have scanned : (state.goTo sender (.scanning (state.item sender task) 0 0 none none)).Served :=
        served.scan (fun _ => by simp [idle]) (by simp)
      exact ⟨scanned.tended, scanned.clients⟩
  | left sender item i idx right inside stands => exact served.scan (fun _ => by simp [stands]) (by simp)
  | right sender item i idx left inside stands => exact served.scan (fun _ => by simp [stands]) (by simp)
  | test sender item i idx left right inside stands =>
      exact served.scan (fun _ => by simp [stands]) (by simp)
  | push sender item i idx left right actor ended stands acted =>
      refine ⟨served.tended_setActor acted, fun other client => ?_⟩
      show ((state.setActor idx actor).actors other).clients client = _ ↔
        Function.update state.senders sender (.notifying idx) client ≠ _
      by_cases here : client = sender
      · subst here
        rw [Function.update_self]
        show (Function.update state.actors idx actor other).clients client = _ ↔ _
        by_cases there : other = idx
        · subst there
          rw [Function.update_self, clients_step (Actor.step_eq acted)]
          simp
        · rw [Function.update_of_ne there]
          exact iff_of_true ((served.clients other client).mpr (by simp [stands]))
            fun same => there (SendPc.notifying.inj same).symm
      · rw [Function.update_of_ne here]
        exact served.others acted (by simpa [WaitQueue.Label.caller] using Ne.symm here) other
  | notify sender woken idx actor stands acted =>
      refine ⟨served.tended_setActor acted, fun other client => ?_⟩
      show ((state.setActor idx actor).actors other).clients client = _ ↔
        Function.update state.senders sender .idle client ≠ _
      by_cases here : client = sender
      · subst here
        rw [Function.update_self]
        refine iff_of_true ?_ (by simp)
        show (Function.update state.actors idx actor other).clients client = _
        by_cases there : other = idx
        · subst there
          rw [Function.update_self, clients_step (Actor.step_eq acted)]
          exact Function.update_self ..
        · rw [Function.update_of_ne there]
          refine (served.clients other client).mpr fun notifying => there ?_
          exact (SendPc.notifying.inj (stands.symm.trans notifying)).symm
      · rw [Function.update_of_ne here]
        exact served.others acted (by simpa [WaitQueue.Label.caller] using Ne.symm here) other
  | own idx does actor acted =>
      refine ⟨served.tended_setActor acted, fun other client => served.others acted ?_ other⟩
      cases does with
      | session | spurious | stop => simp [Own.label, WaitQueue.Label.caller]

/-! ### What is still to do -/

omit [DecidableEq Sender] in
/-- An actor's share of what is to do. -/
theorem measure_setActor (state : Mgr n Sender Task) (idx : Fin (n + 1))
    (actor : Actor Sender (Sent Sender Task)) :
    (state.setActor idx actor).measure + (state.actors idx).measure =
      state.measure + State.measure actor := by
  have share := sum_update State.measure state.actors idx actor
  show ((∑ other, State.measure (Function.update state.actors idx actor other)) +
    ∑ sender, (state.senders sender).steps) + State.measure (state.actors idx) = _
  unfold measure
  omega

/-- A sender's share of what is to do. -/
theorem measure_goTo (state : Mgr n Sender Task) (sender : Sender)
    (pc : SendPc n (Sent Sender Task)) :
    (state.goTo sender pc).measure + (state.senders sender).steps = state.measure + pc.steps := by
  have share := sum_update SendPc.steps state.senders sender pc
  show ((∑ idx, State.measure (state.actors idx)) +
    ∑ other, (Function.update state.senders sender pc other).steps) + _ = _
  unfold measure
  omega

/-- A push costs the actor a turn of the session and a notification. -/
theorem measure_push {actor after : Actor Sender (Sent Sender Task)} {sender : Sender}
    {item : Sent Sender Task} (acted : Actor.step actor (.push sender item) = some after) :
    State.measure after = State.measure actor + 10 := by
  have took := Actor.step_eq acted
  simp only [WaitQueue.State.step] at took
  split at took
  next idle free =>
    cases took
    have share := notices_update actor.clients sender (.notifying item)
    rw [idle] at share
    simp only [ClientPc.calling] at share
    unfold State.measure State.notices
    simp only [List.length_append, List.length_singleton, ClientPc.calling]
    omega
  next => cases took

/-- **Every step of a thread that goes on lowers what is still to do.** With fewer than 2^32 actors the
index of the scan does not come round to 0. -/
theorem measure_step (small : n + 1 < 2 ^ 32) (goes : label.goes = true)
    (took : step state label = some next) : next.measure < state.measure := by
  cases step_turns took with
  | send sender task idle => cases goes
  | left sender item i idx right inside stands =>
      have share := measure_goTo state sender (.scanning item i idx (state.load ⟨i, inside⟩) right)
      have read : right.toList.length ≤ 1 := Option.length_toList_le
      rw [stands] at share
      simp only [SendPc.steps, Option.toList_some, Option.toList_none, List.length_singleton,
        List.length_nil] at share
      omega
  | right sender item i idx left inside stands =>
      have share := measure_goTo state sender (.scanning item i idx left (state.load idx))
      have read : left.toList.length ≤ 1 := Option.length_toList_le
      rw [stands] at share
      simp only [SendPc.steps, Option.toList_some, Option.toList_none, List.length_singleton,
        List.length_nil] at share
      omega
  | test sender item i idx left right inside stands =>
      have share := measure_goTo state sender (.scanning item ((i + 1) % 2 ^ 32)
        (if left < right then ⟨i, inside⟩ else idx) none none)
      have later : (i + 1) % 2 ^ 32 = i + 1 := Nat.mod_eq_of_lt (by omega)
      rw [stands] at share
      simp only [SendPc.steps, Option.toList_some, Option.toList_none, List.length_singleton,
        List.length_nil, later] at share
      rw [later]
      omega
  | push sender item i idx left right actor ended stands acted =>
      have paid := measure_setActor state idx actor
      have share := measure_goTo (state.setActor idx actor) sender (.notifying idx)
      rw [show (state.setActor idx actor).senders sender = _ from stands] at share
      rw [measure_push acted] at paid
      simp only [SendPc.steps] at share
      show ((state.setActor idx actor).goTo sender (.notifying idx)).measure < _
      omega
  | notify sender woken idx actor stands acted =>
      have paid := measure_setActor state idx actor
      have share := measure_goTo (state.setActor idx actor) sender .idle
      rw [show (state.setActor idx actor).senders sender = _ from stands] at share
      simp only [SendPc.steps] at share
      have less := WaitQueue.State.measure_step rfl (Actor.step_eq acted)
      omega
  | own idx does actor acted =>
      cases does with
      | session =>
          have paid := measure_setActor state idx actor
          have less := WaitQueue.State.measure_step rfl (Actor.step_eq acted)
          omega
      | spurious | stop => cases goes

/-! ### Rest -/

omit [Fintype Sender] in
/-- A step that is not `stop` is the actor's own one. -/
theorem actor_step {actor : Actor Sender (Sent Sender Task)}
    {acts : WaitQueue.Label Unit Sender (Sent Sender Task)} (own : acts.own = true) :
    Actor.step actor acts = WaitQueue.State.step Actor.tests actor acts := by
  cases acts with
  | work | notifyOne => rfl
  | push | shutDown | spurious => cases own

/-- Where nobody can go on, no actor can. -/
theorem Rests.actor (rests : state.Rests) (served : state.Served) (idx : Fin (n + 1)) :
    State.Rests Actor.tests (state.actors idx) := by
  intro acts own
  rw [← actor_step own]
  cases acts with
  | work session =>
      have stuck := rests (.own idx .session) rfl
      exact Option.map_eq_none_iff.mp stuck
  | notifyOne sender woken =>
      by_cases notifying : state.senders sender = .notifying idx
      · have stuck := rests (.notify sender woken) rfl
        simp only [step, notifying] at stuck
        exact Option.map_eq_none_iff.mp stuck
      · have idle := (served.clients idx sender).mpr notifying
        rw [actor_step rfl]
        simp [WaitQueue.State.step, idle]
  | push | shutDown | spurious => cases own

/-- **Where nobody can go on, every actor is idle**: its queue is empty, and its session is blocked. -/
theorem Rests.drained (rests : state.Rests) (served : state.Served)
    (runs : ∀ idx, (state.actors idx).stop = false) (idx : Fin (n + 1)) :
    (state.actors idx).queue = [] ∧ Actor.session (state.actors idx) = .waiting := by
  obtain ⟨empty, blocked, -⟩ :=
    served_of_rest (served.tended idx) (runs idx) (rests.actor served idx)
  exact ⟨empty, blocked ()⟩

/-- **Where nobody can go on, every sender has returned.** -/
theorem Rests.returned (rests : state.Rests) (served : state.Served)
    (runs : ∀ idx, (state.actors idx).stop = false) (sender : Sender) :
    state.senders sender = .idle := by
  cases stands : state.senders sender with
  | idle => rfl
  | notifying idx =>
      have idle := (rests.actor served idx).idle sender
      exact absurd stands ((served.clients idx sender).mp idle)
  | scanning item i idx left right =>
      exfalso
      by_cases inside : i < n + 1
      · cases left with
        | none =>
            have stuck := rests (.load sender .left) rfl
            simp [step, stands, inside] at stuck
        | some left =>
            cases right with
            | none =>
                have stuck := rests (.load sender .right) rfl
                simp [step, stands, inside] at stuck
            | some right =>
                have stuck := rests (.test sender) rfl
                simp [step, stands, inside] at stuck
      · -- the session of the chosen actor is blocked, so the push finds the mutex free
        have blocked := (rests.drained served runs idx).2
        have client := (served.clients idx sender).mpr (by simp [stands])
        have free : (state.actors idx).owner = none := by
          cases held : (state.actors idx).owner with
          | none => rfl
          | some session =>
              have locked := ((served.tended idx).1.owns session).mpr held
              rw [show (state.actors idx).workers session = .waiting from blocked] at locked
              cases locked
        have stuck := rests (.push sender) rfl
        simp only [step, stands, if_neg inside] at stuck
        have acted := Option.map_eq_none_iff.mp stuck
        simp [Actor.step, WaitQueue.State.step, client, free] at acted

/-- **Where nobody can go on, everything sent has been dealt with.** -/
theorem dealt_of_rest (served : state.Served) (routes : state.Routes)
    (runs : ∀ idx, (state.actors idx).stop = false) (rests : state.Rests) : state.Dealt := by
  have returned := rests.returned served runs
  have done : ∀ idx, (state.actors idx).done = state.history idx := by
    intro idx
    obtain ⟨empty, blocked⟩ := rests.drained served runs idx
    simp [history, empty, blocked, Actor.inHand]
  have conserved := routes.conserved
  refine ⟨returned, fun idx => (done idx).trans (routes.history_eq idx), fun item sent => ?_,
    fun idx => done idx ▸ conserved.once idx⟩
  rcases (conserved.arrives item).mp sent with pending | ⟨idx, dealt⟩
  · rw [returned item.sender] at pending
    cases pending
  · refine ⟨idx, ?_, fun other dealtToo => ?_⟩
    · show item ∈ (state.actors idx).done
      rw [done idx]
      exact dealt
    · change item ∈ (state.actors other).done at dealtToo
      rw [done other] at dealtToo
      exact (conserved.alone idx item dealt).1 other dealtToo

omit [Fintype Sender] in
/-- An actor that takes a step other than `stop` leaves every actor running. -/
theorem runs_setActor (runs : ∀ idx, (state.actors idx).stop = false) {idx : Fin (n + 1)}
    {acts : WaitQueue.Label Unit Sender (Sent Sender Task)} {actor : Actor Sender (Sent Sender Task)}
    (acted : Actor.step (state.actors idx) acts = some actor) (others : acts ≠ .shutDown) :
    ∀ other, State.stop ((state.setActor idx actor).actors other) = false :=
  forall_setActor (fun _ actor => actor.stop = false)
    ((stop_same (Actor.step_eq acted) others).trans (runs idx)) runs

omit [Fintype Sender] in
/-- Who goes on sends nothing new and stops nobody. -/
theorem goes_keeps (goes : label.goes = true) (took : step state label = some next)
    (runs : ∀ idx, (state.actors idx).stop = false) :
    next.sent = state.sent ∧ ∀ idx, (next.actors idx).stop = false := by
  cases step_turns took with
  | send sender task idle => cases goes
  | left | right | test => exact ⟨rfl, runs⟩
  | push sender item i idx left right actor ended stands acted =>
      exact ⟨rfl, runs_setActor runs acted nofun⟩
  | notify sender woken idx actor stands acted => exact ⟨rfl, runs_setActor runs acted nofun⟩
  | own idx does actor acted =>
      cases does with
      | session => exact ⟨rfl, runs_setActor runs acted nofun⟩
      | spurious | stop => cases goes

/-- **Every task sent is dealt with.** From any reachable state of any positive number of actors below
2^32 and any number of senders, `stop` not called, the senders and the sessions take a bounded number
of steps, if nobody sends; and where they can take no more, every call of `send` has returned, and the
tasks sent have been dealt with, each once, by the actor it was routed to and in the order routed. -/
theorem every_task_dealt (small : n + 1 < 2 ^ 32) {state final : Mgr n Sender Task}
    (reach : Reachable step create state) (runs : ∀ idx, (state.actors idx).stop = false)
    {labels : List (Label n Sender Task)} (ran : exec goOn state labels = some final) :
    labels.length ≤ state.measure ∧ final.sent = state.sent ∧ (final.Rests → final.Dealt) := by
  have sound : state.Served ∧ state.Routes :=
    ⟨reach.invariant (fun _ _ _ served took => served_step served took) served_create,
      reach.invariant (fun _ _ _ routes took => routes_step routes took) routes_create⟩
  obtain ⟨⟨served, routes⟩, same, stay⟩ := only_kept
    (fun later => (later.Served ∧ later.Routes) ∧ later.sent = state.sent ∧
      ∀ idx, (later.actors idx).stop = false)
    (by
      rintro now label later goes ⟨⟨served, routes⟩, same, runs⟩ took
      obtain ⟨sent, stay⟩ := goes_keeps goes took runs
      exact ⟨⟨served_step served took, routes_step routes took⟩, sent.trans same, stay⟩)
    ⟨sound, rfl, runs⟩ ran
  exact ⟨only_ends (fun _ _ _ goes took => measure_step small goes took) ran, same,
    dealt_of_rest served routes stay⟩

/-- The steps of a send to two actors, behind its call. -/
def sendSteps : List (Label 1 Unit ℕ) :=
  [.load () .left, .load () .right, .test (), .load () .right, .load () .left, .test (), .push (),
    .notify () none]

/-- Two actors, which are sent three tasks: the third is still on its way when nobody sends any more. -/
theorem every_task_dealt_two :
    ∃ final : Mgr 1 Unit ℕ, final.sent.map Sent.task = [7, 8, 9] ∧
      (final.actors 0).done.map Sent.task = [7, 9] ∧ (final.actors 1).done.map Sent.task = [8] ∧
      final.Dealt := by
  have run : ∃ state final : Mgr 1 Unit ℕ,
      exec step create (.send () 7 :: sendSteps ++ .send () 8 :: sendSteps ++ [.send () 9]) =
        some state ∧
      exec goOn state (sendSteps ++ List.replicate 10 (.own 1 .session) ++
        List.replicate 16 (.own 0 .session)) = some final ∧
      (∀ idx, (state.actors idx).stop = false) ∧ state.sent.map Sent.task = [7, 8, 9] ∧
      (final.actors 0).done.map Sent.task = [7, 9] ∧ (final.actors 1).done.map Sent.task = [8] ∧
      final.senders () = .idle ∧ Actor.session (final.actors 0) = .waiting ∧
      Actor.session (final.actors 1) = .waiting :=
    ⟨_, _, rfl, rfl, Fin.forall_fin_two.mpr ⟨rfl, rfl⟩, rfl, rfl, rfl, rfl, rfl, rfl⟩
  obtain ⟨state, final, ran, went, runs, sent, first, second, idle, waits, waitsToo⟩ := run
  have waiting : ∀ idx, Actor.session (final.actors idx) = .waiting :=
    Fin.forall_fin_two.mpr ⟨waits, waitsToo⟩
  have rests : final.Rests := by
    intro label goes
    cases label with
    | load | test | push | notify => simp [step, idle]
    | send => cases goes
    | own idx does =>
        cases does with
        | session =>
            have blocked : Actor.step (final.actors idx) (.work ()) = none := by
              rw [Actor.step_work, work, show (final.actors idx).workers () = _ from waiting idx]
            exact Option.map_eq_none_iff.mpr blocked
        | spurious | stop => cases goes
  obtain ⟨-, same, dealt⟩ := every_task_dealt (by decide) ⟨_, ran⟩ runs went
  exact ⟨final, by rw [same, sent], first, second, dealt rests⟩

end Mgr

end IkunSvr
