/-
**The actors of an `mgr`, and `send`.**

`send` looks at every actor of `_actors[def]` for the one with the smallest `load`, read without the
mutex while the sessions drain the queues, and dispatches the task to it. `Mgr` is any positive number
of actors, each with its session, and any number of threads in `send`.

* `Turns`, `step_turns` — what a step does, with where the sender stands before and after it;
* `Routes` — what is in a queue was routed there, and each call of `send` is pushed once, behind what
  had been pushed when it was called;
* `routes_step` — every step of a sender, a session or a `stop` keeps that;
* `sends_conserved` — **every task sent is in one actor's history, in the order of the sends**.
-/

import IkunSvr.Actor.Session

namespace IkunSvr

open Run WaitQueue WaitQueue.State

namespace Mgr

/-! ### Senders -/

/-- A call of `send`. -/
structure Sent (Sender Task : Type*) where
  sender : Sender
  task : Task
  /-- how many calls there were before this one -/
  call : ℕ
  /-- how many tasks had been pushed when it was called -/
  behind : ℕ
  deriving DecidableEq, Repr

/-- One of the two calls of `load` in the test of `send`. -/
inductive Side
  /-- of `_actors[def][i]` -/
  | left
  /-- of `_actors[def][idx]` -/
  | right
  deriving DecidableEq, Repr

/-- Where a thread is that calls `send`, with `n + 1` actors to choose from. -/
inductive SendPc (n : ℕ) (Item : Type*)
  | idle
  /-- in the loop, or about to leave it, with what it has read of the two loads -/
  | scanning (item : Item) (i : ℕ) (idx : Fin (n + 1)) (left right : Option ℕ)
  /-- in the `dispatch` of `_actors[def][idx]`, behind the push -/
  | notifying (idx : Fin (n + 1))
  deriving DecidableEq, Repr

/-- What the thread is sending and has not pushed. -/
def SendPc.pending {n : ℕ} {Item : Type*} : SendPc n Item → List Item
  | .scanning item .. => [item]
  | .idle | .notifying _ => []

end Mgr

/-- An `mgr` with `n + 1` actors, the threads that call `send`, and the history of the calls. -/
structure Mgr (n : ℕ) (Sender Task : Type*) where
  actors : Fin (n + 1) → Actor Sender (Mgr.Sent Sender Task)
  senders : Sender → Mgr.SendPc n (Mgr.Sent Sender Task)
  /-- in the order of the calls -/
  sent : List (Mgr.Sent Sender Task) := []
  /-- in the order of the pushes, each with the actor it went to -/
  routed : List (Fin (n + 1) × Mgr.Sent Sender Task) := []

namespace Mgr

/-- What an actor does without a sender. -/
inductive Own
  | session
  /-- the session wakes for no reason -/
  | spurious
  | stop

/-- A step of some thread. -/
inductive Label (n : ℕ) (Sender Task : Type*)
  | send (sender : Sender) (task : Task)
  | load (sender : Sender) (side : Side)
  /-- the comparison of the two loads, and `++i` -/
  | test (sender : Sender)
  /-- the push of `dispatch` -/
  | push (sender : Sender)
  /-- the `notify_one` of `dispatch`, and what it wakes -/
  | notify (sender : Sender) (woken : Option Unit)
  | own (actor : Fin (n + 1)) (does : Own)

variable {n : ℕ} {Sender Task : Type*}

/-- The actors as created, their sessions before the loop. -/
def create : Mgr n Sender Task where
  actors := fun _ => Actor.create
  senders := fun _ => .idle

/-- `load()` of an actor, a `uint32_t`. -/
def load (state : Mgr n Sender Task) (actor : Fin (n + 1)) : ℕ :=
  (state.actors actor).queue.length % 2 ^ 32

/-- The call of `send` that comes next. -/
def item (state : Mgr n Sender Task) (sender : Sender) (task : Task) : Sent Sender Task where
  sender := sender
  task := task
  call := state.sent.length
  behind := state.routed.length

/-- What an actor has dealt with, has in hand and has queued. -/
def history (state : Mgr n Sender Task) (actor : Fin (n + 1)) : List (Sent Sender Task) :=
  (state.actors actor).done ++ Actor.inHand (state.actors actor).session ++
    (state.actors actor).queue

/-- The calls of `send` that have pushed, in the order of the pushes. -/
def order (state : Mgr n Sender Task) : List (Sent Sender Task) :=
  state.routed.map Prod.snd

/-- The calls that were routed to an actor. -/
def routedTo (state : Mgr n Sender Task) (actor : Fin (n + 1)) : List (Sent Sender Task) :=
  (state.routed.filter fun entry => entry.1 = actor).map Prod.snd

section Step

variable [DecidableEq Sender]

/-- The sender goes on to `pc`. -/
def goTo (state : Mgr n Sender Task) (sender : Sender) (pc : SendPc n (Sent Sender Task)) :
    Mgr n Sender Task :=
  { state with senders := Function.update state.senders sender pc }

/-- The actor is `actor` from now on. -/
def setActor (state : Mgr n Sender Task) (idx : Fin (n + 1))
    (actor : Actor Sender (Sent Sender Task)) : Mgr n Sender Task :=
  { state with actors := Function.update state.actors idx actor }

/-- What an actor does without a sender, as a step of the actor. -/
def Own.label : Own → WaitQueue.Label Unit Sender (Sent Sender Task)
  | .session => .work ()
  | .spurious => .spurious ()
  | .stop => .shutDown

/-- A step. -/
def step (state : Mgr n Sender Task) : Label n Sender Task → Option (Mgr n Sender Task)
  | .send sender task =>
      match state.senders sender with
      | .idle =>
          some { state.goTo sender (.scanning (state.item sender task) 0 0 none none) with
            sent := state.sent ++ [state.item sender task] }
      | _ => none
  | .load sender side =>
      match state.senders sender with
      | .scanning item i idx left right =>
          if inside : i < n + 1 then
            match side, left, right with
            | .left, none, _ =>
                some (state.goTo sender (.scanning item i idx (state.load ⟨i, inside⟩) right))
            | .right, _, none =>
                some (state.goTo sender (.scanning item i idx left (state.load idx)))
            | _, _, _ => none
          else none
      | _ => none
  | .test sender =>
      match state.senders sender with
      | .scanning item i idx (some left) (some right) =>
          if inside : i < n + 1 then
            -- `i` is a `uint32_t`
            some (state.goTo sender (.scanning item ((i + 1) % 2 ^ 32)
              (if left < right then ⟨i, inside⟩ else idx) none none))
          else none
      | _ => none
  | .push sender =>
      match state.senders sender with
      | .scanning item i idx _ _ =>
          if i < n + 1 then none
          else
            (Actor.step (state.actors idx) (.push sender item)).map fun actor =>
              { (state.setActor idx actor).goTo sender (.notifying idx) with
                routed := state.routed ++ [(idx, item)] }
      | _ => none
  | .notify sender woken =>
      match state.senders sender with
      | .notifying idx =>
          (Actor.step (state.actors idx) (.notifyOne sender woken)).map fun actor =>
            (state.setActor idx actor).goTo sender .idle
      | _ => none
  | .own idx does =>
      (Actor.step (state.actors idx) does.label).map fun actor => state.setActor idx actor

/-! ### What a step does -/

/-- What a step does, with where the sender stands before and after it. -/
inductive Turns (state : Mgr n Sender Task) : Label n Sender Task → Mgr n Sender Task → Prop
  | send (sender : Sender) (task : Task) (idle : state.senders sender = .idle) :
      Turns state (.send sender task)
        { state.goTo sender (.scanning (state.item sender task) 0 0 none none) with
          sent := state.sent ++ [state.item sender task] }
  | left (sender : Sender) (item : Sent Sender Task) (i : ℕ) (idx : Fin (n + 1)) (right : Option ℕ)
      (inside : i < n + 1) (stands : state.senders sender = .scanning item i idx none right) :
      Turns state (.load sender .left)
        (state.goTo sender (.scanning item i idx (state.load ⟨i, inside⟩) right))
  | right (sender : Sender) (item : Sent Sender Task) (i : ℕ) (idx : Fin (n + 1)) (left : Option ℕ)
      (inside : i < n + 1) (stands : state.senders sender = .scanning item i idx left none) :
      Turns state (.load sender .right)
        (state.goTo sender (.scanning item i idx left (state.load idx)))
  | test (sender : Sender) (item : Sent Sender Task) (i : ℕ) (idx : Fin (n + 1)) (left right : ℕ)
      (inside : i < n + 1)
      (stands : state.senders sender = .scanning item i idx (some left) (some right)) :
      Turns state (.test sender) (state.goTo sender (.scanning item ((i + 1) % 2 ^ 32)
        (if left < right then ⟨i, inside⟩ else idx) none none))
  | push (sender : Sender) (item : Sent Sender Task) (i : ℕ) (idx : Fin (n + 1))
      (left right : Option ℕ) (actor : Actor Sender (Sent Sender Task)) (ended : n + 1 ≤ i)
      (stands : state.senders sender = .scanning item i idx left right)
      (acted : Actor.step (state.actors idx) (.push sender item) = some actor) :
      Turns state (.push sender) { (state.setActor idx actor).goTo sender (.notifying idx) with
        routed := state.routed ++ [(idx, item)] }
  | notify (sender : Sender) (woken : Option Unit) (idx : Fin (n + 1))
      (actor : Actor Sender (Sent Sender Task)) (stands : state.senders sender = .notifying idx)
      (acted : Actor.step (state.actors idx) (.notifyOne sender woken) = some actor) :
      Turns state (.notify sender woken) ((state.setActor idx actor).goTo sender .idle)
  | own (idx : Fin (n + 1)) (does : Own) (actor : Actor Sender (Sent Sender Task))
      (acted : Actor.step (state.actors idx) does.label = some actor) :
      Turns state (.own idx does) (state.setActor idx actor)

variable {state next : Mgr n Sender Task}

/-- **What a step of the system does.** -/
theorem step_turns {label : Label n Sender Task} (took : step state label = some next) :
    Turns state label next := by
  cases label with
  | send sender task =>
      simp only [step] at took
      split at took
      next idle =>
        cases took
        exact .send sender task idle
      next => cases took
  | load sender side =>
      simp only [step] at took
      split at took
      next item i idx left right stands =>
        split at took
        next inside =>
          split at took
          next =>
            cases took
            exact .left sender item i idx right inside stands
          next =>
            cases took
            exact .right sender item i idx left inside stands
          next => cases took
        next => cases took
      next => cases took
  | test sender =>
      simp only [step] at took
      split at took
      next item i idx left right stands =>
        split at took
        next inside =>
          cases took
          exact .test sender item i idx left right inside stands
        next => cases took
      next => cases took
  | push sender =>
      simp only [step] at took
      split at took
      next item i idx left right stands =>
        split at took
        next => cases took
        next ended =>
          obtain ⟨actor, acted, rfl⟩ := Option.map_eq_some_iff.mp took
          exact .push sender item i idx left right actor (not_lt.mp ended) stands acted
      next => cases took
  | notify sender woken =>
      simp only [step] at took
      split at took
      next idx stands =>
        obtain ⟨actor, acted, rfl⟩ := Option.map_eq_some_iff.mp took
        exact .notify sender woken idx actor stands acted
      next => cases took
  | own idx does =>
      obtain ⟨actor, acted, rfl⟩ := Option.map_eq_some_iff.mp took
      exact .own idx does actor acted

/-- What a step does to the calls and the queues. -/
inductive Acts (state : Mgr n Sender Task) : Mgr n Sender Task → Prop
  | send (sender : Sender) (task : Task) (idle : state.senders sender = .idle) :
      Acts state { state.goTo sender (.scanning (state.item sender task) 0 0 none none) with
        sent := state.sent ++ [state.item sender task] }
  | scan (sender : Sender) (pc : SendPc n (Sent Sender Task))
      (same : pc.pending = (state.senders sender).pending) : Acts state (state.goTo sender pc)
  | push (sender : Sender) (item : Sent Sender Task) (idx : Fin (n + 1))
      (actor : Actor Sender (Sent Sender Task))
      (pending : (state.senders sender).pending = [item])
      (acted : Actor.step (state.actors idx) (.push sender item) = some actor) :
      Acts state { (state.setActor idx actor).goTo sender (.notifying idx) with
        routed := state.routed ++ [(idx, item)] }
  | notify (sender : Sender) (woken : Option Unit) (idx : Fin (n + 1))
      (actor : Actor Sender (Sent Sender Task)) (pushed : state.senders sender = .notifying idx)
      (acted : Actor.step (state.actors idx) (.notifyOne sender woken) = some actor) :
      Acts state ((state.setActor idx actor).goTo sender .idle)
  | own (idx : Fin (n + 1)) (does : Own) (actor : Actor Sender (Sent Sender Task))
      (acted : Actor.step (state.actors idx) does.label = some actor) :
      Acts state (state.setActor idx actor)

theorem step_acts {label : Label n Sender Task} (took : state.step label = some next) :
    Acts state next := by
  cases step_turns took with
  | send sender task idle => exact .send sender task idle
  | left sender item i idx right inside stands => exact .scan sender _ (by rw [stands]; rfl)
  | right sender item i idx left inside stands => exact .scan sender _ (by rw [stands]; rfl)
  | test sender item i idx left right inside stands => exact .scan sender _ (by rw [stands]; rfl)
  | push sender item i idx left right actor ended stands acted =>
      exact .push sender item idx actor (by rw [stands]; rfl) acted
  | notify sender woken idx actor stands acted => exact .notify sender woken idx actor stands acted
  | own idx does actor acted => exact .own idx does actor acted

/-! ### What holds in every state -/

/-- The calls of `send` are numbered; each is pushed once or still to be pushed, those of one sender
in the order called, and none before the place it was called at; and each actor keeps its own tasks,
which are those pushed to it. -/
structure Routes (state : Mgr n Sender Task) : Prop where
  sane : ∀ idx, Actor.Sane (state.actors idx)
  pushed : ∀ idx, (state.actors idx).pushed = state.routedTo idx
  numbered : state.sent.map Sent.call = List.range state.sent.length
  calls : ∀ sender, state.sent.filter (fun item => item.sender = sender) =
    state.order.filter (fun item => item.sender = sender) ++ (state.senders sender).pending
  early : ∀ sender, ∀ item ∈ (state.senders sender).pending, item.behind ≤ state.routed.length
  behind : ∀ (pos : ℕ) (item : Sent Sender Task), state.order[pos]? = some item → item.behind ≤ pos

theorem routes_create : (create : Mgr n Sender Task).Routes where
  sane := fun _ => Actor.sane_create
  pushed := fun _ => rfl
  numbered := rfl
  calls := fun _ => rfl
  early := nofun
  behind := nofun

/-- A sender that goes on with what it was sending changes nobody's pending call. -/
theorem pending_update {sender : Sender} {pc : SendPc n (Sent Sender Task)}
    (same : pc.pending = (state.senders sender).pending) (other : Sender) :
    (Function.update state.senders sender pc other).pending = (state.senders other).pending := by
  by_cases here : other = sender
  · subst here
    rw [Function.update_self, same]
  · rw [Function.update_of_ne here]

/-- Who sends a call is written on it. -/
theorem Routes.sender_eq (routes : state.Routes) {sender : Sender} {item : Sent Sender Task}
    (pending : item ∈ (state.senders sender).pending) : item.sender = sender := by
  have member : item ∈ state.sent.filter fun item => item.sender = sender := by
    rw [routes.calls sender]
    exact List.mem_append_right _ pending
  simpa using List.of_mem_filter member

theorem Routes.scan (routes : state.Routes) {sender : Sender} {pc : SendPc n (Sent Sender Task)}
    (same : pc.pending = (state.senders sender).pending) : (state.goTo sender pc).Routes where
  sane := routes.sane
  pushed := routes.pushed
  numbered := routes.numbered
  calls := by
    intro other
    show _ = _ ++ (Function.update state.senders sender pc other).pending
    rw [pending_update same other]
    exact routes.calls other
  early := by
    intro other item pending
    change item ∈ (Function.update state.senders sender pc other).pending at pending
    rw [pending_update same other] at pending
    exact routes.early other item pending
  behind := routes.behind

omit [DecidableEq Sender] in
/-- What holds of all actors holds when one of them has taken a step. -/
theorem forall_setActor (holds : Fin (n + 1) → Actor Sender (Sent Sender Task) → Prop)
    {idx : Fin (n + 1)} {actor : Actor Sender (Sent Sender Task)} (moved : holds idx actor)
    (stay : ∀ other, holds other (state.actors other)) (other : Fin (n + 1)) :
    holds other ((state.setActor idx actor).actors other) :=
  (Function.forall_update_iff state.actors holds).mpr ⟨moved, fun other _ => stay other⟩ other

/-- An actor takes a step that pushes nothing. -/
theorem Routes.setActor (routes : state.Routes) {idx : Fin (n + 1)}
    {label : WaitQueue.Label Unit Sender (Sent Sender Task)}
    {actor : Actor Sender (Sent Sender Task)} (quiet : label.pushes = [])
    (took : Actor.step (state.actors idx) label = some actor) : (state.setActor idx actor).Routes where
  sane := forall_setActor (fun _ => Actor.Sane) (Actor.sane_step (routes.sane idx) took) routes.sane
  pushed := by
    refine forall_setActor (fun other actor => actor.pushed = state.routedTo other) ?_ routes.pushed
    rw [pushed_step (Actor.step_eq took), quiet, List.append_nil]
    exact routes.pushed idx
  numbered := routes.numbered
  calls := routes.calls
  early := routes.early
  behind := routes.behind

theorem Routes.send (routes : state.Routes) {sender : Sender} (task : Task)
    (idle : state.senders sender = .idle) :
    Routes { state.goTo sender (.scanning (state.item sender task) 0 0 none none) with
      sent := state.sent ++ [state.item sender task] } where
  sane := routes.sane
  pushed := routes.pushed
  numbered := by
    show (state.sent ++ [state.item sender task]).map Sent.call =
      List.range (state.sent ++ [state.item sender task]).length
    rw [List.map_append, routes.numbered, List.length_append, List.length_singleton,
      List.range_succ]
    rfl
  calls := by
    intro other
    have before := routes.calls other
    show (state.sent ++ [state.item sender task]).filter _ = state.order.filter _ ++
      (Function.update state.senders sender (.scanning (state.item sender task) 0 0 none none)
        other).pending
    rw [List.filter_append, before]
    by_cases here : other = sender
    · subst here
      rw [idle, Function.update_self]
      simp [SendPc.pending, item]
    · rw [Function.update_of_ne here]
      simp [item, Ne.symm here]
  early := by
    intro other item pending
    change item ∈ (Function.update state.senders sender (.scanning (state.item sender task) 0 0
      none none) other).pending at pending
    by_cases here : other = sender
    · subst here
      rw [Function.update_self] at pending
      obtain rfl := List.mem_singleton.mp pending
      exact le_rfl
    · rw [Function.update_of_ne here] at pending
      exact routes.early other item pending
  behind := routes.behind

/-- The task is pushed. -/
theorem Routes.push (routes : state.Routes) {sender : Sender} {item : Sent Sender Task}
    {idx : Fin (n + 1)} {actor : Actor Sender (Sent Sender Task)}
    (pending : (state.senders sender).pending = [item])
    (took : Actor.step (state.actors idx) (.push sender item) = some actor) :
    Routes { (state.setActor idx actor).goTo sender (.notifying idx) with
      routed := state.routed ++ [(idx, item)] } := by
  have own : item.sender = sender := routes.sender_eq (by rw [pending]; exact List.mem_singleton_self _)
  have order : (state.routed ++ [(idx, item)]).map Prod.snd = state.order ++ [item] := by
    rw [List.map_append]
    rfl
  refine ⟨?_, ?_, routes.numbered, fun other => ?_, fun other later pendingToo => ?_,
    fun pos later found => ?_⟩
  · exact forall_setActor (fun _ => Actor.Sane) (Actor.sane_step (routes.sane idx) took) routes.sane
  · refine (Function.forall_update_iff state.actors fun other actor => actor.pushed =
      ((state.routed ++ [(idx, item)]).filter fun entry => entry.1 = other).map Prod.snd).mpr
        ⟨?_, fun other elsewhere => ?_⟩
    · rw [pushed_step (Actor.step_eq took), routes.pushed]
      simp [routedTo, WaitQueue.Label.pushes]
    · rw [routes.pushed]
      simp [routedTo, Ne.symm elsewhere]
  · show state.sent.filter _ = ((state.routed ++ [(idx, item)]).map Prod.snd).filter _ ++
      (Function.update state.senders sender (.notifying idx) other).pending
    rw [order, List.filter_append, routes.calls other]
    by_cases here : other = sender
    · subst here
      rw [pending, Function.update_self]
      simp [SendPc.pending, own]
    · rw [Function.update_of_ne here]
      simp [own, Ne.symm here]
  · change later ∈ (Function.update state.senders sender (.notifying idx) other).pending
      at pendingToo
    show later.behind ≤ (state.routed ++ [(idx, item)]).length
    rw [List.length_append]
    by_cases here : other = sender
    · subst here
      rw [Function.update_self] at pendingToo
      cases pendingToo
    · rw [Function.update_of_ne here] at pendingToo
      exact Nat.le_add_right_of_le (routes.early other later pendingToo)
  · change ((state.routed ++ [(idx, item)]).map Prod.snd)[pos]? = some later at found
    rw [order] at found
    by_cases inside : pos < state.order.length
    · rw [List.getElem?_append_left inside] at found
      exact routes.behind pos later found
    · -- the task pushed now, whose call saw no more tasks than there are
      rw [List.getElem?_append_right (by omega), List.getElem?_singleton] at found
      split at found
      next =>
        obtain rfl := Option.some.inj found
        have bound := routes.early sender item (by rw [pending]; exact List.mem_singleton_self _)
        have length : state.order.length = state.routed.length := List.length_map _
        omega
      next => cases found

/-- **Every step keeps the routing.** -/
theorem routes_step {label : Label n Sender Task} (routes : state.Routes)
    (took : state.step label = some next) : next.Routes := by
  cases step_acts took with
  | send sender task idle => exact routes.send task idle
  | scan sender pc same => exact routes.scan same
  | push sender item idx actor pending acted => exact routes.push pending acted
  | notify sender woken idx actor pushed acted =>
      have later : (state.setActor idx actor).Routes := routes.setActor rfl acted
      refine later.scan ?_
      show [] = (state.senders sender).pending
      rw [pushed]
      rfl
  | own idx does actor acted =>
      have quiet : (does.label : WaitQueue.Label Unit Sender (Sent Sender Task)).pushes = [] := by
        cases does <;> rfl
      exact routes.setActor quiet acted

/-! ### Each call once -/

omit [DecidableEq Sender] in
theorem mem_routedTo {idx : Fin (n + 1)} {item : Sent Sender Task} :
    item ∈ state.routedTo idx ↔ (idx, item) ∈ state.routed := by
  simp [routedTo]

/-- **An actor's history is what was routed to it**, in the order routed. -/
theorem Routes.history_eq (routes : state.Routes) (idx : Fin (n + 1)) :
    state.history idx = state.routedTo idx :=
  (Actor.Sane.dealt_in_order (routes.sane idx)).trans (routes.pushed idx)

theorem Routes.sent_nodup (routes : state.Routes) : state.sent.Nodup := by
  apply List.Nodup.of_map Sent.call
  rw [routes.numbered]
  exact List.nodup_range

/-- What repeats nothing of any one sender repeats nothing. -/
theorem nodup_of_senders {items : List (Sent Sender Task)}
    (apart : ∀ sender, (items.filter fun item => item.sender = sender).Nodup) : items.Nodup := by
  classical
  rw [List.nodup_iff_count_le_one]
  intro item
  have once := List.nodup_iff_count_le_one.mp (apart item.sender) item
  rwa [List.count_filter (by simp)] at once

/-- The pushed calls of a sender, and the one it has not pushed, are different calls. -/
theorem Routes.calls_nodup (routes : state.Routes) (sender : Sender) :
    (state.order.filter (fun item => item.sender = sender) ++
      (state.senders sender).pending).Nodup := by
  rw [← routes.calls sender]
  exact routes.sent_nodup.filter _

theorem Routes.order_nodup (routes : state.Routes) : state.order.Nodup :=
  nodup_of_senders fun sender => (routes.calls_nodup sender).of_append_left

/-- A call that has been pushed was pushed to one actor. -/
theorem Routes.one_actor (routes : state.Routes) {idx other : Fin (n + 1)} {item : Sent Sender Task}
    (routed : item ∈ state.routedTo idx) (routedToo : item ∈ state.routedTo other) : other = idx := by
  have same : (other, item) = (idx, item) :=
    List.inj_on_of_nodup_map routes.order_nodup (mem_routedTo.mp routedToo) (mem_routedTo.mp routed)
      rfl
  exact congrArg Prod.fst same

omit [DecidableEq Sender] in
theorem mem_order {item : Sent Sender Task} :
    item ∈ state.order ↔ ∃ idx, item ∈ state.routedTo idx := by
  simp only [mem_routedTo, order, List.mem_map, Prod.exists, exists_eq_right]

/-- A call is still to be pushed, or has been routed. -/
theorem Routes.mem_sent (routes : state.Routes) (item : Sent Sender Task) :
    item ∈ state.sent ↔ item ∈ (state.senders item.sender).pending ∨ item ∈ state.order := by
  have split : item ∈ state.sent.filter (fun other => other.sender = item.sender) ↔
      item ∈ state.order.filter (fun other => other.sender = item.sender) ++
        (state.senders item.sender).pending := by
    rw [routes.calls item.sender]
  simpa [or_comm] using split

/-- A call that has been routed is not still to be pushed. -/
theorem Routes.not_pending (routes : state.Routes) {sender : Sender} {item : Sent Sender Task}
    (routed : item ∈ state.order) : item ∉ (state.senders sender).pending := by
  intro pending
  have own := routes.sender_eq pending
  have apart := List.disjoint_of_nodup_append (routes.calls_nodup sender)
  exact apart (List.mem_filter.mpr ⟨routed, by simpa using own⟩) pending

/-- **No task is lost or doubled**: an actor's history is what was routed to it, in the order of the
sends, which is the order of the pushes, in which the calls of one thread stand as called, and none
stands before what had been pushed when it was called; every task sent is still to be pushed or in
the history of one actor, where it stands once; and no session comes to take the front of an empty
queue. -/
structure Conserved (state : Mgr n Sender Task) : Prop where
  inOrder : ∀ idx, state.history idx = state.routedTo idx
  calls : ∀ sender, state.sent.filter (fun item => item.sender = sender) =
    state.order.filter (fun item => item.sender = sender) ++ (state.senders sender).pending
  behind : ∀ (pos : ℕ) (item : Sent Sender Task), state.order[pos]? = some item → item.behind ≤ pos
  numbered : state.sent.map Sent.call = List.range state.sent.length
  arrives : ∀ item, item ∈ state.sent ↔
    item ∈ (state.senders item.sender).pending ∨ ∃ idx, item ∈ state.history idx
  alone : ∀ idx item, item ∈ state.history idx →
    (∀ other, item ∈ state.history other → other = idx) ∧
      ∀ sender, item ∉ (state.senders sender).pending
  once : ∀ idx, (state.history idx).Nodup
  front : ∀ idx, (state.actors idx).session = .taking → (state.actors idx).queue ≠ []

theorem Routes.conserved (routes : state.Routes) : state.Conserved where
  inOrder := routes.history_eq
  calls := routes.calls
  behind := routes.behind
  numbered := routes.numbered
  arrives := by
    intro item
    simp only [routes.history_eq, ← mem_order]
    exact routes.mem_sent item
  alone := by
    intro idx item member
    rw [routes.history_eq] at member
    constructor
    · intro other memberToo
      rw [routes.history_eq] at memberToo
      exact routes.one_actor member memberToo
    · exact fun sender => routes.not_pending (mem_order.mpr ⟨idx, member⟩)
  once := by
    intro idx
    rw [routes.history_eq]
    exact routes.order_nodup.sublist (List.filter_sublist.map Prod.snd)
  front := fun idx => (routes.sane idx).sound.front ()

/-- **The actors conserve what is sent to them.** In every state of every run of any number of
threads in `send` and of the sessions and stops of any positive number of actors. -/
theorem sends_conserved (labels : List (Label n Sender Task)) :
    Always step Conserved create labels := by
  have routes : Always step Routes create labels :=
    always_of_step (fun _ _ _ routes took => routes_step routes took) routes_create labels
  exact routes.mono fun _ routes => routes.conserved

/-- Of two actors, the second call of `send` finds the first one with a task queued. -/
example : (exec step (create : Mgr 1 Unit ℕ)
    [.send () 7, .load () .left, .load () .right, .test (), .load () .left, .load () .right, .test (),
      .push (), .notify () none, .send () 8, .load () .right, .load () .left, .test (),
      .load () .left, .load () .right, .test (), .push (), .notify () none]).map
      (fun state => ((state.history 0).map Sent.task, (state.history 1).map Sent.task)) =
    some ([7], [8]) := by
  decide

end Step

end Mgr

end IkunSvr
