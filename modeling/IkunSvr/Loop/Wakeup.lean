/-
**Tasks and the stop signal of an event loop.**

`WakeLoop` is an `eventloop` with its `_tasks`, its eventfd and `_shut_down`; any number of threads
call `add` and `shut_down`, each of which is two steps, what it stores and then `weakup`; the loop's
thread is in `run`. `add` has the mutex for one step, `handle_weakup` from its lock until the tasks
are run. epoll reports the eventfd by its mask as registered, for which see `makeWeakChnl_registered`.

* `Acts`, `Turn` — what a step does;
* `tasks_conserved` — **no task is lost, duplicated or reordered, and none waits without a wake-up on
  its way**;
* `shut_down_heard` — **`shut_down` is never missed, and at most one batch is fetched after it**.
-/

import IkunSvr.Lib.Run
import IkunSvr.Net.Dispatch

namespace IkunSvr

open Run

/-! ### The eventfd and its channel -/

/-- `MAX_EVS`. -/
def maxEvs : ℕ := 128

/-- The largest count of an eventfd. -/
def eventfdMax : ℕ := 2 ^ 64 - 2

/-- The count after `::write` of 1; a write beyond the largest count is refused. -/
def eventfdWrite (count : ℕ) : ℕ :=
  if count < eventfdMax then count + 1 else count

theorem eventfdWrite_pos (count : ℕ) : 0 < eventfdWrite count := by
  unfold eventfdWrite eventfdMax
  split <;> omega

/-- `_weak_chnl` in the constructor of `eventloop`: `enable_read`, and then `use_et`. -/
def makeWeakChnl (fd : Nat) (interest : InterestList) : Except Stop Watch := do
  let weak ← Watch.enableRead { chnl := { fd := fd }, interest := interest }
  return weak.useEt

/-- **The eventfd is registered level-triggered**: `use_et` comes behind the registration. -/
theorem makeWeakChnl_registered {fd : Nat} {interest : InterestList} (absent : interest fd = none) :
    ∃ weak, makeWeakChnl fd interest = .ok weak ∧ weak.registered = some epollIn ∧
      weak.chnl.evs = epollIn ||| epollEt := by
  have synced : Watch.Synced { chnl := { fd := fd }, interest := interest } := by
    unfold Watch.Synced Watch.registered
    simp [absent]
  unfold makeWeakChnl Watch.enableRead
  simp only [bind, Except.bind]
  rw [Watch.update_synced (Watch.setEvs_synced.mpr synced)]
  exact ⟨_, rfl, Watch.enlisted_registered (Watch.setEvs _ (0 ||| epollIn)), rfl⟩

namespace WakeLoop

/-- A channel of the loop. -/
inductive Chnl
  | weak
  | other (fd : Nat)
  deriving DecidableEq, Repr

/-- Where a thread is that calls `add` or `shut_down`. -/
inductive CallPc
  | idle
  /-- in `add`, behind the push and before `weakup` -/
  | added
  /-- in `shut_down`, behind the store and before `weakup` -/
  | stored
  deriving DecidableEq, Repr

/-- Where the loop's thread is. From `dispatching` on it comes with the channels of the batch it has
yet to handle. -/
inductive RunPc
  /-- before the test of `_shut_down` -/
  | top
  /-- in `epoll_wait`, or about to enter it -/
  | waiting
  | dispatching (chnls : List (Chnl × Mask))
  /-- in `handle_weakup`, before `::read` -/
  | reading (chnls : List (Chnl × Mask))
  /-- in `handle_weakup`, before the lock -/
  | locking (chnls : List (Chnl × Mask))
  /-- in `handle_weakup`, with the mutex -/
  | draining (chnls : List (Chnl × Mask))
  | returned
  deriving DecidableEq, Repr

namespace RunPc

/-- The loop's thread has the mutex. -/
def locked : RunPc → Bool
  | .draining _ => true
  | _ => false

/-- `handle_weakup` has read the count and not yet drained. -/
def drains : RunPc → Bool
  | .locking _ | .draining _ => true
  | _ => false

end RunPc

end WakeLoop

/-- An event loop, the threads that call it, and the history of the tasks. -/
structure WakeLoop (Client Task : Type*) where
  callers : Client → WakeLoop.CallPc
  loop : WakeLoop.RunPc := .top
  tasks : List Task := []
  shutDown : Bool := false
  /-- the count of the eventfd -/
  counter : ℕ := 0
  /-- the mask the eventfd is registered with -/
  registered : Mask := epollIn
  /-- the eventfd has been written since epoll last reported it -/
  edge : Bool := false
  /-- in the order of the pushes -/
  pushed : List Task := []
  /-- in the order in which they ran -/
  executed : List Task := []
  /-- some call of `shut_down` has returned -/
  ended : Bool := false

namespace WakeLoop

/-- A step of some thread. -/
inductive Label (Client Task : Type*)
  /-- the push of `add` -/
  | add (client : Client) (task : Task)
  /-- the store of `shut_down` -/
  | shutDown (client : Client)
  | weakup (client : Client)
  /-- `epoll_wait` returns these events -/
  | fetch (reported : List (Chnl × Mask))
  /-- the next step of the loop's thread -/
  | run

/-- The task the step adds, if it is an `add`. -/
def Label.adds {Client Task : Type*} : Label Client Task → List Task
  | .add _ task => [task]
  | .shutDown _ | .weakup _ | .fetch _ | .run => []

variable {Client Task : Type*}

/-- The loop as constructed. -/
def create : WakeLoop Client Task where
  callers := fun _ => .idle

/-- epoll has the eventfd to report. -/
def Readable (state : WakeLoop Client Task) : Prop :=
  Has state.registered epollIn ∧ 0 < state.counter ∧
    (Has state.registered epollEt → state.edge = true)

instance (state : WakeLoop Client Task) : Decidable state.Readable :=
  inferInstanceAs (Decidable (_ ∧ _ ∧ _))

/-- What `epoll_wait` without a timeout returns: some events, each of another channel, and the
eventfd's when it is readable and there is room. -/
def Returns (state : WakeLoop Client Task) (reported : List (Chnl × Mask)) : Prop :=
  reported ≠ [] ∧ reported.length ≤ maxEvs ∧ (reported.map Prod.fst).Nodup ∧
    (∀ ev ∈ reported, ev.1 = .weak → ev.2 = epollIn ∧ state.Readable) ∧
    (state.Readable → reported.length < maxEvs → Chnl.weak ∈ reported.map Prod.fst)

instance (state : WakeLoop Client Task) (reported : List (Chnl × Mask)) :
    Decidable (state.Returns reported) :=
  inferInstanceAs (Decidable (_ ∧ _ ∧ _ ∧ _ ∧ _))

/-- The task that the next step of the loop's thread runs, if it is one. -/
def drained (state : WakeLoop Client Task) : List Task :=
  match state.loop, state.tasks with
  | .draining _, task :: _ => [task]
  | _, _ => []

/-- The next step of the loop's thread, except for `epoll_wait`. -/
def run (state : WakeLoop Client Task) : Option (WakeLoop Client Task) :=
  match state.loop with
  | .top => some { state with loop := if state.shutDown then .returned else .waiting }
  | .waiting => none
  | .dispatching [] => some { state with loop := .top }
  | .dispatching ((chnl, revs) :: rest) =>
      -- `_weak_chnl` has a read callback only; what the other channels call is not part of the loop
      some { state with
        loop := if chnl = .weak ∧ handleEvent revs = .read then .reading rest
          else .dispatching rest }
  | .reading rest => some { state with loop := .locking rest, counter := 0 }
  | .locking rest => some { state with loop := .draining rest }
  | .draining rest =>
      match state.tasks with
      | [] => some { state with loop := .dispatching rest }
      | task :: tasks => some { state with tasks := tasks, executed := state.executed ++ [task] }
  | .returned => none

section Step

variable [DecidableEq Client]

/-- `weakup`, at the end of `add` or `shut_down`. -/
def ring (state : WakeLoop Client Task) (client : Client) : WakeLoop Client Task :=
  { state with
    callers := Function.update state.callers client .idle
    counter := eventfdWrite state.counter
    edge := true
    ended := state.ended || state.callers client == .stored }

/-- A step. -/
def step (state : WakeLoop Client Task) : Label Client Task → Option (WakeLoop Client Task)
  | .add client task =>
      if state.callers client = .idle ∧ state.loop.locked = false then
        some { state with
          callers := Function.update state.callers client .added
          tasks := state.tasks ++ [task]
          pushed := state.pushed ++ [task] }
      else none
  | .shutDown client =>
      if state.callers client = .idle then
        some { state with
          callers := Function.update state.callers client .stored
          shutDown := true }
      else none
  | .weakup client => if state.callers client = .idle then none else some (state.ring client)
  | .fetch reported =>
      if state.loop = .waiting ∧ state.Returns reported then
        some { state with
          loop := .dispatching (Poller.loop reported)
          edge := state.edge && Chnl.weak ∉ reported.map Prod.fst }
      else none
  | .run => state.run

/-! ### What a step does -/

/-- A turn of the loop's thread that leaves the eventfd and the tasks alone. -/
inductive Turn (shutDown : Bool) (empty : Prop) : RunPc → RunPc → Prop
  | stop (stopped : shutDown = true) : Turn shutDown empty .top .returned
  | wait (runs : shutDown = false) : Turn shutDown empty .top .waiting
  | again : Turn shutDown empty (.dispatching []) .top
  | weak (revs : Mask) (rest : List (Chnl × Mask)) (reads : handleEvent revs = .read) :
      Turn shutDown empty (.dispatching ((.weak, revs) :: rest)) (.reading rest)
  | skip (ev : Chnl × Mask) (rest : List (Chnl × Mask)) :
      Turn shutDown empty (.dispatching (ev :: rest)) (.dispatching rest)
  | lock (rest : List (Chnl × Mask)) : Turn shutDown empty (.locking rest) (.draining rest)
  | unlock (rest : List (Chnl × Mask)) (drained : empty) :
      Turn shutDown empty (.draining rest) (.dispatching rest)

/-- What a step does. -/
inductive Acts (state : WakeLoop Client Task) : WakeLoop Client Task → Prop
  | add (client : Client) (task : Task) (idle : state.callers client = .idle)
      (free : state.loop.locked = false) :
      Acts state { state with
        callers := Function.update state.callers client .added
        tasks := state.tasks ++ [task]
        pushed := state.pushed ++ [task] }
  | store (client : Client) (idle : state.callers client = .idle) :
      Acts state { state with
        callers := Function.update state.callers client .stored
        shutDown := true }
  | ring (client : Client) (called : state.callers client ≠ .idle) : Acts state (state.ring client)
  | fetch (reported : List (Chnl × Mask)) (edge : Bool) (waiting : state.loop = .waiting)
      (returns : state.Returns reported) :
      Acts state { state with loop := .dispatching (Poller.loop reported), edge := edge }
  | turn (pc : RunPc) (turns : Turn state.shutDown (state.tasks = []) state.loop pc) :
      Acts state { state with loop := pc }
  | read (rest : List (Chnl × Mask)) (reading : state.loop = .reading rest) :
      Acts state { state with loop := .locking rest, counter := 0 }
  | drain (rest : List (Chnl × Mask)) (task : Task) (tasks : List Task)
      (draining : state.loop = .draining rest) (front : state.tasks = task :: tasks) :
      Acts state { state with tasks := tasks, executed := state.executed ++ [task] }

variable {state next : WakeLoop Client Task}

theorem run_acts (took : state.run = some next) : Acts state next := by
  unfold run at took
  split at took
  next top =>
    cases took
    refine .turn _ ?_
    rw [top]
    split
    next stopped => exact .stop stopped
    next runs => exact .wait (Bool.eq_false_of_not_eq_true runs)
  next => cases took
  next last =>
    cases took
    refine .turn _ ?_
    rw [last]
    exact .again
  next chnl revs rest here =>
    cases took
    refine .turn _ ?_
    rw [here]
    split
    next weak =>
      obtain ⟨rfl, reads⟩ := weak
      exact .weak revs rest reads
    next => exact .skip _ rest
  next rest reading =>
    cases took
    exact .read rest reading
  next rest locking =>
    cases took
    refine .turn _ ?_
    rw [locking]
    exact .lock rest
  next rest draining =>
    split at took
    next drained =>
      cases took
      refine .turn _ ?_
      rw [draining]
      exact .unlock rest drained
    next task tasks front =>
      cases took
      exact .drain rest task tasks draining front
  next => cases took

/-- **What a step of the system does.** -/
theorem step_acts {label : Label Client Task} (took : state.step label = some next) :
    Acts state next := by
  cases label with
  | add client task =>
      simp only [step] at took
      split at took
      next free =>
        cases took
        exact .add client task free.1 free.2
      next => cases took
  | shutDown client =>
      simp only [step] at took
      split at took
      next idle =>
        cases took
        exact .store client idle
      next => cases took
  | weakup client =>
      simp only [step] at took
      split at took
      next => cases took
      next called =>
        cases took
        exact .ring client called
  | fetch reported =>
      simp only [step] at took
      split at took
      next returns =>
        cases took
        exact .fetch reported _ returns.1 returns.2
      next => cases took
  | run => exact run_acts took

/-! ### The tasks -/

omit [DecidableEq Client] in
/-- A step of the loop's thread runs the front of the queue, or leaves the queue alone. -/
theorem run_tasks (took : state.run = some next) : state.tasks = state.drained ++ next.tasks := by
  unfold run at took
  split at took
  case h_7 draining =>
    split at took
    next drained =>
      cases took
      simp [WakeLoop.drained, drained]
    next task tasks front =>
      cases took
      simp [WakeLoop.drained, draining, front]
  all_goals
    cases took <;> simp [WakeLoop.drained, *]

/-- Anyone else's step adds what it adds. -/
theorem tasks_step {label : Label Client Task} (took : state.step label = some next)
    (others : label ≠ .run) : next.tasks = state.tasks ++ label.adds := by
  cases label with
  | add client task =>
      simp only [step] at took
      split at took <;> cases took
      rfl
  | shutDown | weakup | fetch =>
      rw [Label.adds, List.append_nil]
      simp only [step] at took
      split at took <;> cases took
      rfl
  | run => exact absurd rfl others

/-- **No task is lost**: those that ran, in order, and then the queue are those pushed, in order; and
while the queue is not empty some `add` has still to write the eventfd, or its count is positive, or
`handle_weakup` has read it and not yet drained. -/
structure Conserves (state : WakeLoop Client Task) : Prop where
  fifo : state.executed ++ state.tasks = state.pushed
  signalled : state.tasks ≠ [] →
    (∃ client, state.callers client = .added) ∨ 0 < state.counter ∨ state.loop.drains = true

omit [DecidableEq Client] in
theorem conserves_create : (create : WakeLoop Client Task).Conserves :=
  ⟨rfl, fun waits => absurd rfl waits⟩

omit [DecidableEq Client] in
/-- `handle_weakup` stays until the queue is empty. -/
theorem Turn.drains {shutDown : Bool} {empty : Prop} {here pc : RunPc}
    (turns : Turn shutDown empty here pc) (waits : ¬ empty) (drains : here.drains = true) :
    pc.drains = true := by
  cases turns with
  | unlock rest drained => exact absurd drained waits
  | lock rest => rfl
  | _ => cases drains

/-- Who is in a call stays there when an idle thread begins one. -/
theorem still_calling {callers : Client → CallPc} {client : Client} {begun stood : CallPc}
    (idle : callers client = .idle) (calling : stood ≠ .idle)
    (stands : ∃ other, callers other = stood) :
    ∃ other, Function.update callers client begun other = stood := by
  obtain ⟨other, stands⟩ := stands
  refine ⟨other, ?_⟩
  rw [Function.update_of_ne ?_, stands]
  rintro rfl
  exact calling (stands.symm.trans idle)

/-- **Every step conserves the tasks.** -/
theorem conserves_step {label : Label Client Task} (conserves : state.Conserves)
    (took : state.step label = some next) : next.Conserves := by
  obtain ⟨fifo, signalled⟩ := conserves
  cases step_acts took with
  | add client task idle free =>
      refine ⟨?_, fun _ => .inl ⟨client, Function.update_self ..⟩⟩
      show state.executed ++ (state.tasks ++ [task]) = state.pushed ++ [task]
      rw [← List.append_assoc, fifo]
  | store client idle =>
      refine ⟨fifo, fun waits => ?_⟩
      exact (signalled waits).imp (still_calling idle nofun) id
  | ring client called => exact ⟨fifo, fun _ => .inr (.inl (eventfdWrite_pos _))⟩
  | fetch reported edge waiting returns =>
      refine ⟨fifo, fun waits => ?_⟩
      rcases signalled waits with added | positive | drains
      · exact .inl added
      · exact .inr (.inl positive)
      · rw [waiting] at drains
        cases drains
  | turn pc turns =>
      refine ⟨fifo, fun waits => ?_⟩
      rcases signalled waits with added | positive | drains
      · exact .inl added
      · exact .inr (.inl positive)
      · exact .inr (.inr (turns.drains waits drains))
  | read rest reading => exact ⟨fifo, fun _ => .inr (.inr rfl)⟩
  | drain rest task tasks draining front =>
      refine ⟨?_, fun _ => .inr (.inr (by rw [draining]; rfl))⟩
      show (state.executed ++ [task]) ++ tasks = state.pushed
      rw [← fifo, front, List.append_assoc]
      rfl

/-- **No task is lost, duplicated or reordered.** In every state of every run of any number of
threads that call `add` and `shut_down` and of the loop's thread. -/
theorem tasks_conserved (labels : List (Label Client Task)) :
    Always step Conserves create labels :=
  always_of_step (fun _ _ _ conserves took => conserves_step conserves took) conserves_create labels

/-! ### The stop signal -/

/-- With `_shut_down` set, the loop's thread does not sleep without a write to the eventfd to come or
to be read; once a call of `shut_down` has returned, the write is there to be read. -/
structure Heeds (state : WakeLoop Client Task) : Prop where
  registered : state.registered = epollIn
  stored : ∀ client, state.callers client = .stored → state.shutDown = true
  flag : state.ended = true → state.shutDown = true
  coming : state.shutDown = true → state.loop = .waiting →
    (∃ client, state.callers client = .stored) ∨ 0 < state.counter
  come : state.ended = true → state.loop = .waiting → 0 < state.counter

omit [DecidableEq Client] in
theorem heeds_create : (create : WakeLoop Client Task).Heeds :=
  ⟨rfl, nofun, nofun, nofun, nofun⟩

omit [DecidableEq Client] in
/-- The loop's thread comes to `epoll_wait` only where it has found `_shut_down` clear. -/
theorem Turn.waits {shutDown : Bool} {empty : Prop} {here : RunPc}
    (turns : Turn shutDown empty here .waiting) : shutDown = false := by
  cases turns with
  | wait runs => exact runs

/-- A caller that stands elsewhere after another one's step stood there before. -/
theorem caller_of_update {callers : Client → CallPc} {client other : Client} {pc : CallPc}
    (stands : Function.update callers client pc other = .stored) (moved : pc ≠ .stored) :
    callers other = .stored := by
  by_cases here : other = client
  · subst here
    rw [Function.update_self] at stands
    exact absurd stands moved
  · rwa [Function.update_of_ne here] at stands

/-- **Every step heeds the stop signal.** -/
theorem heeds_step {label : Label Client Task} (heeds : state.Heeds)
    (took : state.step label = some next) : next.Heeds := by
  obtain ⟨registered, stored, flag, coming, come⟩ := heeds
  cases step_acts took with
  | add client task idle free =>
      refine ⟨registered, fun other stands => stored other (caller_of_update stands nofun), flag,
        fun stopped waiting => ?_, come⟩
      exact (coming stopped waiting).imp (still_calling idle nofun) id
  | store client idle =>
      exact ⟨registered, fun _ _ => rfl, fun _ => rfl,
        fun _ _ => .inl ⟨client, Function.update_self ..⟩, come⟩
  | ring client called =>
      refine ⟨registered, fun other stands => stored other (caller_of_update stands nofun),
        fun ended => ?_, fun _ _ => .inr (eventfdWrite_pos _), fun _ _ => eventfdWrite_pos _⟩
      show state.shutDown = true
      change (state.ended || state.callers client == .stored) = true at ended
      rw [Bool.or_eq_true, beq_iff_eq] at ended
      rcases ended with before | now
      · exact flag before
      · exact stored client now
  | fetch reported edge waiting returns => exact ⟨registered, stored, flag, nofun, nofun⟩
  | turn pc turns =>
      have clear : pc = .waiting → state.shutDown = false := by
        rintro rfl
        exact turns.waits
      refine ⟨registered, stored, flag, fun stopped waiting => ?_, fun ended waiting => ?_⟩
      · rw [clear waiting] at stopped
        cases stopped
      · have stopped := flag ended
        rw [clear waiting] at stopped
        cases stopped
  | read rest reading => exact ⟨registered, stored, flag, nofun, nofun⟩
  | drain rest task tasks draining front => exact ⟨registered, stored, flag, coming, come⟩

/-- `epoll_wait` can return. -/
def Wakes (state : WakeLoop Client Task) : Prop :=
  ∃ reported next, state.step (.fetch reported) = some next

/-- **A positive count wakes the loop's thread**: the eventfd is registered level-triggered, so
whatever it was reported for before, it is reported again. -/
theorem Heeds.wakes (heeds : state.Heeds) (waiting : state.loop = .waiting)
    (positive : 0 < state.counter) : state.Wakes := by
  have readable : state.Readable := by
    unfold Readable
    rw [heeds.registered]
    exact ⟨by decide, positive, fun edge => absurd edge (by decide)⟩
  have returns : state.Returns [(.weak, epollIn)] := by
    refine ⟨by simp, by simp [maxEvs], by simp, fun ev member _ => ?_, by simp⟩
    rw [List.mem_singleton] at member
    subst member
    exact ⟨rfl, readable⟩
  exact ⟨[(.weak, epollIn)], _, if_pos ⟨waiting, returns⟩⟩

/-- **The stop signal arrives**: where the loop's thread is in `epoll_wait` or about to
enter it, and `_shut_down` is set, the write of a `shut_down` is still to come, or the count is
positive and `epoll_wait` returns; the latter, if some `shut_down` has returned. -/
structure Heard (state : WakeLoop Client Task) : Prop where
  coming : state.shutDown = true → state.loop = .waiting →
    (∃ client, state.callers client = .stored) ∨ 0 < state.counter ∧ state.Wakes
  come : state.ended = true → state.loop = .waiting → 0 < state.counter ∧ state.Wakes

theorem Heeds.heard (heeds : state.Heeds) : state.Heard where
  coming := by
    intro stopped waiting
    rcases heeds.coming stopped waiting with stored | positive
    · exact .inl stored
    · exact .inr ⟨positive, heeds.wakes waiting positive⟩
  come := by
    intro ended waiting
    have positive := heeds.come ended waiting
    exact ⟨positive, heeds.wakes waiting positive⟩

/-! ### Batches behind the stop signal -/

/-- The step fetches a batch. -/
def Label.fetches : Label Client Task → Bool
  | .fetch _ => true
  | _ => false

omit [DecidableEq Client] in
/-- How many batches can be fetched once `_shut_down` is set. -/
def mayFetch (state : WakeLoop Client Task) : ℕ :=
  if state.loop = .waiting then 1 else 0

omit [DecidableEq Client] in
theorem mayFetch_le (waits : next.loop = .waiting → state.loop = .waiting) :
    next.mayFetch ≤ state.mayFetch := by
  unfold mayFetch
  split
  · rename_i waiting
    rw [if_pos (waits waiting)]
  · exact Nat.zero_le _

theorem fetch_eq {reported : List (Chnl × Mask)} (took : state.step (.fetch reported) = some next) :
    state.loop = .waiting ∧ next.loop ≠ .waiting ∧ next.shutDown = state.shutDown := by
  simp only [step] at took
  split at took
  next returns =>
    cases took
    exact ⟨returns.1, nofun, rfl⟩
  next => cases took

/-- **Behind the stop signal** a step uses up what it fetches. -/
theorem mayFetch_step {label : Label Client Task} (stopped : state.shutDown = true)
    (took : state.step label = some next) :
    next.shutDown = true ∧ next.mayFetch + (if label.fetches then 1 else 0) ≤ state.mayFetch := by
  by_cases fetching : label.fetches = true
  · obtain ⟨reported, rfl⟩ : ∃ reported, label = .fetch reported := by
      cases label with
      | fetch reported => exact ⟨reported, rfl⟩
      | _ => cases fetching
    obtain ⟨waiting, elsewhere, same⟩ := fetch_eq took
    refine ⟨same.trans stopped, ?_⟩
    simp [mayFetch, waiting, elsewhere, fetching]
  · rw [if_neg fetching, Nat.add_zero]
    cases step_acts took with
    | add | ring | drain => exact ⟨stopped, le_rfl⟩
    | store client idle => exact ⟨rfl, le_rfl⟩
    | fetch reported edge waiting returns => exact ⟨stopped, mayFetch_le nofun⟩
    | read rest reading => exact ⟨stopped, mayFetch_le nofun⟩
    | turn pc turns =>
        refine ⟨stopped, mayFetch_le fun waiting => ?_⟩
        change pc = .waiting at waiting
        subst waiting
        rw [turns.waits] at stopped
        cases stopped

/-- **Behind the stop signal, a run fetches what may be fetched at most.** -/
theorem fetches_le {final : WakeLoop Client Task} {labels : List (Label Client Task)}
    (stopped : state.shutDown = true) (ran : exec step state labels = some final) :
    labels.countP Label.fetches ≤ state.mayFetch := by
  induction labels generalizing state with
  | nil => exact Nat.zero_le _
  | cons label labels ih =>
      rw [exec, Option.bind_eq_some_iff] at ran
      obtain ⟨next, took, rest⟩ := ran
      obtain ⟨still, used⟩ := mayFetch_step stopped took
      have later := ih still rest
      rw [List.countP_cons]
      omega

/-- **`shut_down` is never missed.** In every state of every run of any number of threads that call
`add` and `shut_down` and of the loop's thread; and from a reachable state with `_shut_down` set on,
at most one batch is fetched. -/
theorem shut_down_heard :
    (∀ labels : List (Label Client Task), Always step Heard create labels) ∧
    (∀ state : WakeLoop Client Task, Reachable step create state → state.shutDown = true →
      ∀ labels final, exec step state labels = some final →
        labels.countP Label.fetches ≤ 1) := by
  constructor
  · intro labels
    have heeds : Always step Heeds create labels :=
      always_of_step (fun _ _ _ heeds took => heeds_step heeds took) heeds_create labels
    exact heeds.mono fun _ heeds => heeds.heard
  · intro state _ stopped labels final ran
    have few : state.mayFetch ≤ 1 := by
      unfold mayFetch
      split <;> omega
    exact (fetches_le stopped ran).trans few

/-- A task is added and read, `shut_down` stores the flag while the loop's thread is in
`epoll_wait`, and the batch that its write wakes is the last one. -/
theorem shut_down_heard_once :
    ∃ state : WakeLoop (Fin 2) ℕ, Reachable step create state ∧ state.shutDown = true ∧
      state.executed = [7] ∧ ∀ labels final, exec step state labels = some final →
        labels.countP Label.fetches ≤ 1 := by
  have run : (exec step (create : WakeLoop (Fin 2) ℕ)
      [.run, .add 0 7, .weakup 0, .fetch [(.weak, epollIn)], .run, .run, .run, .run, .run, .run,
        .run, .shutDown 1]).map (fun state => (state.shutDown, state.executed, state.loop)) =
      some (true, [7], .waiting) := by
    decide
  obtain ⟨state, ran, facts⟩ := Option.map_eq_some_iff.mp run
  obtain ⟨stopped, rest⟩ := Prod.mk.inj facts
  obtain ⟨executed, -⟩ := Prod.mk.inj rest
  exact ⟨state, ⟨_, ran⟩, stopped, executed, shut_down_heard.2 state ⟨_, ran⟩ stopped⟩

end Step

end WakeLoop

end IkunSvr
