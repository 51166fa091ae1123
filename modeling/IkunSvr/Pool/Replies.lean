/-
**The replies of an `echosvr` on one connection.**

`handle_msg` answers a request at once if there are no workers, else it adds `on_msg` to the pool.
There `on_msg` passes its reply to `connect::send`, which adds `send_in_loop` to the connection's
loop, and that appends it to `_output_buf`. `Echosvr` is the pool, the loop and one connection, whose
requests are numbered as received; other threads use the pool and the loop too. A reply is taken to
reach `send_in_loop` intact: the copy of 30 bytes that `send` makes is left out.

* `Flows` — every request is queued, in the hands of one worker, or handed over;
* `hands_in_order_iff` — the replies are handed over in order exactly when each worker hands over its
  own only while nobody else has an earlier request;
* `replies_keep_order` — **then, and with one worker at most, they are appended in order**;
* `reply_overtakes` — two workers, and the second is faster.
-/

import IkunSvr.Pool.Threadpool
import IkunSvr.Loop.Wakeup
import Mathlib.Data.List.ReduceOption

namespace IkunSvr

open Run WaitQueue WaitQueue.State

namespace Echosvr

/-- How far a worker is with `send` for the request it has in hand. -/
inductive AnswerPc
  | unanswered
  /-- in `eventloop::add`, behind the push and before `weakup` -/
  | added
  | answered
  deriving DecidableEq, Repr

end Echosvr

/-- An `echosvr` with `count` workers, one connection with its loop, and the history of its requests.
A task of the pool or of the loop is that of a request, or none of the connection's. -/
structure Echosvr (count : ℕ) (Other : Type*) where
  fd : ℕ
  /-- its clients are the connection's loop, and others -/
  pool : Threadpool count (Option Other) (Option ℕ) := Threadpool.create
  /-- its clients are the workers, and others -/
  loop : WakeLoop (Fin count ⊕ Other) (Option ℕ) := WakeLoop.create
  answering : Fin count → Echosvr.AnswerPc := fun _ => .unanswered
  /-- how many requests there were so far -/
  received : ℕ := 0
  /-- the replies passed to `send`, in the order in which they came to be appended or added -/
  handed : List ℕ := []
  /-- the replies appended to `_output_buf` -/
  output : List ℕ := []

namespace Echosvr

/-- What others do with the pool, and what no thread does. -/
inductive PoolCall (count : ℕ) (Other : Type*)
  | add (other : Other)
  /-- also the loop's own call -/
  | notifyOne (client : Option Other) (woken : Option (Fin count))
  | shutDown
  | spurious (worker : Fin count)

/-- What others do with the loop, and what `epoll_wait` returns. -/
inductive LoopCall (Other : Type*)
  | add (other : Other)
  | shutDown (other : Other)
  | weakup (other : Other)
  | fetch (reported : List (WakeLoop.Chnl × Mask))

/-- A step of some thread. -/
inductive Label (count : ℕ) (Other : Type*)
  /-- `_msg_cb` of the connection, on the loop's thread -/
  | receive
  | work (worker : Fin count)
  /-- the next step of the loop's thread in `run` -/
  | run
  | pool (does : PoolCall count Other)
  | loop (does : LoopCall Other)

variable {count : ℕ} {Other : Type*}

/-- The call as a step of the pool. -/
def PoolCall.label : PoolCall count Other →
    WaitQueue.Label (Fin count) (Option Other) (Option ℕ)
  | .add other => .push (some other) none
  | .notifyOne client woken => .notifyOne client woken
  | .shutDown => .shutDown
  | .spurious worker => .spurious worker

/-- The call as a step of the loop. -/
def LoopCall.label : LoopCall Other → WakeLoop.Label (Fin count ⊕ Other) (Option ℕ)
  | .add other => .add (.inr other) none
  | .shutDown other => .shutDown (.inr other)
  | .weakup other => .weakup (.inr other)
  | .fetch reported => .fetch reported

/-- No thread has taken a step. -/
def create (fd : ℕ) : Echosvr count Other where
  fd := fd

section Step

variable [DecidableEq Other]

/-- `handle_msg` for the next request. -/
def handleMsg (state : Echosvr count Other) : Option (Echosvr count Other) :=
  if count = 0 then
    -- `on_msg` at once: `send` is on the loop's thread, and calls `send_in_loop`
    some { state with
      received := state.received + 1
      handed := state.handed ++ [state.received]
      output := state.output ++ [state.received] }
  else
    (Threadpool.step state.pool (.push none (some state.received))).map fun pool =>
      { state with pool := pool, received := state.received + 1 }

/-- `_msg_cb`, called while the loop handles the connection's read event. -/
def receive (state : Echosvr count Other) : Option (Echosvr count Other) :=
  match state.loop.loop with
  | .dispatching ((.other fd, revs) :: _) =>
      if fd = state.fd ∧ handleEvent revs = .read then state.handleMsg else none
  | _ => none

/-- The next step of a worker. -/
def work (state : Echosvr count Other) (worker : Fin count) : Option (Echosvr count Other) :=
  match state.pool.workers worker with
  | .running (some request) =>
      match state.answering worker with
      | .unanswered =>
          -- the connection stays connected, and a worker is not on the loop's thread
          (state.loop.step (.add (.inl worker) (some request))).map fun loop =>
            { state with
              loop := loop
              answering := Function.update state.answering worker .added
              handed := state.handed ++ [request] }
      | .added =>
          (state.loop.step (.weakup (.inl worker))).map fun loop =>
            { state with
              loop := loop
              answering := Function.update state.answering worker .answered }
      | .answered =>
          (Threadpool.step state.pool (.work worker)).map fun pool =>
            { state with
              pool := pool
              answering := Function.update state.answering worker .unanswered }
  | _ =>
      (Threadpool.step state.pool (.work worker)).map fun pool => { state with pool := pool }

/-- The next step of the loop's thread in `run`, where it is not in `threadpool::add`; a task of the
connection's is `send_in_loop`. -/
def run (state : Echosvr count Other) : Option (Echosvr count Other) :=
  match state.pool.clients none with
  | .notifying _ => none
  | .idle =>
      state.loop.run.map fun loop =>
        { state with loop := loop, output := state.output ++ state.loop.drained.reduceOption }

/-- A step. -/
def step (state : Echosvr count Other) : Label count Other → Option (Echosvr count Other)
  | .receive => state.receive
  | .work worker => state.work worker
  | .run => state.run
  | .pool does =>
      (Threadpool.step state.pool does.label).map fun pool => { state with pool := pool }
  | .loop does => (state.loop.step does.label).map fun loop => { state with loop := loop }

/-! ### The order of the replies -/

/-- The replies are in `_output_buf` in the order of the requests. -/
def InOrder (state : Echosvr count Other) : Prop :=
  state.output.Pairwise (· < ·)

/-- The worker has the request in hand, and has not added its reply to the loop. -/
def Owes (state : Echosvr count Other) (worker : Fin count) (request : ℕ) : Prop :=
  state.pool.workers worker = .running (some request) ∧ state.answering worker = .unanswered

/-- A worker hands over a reply only while no other has an earlier request in hand. -/
def OldestFirst (state : Echosvr count Other) : Label count Other → Prop
  | .work worker => ∀ request, state.Owes worker request →
      ∀ other earlier, state.Owes other earlier → request ≤ earlier
  | _ => True

/-- The replies have been handed over in the order of the requests, none left out. -/
def HandsInOrder (state : Echosvr count Other) : Prop :=
  state.handed = List.range state.handed.length

/-- No worker has a request in hand, and no reply waits for the loop. -/
def Settled (state : Echosvr count Other) : Prop :=
  (∀ worker request, ¬ state.Owes worker request) ∧ state.loop.tasks.reduceOption = []

/-! ### What holds in every state -/

/-- The first `begun` requests have been taken by workers, and the others are queued; each of the
first has been handed over, or one worker owes it; and the replies handed over are appended or wait
for the loop. -/
structure Flows (state : Echosvr count Other) (begun : ℕ) : Prop where
  queued : List.range begun ++ state.pool.queue.reduceOption = List.range state.received
  handed : ∀ request ∈ state.handed, request < begun
  owed : ∀ worker request, state.Owes worker request → request < begun ∧ request ∉ state.handed
  covered : ∀ request, request < begun →
    request ∈ state.handed ∨ ∃ worker, state.Owes worker request
  alone : ∀ worker other request, state.Owes worker request → state.Owes other request →
    worker = other
  busy : ∀ worker, state.answering worker ≠ .unanswered →
    ∃ request, state.pool.workers worker = .running (some request)
  passed : state.output ++ state.loop.tasks.reduceOption = state.handed
  direct : count = 0 → state.pool.queue.reduceOption = [] ∧ state.loop.tasks.reduceOption = []

omit [DecidableEq Other] in
theorem flows_create (fd : ℕ) : (create fd : Echosvr count Other).Flows 0 where
  queued := rfl
  handed := nofun
  owed := by
    rintro worker request ⟨running, -⟩
    cases running
  covered := nofun
  alone := by
    rintro worker other request ⟨running, -⟩
    cases running
  busy := fun worker moved => absurd rfl moved
  passed := rfl
  direct := fun _ => ⟨rfl, rfl⟩

variable {state next : Echosvr count Other} {begun : ℕ}

omit [DecidableEq Other] in
/-- What changes nothing about the requests that workers have taken keeps what holds of them. -/
theorem Flows.frame (flows : state.Flows begun)
    (queued : List.range begun ++ next.pool.queue.reduceOption = List.range next.received)
    (handed : next.handed = state.handed)
    (owes : ∀ worker request, next.Owes worker request ↔ state.Owes worker request)
    (busy : ∀ worker, next.answering worker ≠ .unanswered →
      ∃ request, next.pool.workers worker = .running (some request))
    (passed : next.output ++ next.loop.tasks.reduceOption = next.handed)
    (direct : count = 0 →
      next.pool.queue.reduceOption = [] ∧ next.loop.tasks.reduceOption = []) :
    next.Flows begun where
  queued := queued
  handed := by
    rw [handed]
    exact flows.handed
  owed := by
    simp only [owes, handed]
    exact flows.owed
  covered := by
    simp only [owes, handed]
    exact flows.covered
  alone := by
    simp only [owes]
    exact flows.alone
  busy := busy
  passed := passed
  direct := direct

omit [DecidableEq Other] in
/-- A step of the pool that leaves everyone's task alone. -/
theorem Flows.pool (flows : state.Flows begun) {pool : Threadpool count (Option Other) (Option ℕ)}
    {received : ℕ}
    (queued : List.range begun ++ pool.queue.reduceOption = List.range received)
    (direct : count = 0 → pool.queue.reduceOption = [])
    (running : ∀ worker request, pool.workers worker = .running (some request) ↔
      state.pool.workers worker = .running (some request)) :
    Flows { state with pool := pool, received := received } begun := by
  refine flows.frame queued rfl (fun worker request => ?_) (fun worker moved => ?_) flows.passed
    fun workless => ⟨direct workless, (flows.direct workless).2⟩
  · exact and_congr (running worker request) Iff.rfl
  · obtain ⟨request, stands⟩ := flows.busy worker moved
    exact ⟨request, (running worker request).mpr stands⟩

omit [DecidableEq Other] in
/-- A step of the pool that leaves the queue's requests and everyone's task alone. -/
theorem Flows.pool_still (flows : state.Flows begun)
    {pool : Threadpool count (Option Other) (Option ℕ)}
    (queue : pool.queue.reduceOption = state.pool.queue.reduceOption)
    (running : ∀ worker request, pool.workers worker = .running (some request) ↔
      state.pool.workers worker = .running (some request)) :
    Flows { state with pool := pool } begun := by
  refine flows.pool ?_ ?_ running
  · rw [queue]
    exact flows.queued
  · rw [queue]
    exact fun workless => (flows.direct workless).1

omit [DecidableEq Other] in
/-- A step of the loop, which runs `output` of the connection's tasks. -/
theorem Flows.loop (flows : state.Flows begun) {loop : WakeLoop (Fin count ⊕ Other) (Option ℕ)}
    {output : List ℕ}
    (tasks : state.loop.tasks.reduceOption = output ++ loop.tasks.reduceOption) :
    Flows { state with loop := loop, output := state.output ++ output } begun := by
  refine flows.frame flows.queued rfl (fun _ _ => Iff.rfl) flows.busy ?_ fun workless => ?_
  · show state.output ++ output ++ loop.tasks.reduceOption = state.handed
    rw [List.append_assoc, ← tasks, flows.passed]
  · have empty := (flows.direct workless).2
    rw [tasks] at empty
    exact ⟨(flows.direct workless).1, (List.append_eq_nil_iff.mp empty).2⟩

/-! ### A worker's step -/

/-- The first of the queued requests is the next one. -/
theorem range_cons {taken received request : ℕ} {rest : List ℕ}
    (queued : List.range taken ++ request :: rest = List.range received) :
    request = taken ∧ List.range (taken + 1) ++ rest = List.range received := by
  have length := congrArg List.length queued
  simp only [List.length_append, List.length_range, List.length_cons] at length
  have front : request = taken := by
    have entry := congrArg (fun items => items[taken]?) queued
    rw [List.getElem?_append_right (by simp), List.length_range, Nat.sub_self,
      List.getElem?_cons_zero, List.getElem?_range (by omega)] at entry
    exact Option.some.inj entry
  refine ⟨front, ?_⟩
  rw [← queued, front, List.range_succ, List.append_assoc]
  rfl

omit [DecidableEq Other] in
/-- A worker that takes a task of the connection's owes its reply. -/
theorem Flows.take (flows : state.Flows begun) {worker : Fin count} {request : ℕ}
    {queue : List (Option ℕ)} {pool : Threadpool count (Option Other) (Option ℕ)}
    (taking : state.pool.workers worker = .taking)
    (front : state.pool.queue = some request :: queue) (rest : pool.queue = queue)
    (workers : pool.workers = Function.update state.pool.workers worker (.running (some request))) :
    Flows { state with pool := pool } (begun + 1) := by
  have queued := flows.queued
  rw [front, List.reduceOption_cons_of_some] at queued
  obtain ⟨rfl, later⟩ := range_cons queued
  have free : state.answering worker = .unanswered := by
    by_contra moved
    obtain ⟨_, running⟩ := flows.busy worker moved
    rw [taking] at running
    cases running
  have owes : ∀ other earlier, Owes { state with pool := pool } other earlier ↔
      state.Owes other earlier ∨ other = worker ∧ earlier = request := by
    intro other earlier
    unfold Owes
    simp only [workers]
    by_cases here : other = worker
    · subst here
      rw [Function.update_self]
      simp [taking, free, eq_comm]
    · rw [Function.update_of_ne here]
      simp [here]
  refine ⟨?_, fun earlier member => ?_, fun other earlier owed => ?_, fun earlier early => ?_,
    fun other third earlier owed owedToo => ?_, fun other moved => ?_, flows.passed, fun workless => ?_⟩
  · show List.range (request + 1) ++ pool.queue.reduceOption = List.range state.received
    rwa [rest]
  · exact Nat.lt_succ_of_lt (flows.handed earlier member)
  · rcases (owes other earlier).mp owed with before | ⟨-, rfl⟩
    · obtain ⟨early, absent⟩ := flows.owed other earlier before
      exact ⟨Nat.lt_succ_of_lt early, absent⟩
    · exact ⟨Nat.lt_succ_self _, fun member => Nat.lt_irrefl _ (flows.handed earlier member)⟩
  · rcases Nat.lt_succ_iff_lt_or_eq.mp early with before | rfl
    · refine (flows.covered earlier before).imp id ?_
      rintro ⟨other, owed⟩
      exact ⟨other, (owes other earlier).mpr (.inl owed)⟩
    · exact .inr ⟨worker, (owes worker earlier).mpr (.inr ⟨rfl, rfl⟩)⟩
  · rcases (owes other earlier).mp owed with before | ⟨rfl, rfl⟩
    · rcases (owes third earlier).mp owedToo with beforeToo | ⟨rfl, rfl⟩
      · exact flows.alone other third earlier before beforeToo
      · exact absurd (flows.owed other earlier before).1 (Nat.lt_irrefl _)
    · rcases (owes third earlier).mp owedToo with before | ⟨rfl, -⟩
      · exact absurd (flows.owed third earlier before).1 (Nat.lt_irrefl _)
      · rfl
  · obtain ⟨earlier, running⟩ := flows.busy other moved
    refine ⟨earlier, ?_⟩
    show pool.workers other = _
    rw [workers, Function.update_of_ne ?_, running]
    rintro rfl
    exact moved free
  · subst workless
    exact worker.elim0

/-- A worker with none of the connection's tasks in hand. -/
theorem Flows.work_idle (flows : state.Flows begun) {worker : Fin count}
    {pool : Threadpool count (Option Other) (Option ℕ)}
    (idle : ∀ request, state.pool.workers worker ≠ .running (some request))
    (took : Threadpool.step state.pool (.work worker) = some pool) :
    ∃ begun, Flows { state with pool := pool } begun := by
  have still : ∀ {pc : WorkerPc (Option ℕ)}, (∀ request : ℕ, pc ≠ .running (some request)) →
      ∀ other request, Function.update state.pool.workers worker pc other = .running (some request) ↔
        state.pool.workers other = .running (some request) := by
    intro pc moved other request
    by_cases here : other = worker
    · subst here
      rw [Function.update_self]
      exact ⟨fun running => absurd running (moved request),
        fun running => absurd running (idle request)⟩
    · rw [Function.update_of_ne here]
  rcases work_cases took with ⟨pc, owner, rfl, -, moved⟩ | ⟨task, queue, taking, front, rfl⟩ |
    ⟨task, running, rfl⟩
  · exact ⟨begun, flows.pool_still rfl (still fun request => moved (some request))⟩
  · cases task with
    | none =>
        refine ⟨begun, flows.pool_still ?_ (still nofun)⟩
        rw [front]
        exact (List.reduceOption_cons_of_none queue).symm
    | some request => exact ⟨begun + 1, flows.take taking front rfl rfl⟩
  · exact ⟨begun, flows.pool_still rfl (still nofun)⟩

omit [DecidableEq Other] in
/-- Whoever moves on in `send` owes nothing any more. -/
theorem owes_update (worker : Fin count) {pc : AnswerPc} (moved : pc ≠ .unanswered)
    (loop : WakeLoop (Fin count ⊕ Other) (Option ℕ)) (handed : List ℕ) (other : Fin count)
    (request : ℕ) :
    Owes { state with
      loop := loop
      answering := Function.update state.answering worker pc
      handed := handed } other request ↔ other ≠ worker ∧ state.Owes other request := by
  show (state.pool.workers other = _ ∧ Function.update state.answering worker pc other = _) ↔
    other ≠ worker ∧ state.pool.workers other = _ ∧ state.answering other = _
  by_cases here : other = worker
  · subst here
    rw [Function.update_self]
    simp [moved]
  · rw [Function.update_of_ne here]
    simp [here]

omit [DecidableEq Other] in
/-- Who is in `send` has a request in hand. -/
theorem busy_update (flows : state.Flows begun) {worker : Fin count} {request : ℕ}
    (running : state.pool.workers worker = .running (some request)) (pc : AnswerPc)
    (other : Fin count) (moved : Function.update state.answering worker pc other ≠ .unanswered) :
    ∃ request, state.pool.workers other = .running (some request) := by
  by_cases here : other = worker
  · subst here
    exact ⟨request, running⟩
  · rw [Function.update_of_ne here] at moved
    exact flows.busy other moved

omit [DecidableEq Other] in
/-- A reply is added to the loop. -/
theorem Flows.hand (flows : state.Flows begun) {worker : Fin count} {request : ℕ}
    {loop : WakeLoop (Fin count ⊕ Other) (Option ℕ)} (owes : state.Owes worker request)
    (tasks : loop.tasks = state.loop.tasks ++ [some request]) :
    Flows { state with
      loop := loop
      answering := Function.update state.answering worker .added
      handed := state.handed ++ [request] } begun := by
  have moved : AnswerPc.added ≠ .unanswered := nofun
  have still : ∀ other earlier, _ ↔ other ≠ worker ∧ state.Owes other earlier :=
    owes_update worker moved loop (state.handed ++ [request])
  refine ⟨flows.queued, fun earlier member => ?_, fun other earlier owed => ?_,
    fun earlier early => ?_, fun other third earlier owed owedToo => ?_,
    busy_update flows owes.1 .added, ?_, fun workless => ?_⟩
  · rcases List.mem_append.mp member with before | now
    · exact flows.handed earlier before
    · obtain rfl := List.mem_singleton.mp now
      exact (flows.owed worker earlier owes).1
  · obtain ⟨elsewhere, before⟩ := (still other earlier).mp owed
    obtain ⟨early, absent⟩ := flows.owed other earlier before
    refine ⟨early, fun member => ?_⟩
    rcases List.mem_append.mp member with present | now
    · exact absent present
    · obtain rfl := List.mem_singleton.mp now
      exact elsewhere (flows.alone other worker earlier before owes)
  · rcases flows.covered earlier early with present | ⟨other, before⟩
    · exact .inl (List.mem_append_left _ present)
    · by_cases here : other = worker
      · subst here
        have same := before.1.symm.trans owes.1
        cases same
        exact .inl (List.mem_append_right _ (List.mem_singleton_self _))
      · exact .inr ⟨other, (still other earlier).mpr ⟨here, before⟩⟩
  · exact flows.alone other third earlier ((still other earlier).mp owed).2
      ((still third earlier).mp owedToo).2
  · show state.output ++ loop.tasks.reduceOption = state.handed ++ [request]
    rw [tasks, List.reduceOption_append, ← List.append_assoc, flows.passed]
    rfl
  · subst workless
    exact worker.elim0

omit [DecidableEq Other] in
/-- The loop is woken, behind the reply. -/
theorem Flows.wake (flows : state.Flows begun) {worker : Fin count} {request : ℕ}
    {loop : WakeLoop (Fin count ⊕ Other) (Option ℕ)}
    (running : state.pool.workers worker = .running (some request))
    (added : state.answering worker = .added) (tasks : loop.tasks = state.loop.tasks) :
    Flows { state with
      loop := loop
      answering := Function.update state.answering worker .answered } begun := by
  have moved : AnswerPc.answered ≠ .unanswered := nofun
  refine flows.frame flows.queued rfl (fun other earlier => ?_)
    (busy_update flows running .answered) ?_ fun workless => ?_
  · refine (owes_update worker moved loop state.handed other earlier).trans
      ⟨And.right, fun owed => ⟨?_, owed⟩⟩
    rintro rfl
    have free := owed.2
    rw [added] at free
    cases free
  · show state.output ++ loop.tasks.reduceOption = state.handed
    rw [tasks, flows.passed]
  · show state.pool.queue.reduceOption = [] ∧ loop.tasks.reduceOption = []
    rw [tasks]
    exact flows.direct workless

omit [DecidableEq Other] in
/-- A worker returns from `on_msg`. -/
theorem Flows.finish (flows : state.Flows begun) {worker : Fin count}
    {pool : Threadpool count (Option Other) (Option ℕ)}
    (answered : state.answering worker = .answered) (queue : pool.queue = state.pool.queue)
    (workers : pool.workers = Function.update state.pool.workers worker .top) :
    Flows { state with
      pool := pool
      answering := Function.update state.answering worker .unanswered } begun := by
  refine flows.frame ?_ rfl (fun other earlier => ?_) (fun other moved => ?_) flows.passed
    fun workless => ?_
  · show List.range begun ++ pool.queue.reduceOption = List.range state.received
    rw [queue]
    exact flows.queued
  · unfold Owes
    simp only [workers]
    by_cases here : other = worker
    · subst here
      rw [Function.update_self, Function.update_self]
      simp [answered]
    · rw [Function.update_of_ne here, Function.update_of_ne here]
  · change Function.update state.answering worker .unanswered other ≠ .unanswered at moved
    have elsewhere : other ≠ worker := by
      rintro rfl
      exact moved (Function.update_self ..)
    rw [Function.update_of_ne elsewhere] at moved
    obtain ⟨earlier, running⟩ := flows.busy other moved
    refine ⟨earlier, ?_⟩
    show pool.workers other = _
    rw [workers, Function.update_of_ne elsewhere, running]
  · show pool.queue.reduceOption = [] ∧ state.loop.tasks.reduceOption = []
    rw [queue]
    exact flows.direct workless

/-! ### The steps -/

/-- Whether a step hands over a reply. -/
inductive Acts (state : Echosvr count Other) (label : Label count Other) :
    Echosvr count Other → Prop
  | hand {next : Echosvr count Other} (worker : Fin count) (request : ℕ)
      (working : label = .work worker) (owes : state.Owes worker request)
      (handed : next.handed = state.handed ++ [request]) : Acts state label next
  | direct {next : Echosvr count Other} (workless : count = 0)
      (handed : next.handed = state.handed ++ [state.received]) : Acts state label next
  | still {next : Echosvr count Other} (handed : next.handed = state.handed)
      (idle : ∀ worker, label = .work worker → ∀ request, ¬ state.Owes worker request) :
      Acts state label next

omit [DecidableEq Other] in
/-- With no workers, every request has been dealt with. -/
theorem Flows.begun_eq (flows : state.Flows begun) (workless : count = 0) : begun = state.received := by
  have queued := flows.queued
  rw [(flows.direct workless).1, List.append_nil] at queued
  simpa using congrArg List.length queued

omit [DecidableEq Other] in
theorem Flows.mem_handed (flows : state.Flows begun) (workless : count = 0) {request : ℕ} :
    request ∈ state.handed ↔ request < begun := by
  refine ⟨flows.handed request, fun early => ?_⟩
  rcases flows.covered request early with present | ⟨worker, -⟩
  · exact present
  · subst workless
    exact worker.elim0

omit [DecidableEq Other] in
/-- The loop's thread answers a request itself. -/
theorem Flows.answer (flows : state.Flows begun) (workless : count = 0) :
    Flows { state with
      received := state.received + 1
      handed := state.handed ++ [state.received]
      output := state.output ++ [state.received] } (state.received + 1) := by
  obtain ⟨queue, tasks⟩ := flows.direct workless
  have begins := flows.begun_eq workless
  have members : ∀ request, request ∈ state.handed ++ [state.received] ↔
      request < state.received + 1 := by
    intro request
    rw [List.mem_append, flows.mem_handed workless, begins, List.mem_singleton, Nat.lt_succ_iff_lt_or_eq]
  refine ⟨?_, fun request => (members request).mp, ?_, fun request early => ?_, ?_, ?_, ?_,
    fun _ => ⟨queue, tasks⟩⟩
  · rw [queue, List.append_nil]
  · subst workless
    exact fun worker => worker.elim0
  · exact .inl ((members request).mpr early)
  · subst workless
    exact fun worker => worker.elim0
  · subst workless
    exact fun worker => worker.elim0
  · show (state.output ++ [state.received]) ++ state.loop.tasks.reduceOption =
      state.handed ++ [state.received]
    rw [← flows.passed, tasks, List.append_nil, List.append_nil]

theorem handleMsg_acts (flows : state.Flows begun) (took : state.handleMsg = some next) :
    (∃ begun, next.Flows begun) ∧ Acts state .receive next := by
  unfold handleMsg at took
  split at took
  next workless =>
    cases took
    exact ⟨⟨_, flows.answer workless⟩, .direct workless rfl⟩
  next workers =>
    obtain ⟨pool, pushed, rfl⟩ := Option.map_eq_some_iff.mp took
    obtain ⟨queue, -, running⟩ := quiet_step pushed nofun
    refine ⟨⟨begun, flows.pool ?_ (fun workless => absurd workless workers)
      fun worker request => running worker (some request)⟩, .still rfl nofun⟩
    rw [queue, List.reduceOption_append, ← List.append_assoc, flows.queued, List.range_succ]
    rfl

theorem work_acts (flows : state.Flows begun) {worker : Fin count}
    (took : state.work worker = some next) :
    (∃ begun, next.Flows begun) ∧ Acts state (.work worker) next := by
  have owed : ∀ request, state.Owes worker request → state.answering worker = .unanswered :=
    fun _ owes => owes.2
  unfold work at took
  split at took
  next request running =>
    split at took
    next unanswered =>
      obtain ⟨loop, added, rfl⟩ := Option.map_eq_some_iff.mp took
      have owes : state.Owes worker request := ⟨running, unanswered⟩
      exact ⟨⟨begun, flows.hand owes (WakeLoop.tasks_step added nofun)⟩,
        .hand worker request rfl owes rfl⟩
    next added =>
      obtain ⟨loop, woken, rfl⟩ := Option.map_eq_some_iff.mp took
      have tasks := WakeLoop.tasks_step woken nofun
      rw [WakeLoop.Label.adds, List.append_nil] at tasks
      refine ⟨⟨begun, flows.wake running added tasks⟩, .still rfl ?_⟩
      rintro _ ⟨⟩ request owes
      have free := owed request owes
      rw [added] at free
      cases free
    next answered =>
      obtain ⟨pool, finished, rfl⟩ := Option.map_eq_some_iff.mp took
      refine ⟨⟨begun, ?_⟩, .still rfl ?_⟩
      · rcases work_cases finished with ⟨_, _, -, idle, -⟩ | ⟨_, _, taking, -, -⟩ | ⟨_, _, rfl⟩
        · exact absurd running (idle _)
        · rw [running] at taking
          cases taking
        · exact flows.finish answered rfl rfl
      · rintro _ ⟨⟩ request owes
        have free := owed request owes
        rw [answered] at free
        cases free
  next idle =>
    obtain ⟨pool, moved, rfl⟩ := Option.map_eq_some_iff.mp took
    refine ⟨flows.work_idle idle moved, .still rfl ?_⟩
    rintro _ ⟨⟩ request owes
    exact idle request owes.1

/-- **What a step does**, and that it keeps what holds. -/
theorem step_acts {label : Label count Other} (flows : state.Flows begun)
    (took : state.step label = some next) :
    (∃ begun, next.Flows begun) ∧ Acts state label next := by
  cases label with
  | receive =>
      change state.receive = some next at took
      unfold receive at took
      split at took
      next =>
        split at took
        next => exact handleMsg_acts flows took
        next => cases took
      next => cases took
  | work worker => exact work_acts flows took
  | run =>
      change state.run = some next at took
      unfold run at took
      split at took
      next => cases took
      next =>
        obtain ⟨loop, ran, rfl⟩ := Option.map_eq_some_iff.mp took
        refine ⟨⟨begun, flows.loop ?_⟩, .still rfl nofun⟩
        rw [WakeLoop.run_tasks ran, List.reduceOption_append]
  | pool does =>
      obtain ⟨pool, called, rfl⟩ := Option.map_eq_some_iff.mp took
      have quiet : ∀ worker, does.label ≠ .work worker := by
        cases does <;> nofun
      have nothing : does.label.pushes.reduceOption = [] := by
        cases does <;> rfl
      obtain ⟨queue, -, running⟩ := quiet_step called quiet
      refine ⟨⟨begun, flows.pool_still ?_ fun worker request => running worker (some request)⟩,
        .still rfl nofun⟩
      rw [queue, List.reduceOption_append, nothing, List.append_nil]
  | loop does =>
      obtain ⟨loop, called, rfl⟩ := Option.map_eq_some_iff.mp took
      have others : (does.label : WakeLoop.Label (Fin count ⊕ Other) (Option ℕ)) ≠ .run := by
        cases does <;> nofun
      have nothing : (does.label : WakeLoop.Label (Fin count ⊕ Other) (Option ℕ)).adds.reduceOption =
          [] := by
        cases does <;> rfl
      have tasks := WakeLoop.tasks_step called others
      have kept : Flows { state with loop := loop, output := state.output ++ [] } begun := by
        refine flows.loop ?_
        rw [tasks, List.reduceOption_append, nothing, List.append_nil]
        rfl
      rw [List.append_nil] at kept
      exact ⟨⟨begun, kept⟩, .still rfl nofun⟩

/-! ### The order of the replies -/

/-- One more request behind the first ones. -/
theorem concat_range {items : List ℕ} (inOrder : items = List.range items.length) (request : ℕ) :
    items ++ [request] = List.range (items ++ [request]).length ↔ request = items.length := by
  rw [List.length_append, List.length_singleton, List.range_succ, ← inOrder]
  simp

omit [DecidableEq Other] in
/-- Where the replies were handed over in order, what is owed comes later. -/
theorem Flows.later (flows : state.Flows begun) (inOrder : state.HandsInOrder) {worker : Fin count}
    {request : ℕ} (owes : state.Owes worker request) : state.handed.length ≤ request := by
  have absent := (flows.owed worker request owes).2
  rw [inOrder, List.mem_range] at absent
  omega

omit [DecidableEq Other] in
/-- **A step keeps the replies in order exactly when it hands over the oldest one.** -/
theorem handsInOrder_step {label : Label count Other} (flows : state.Flows begun)
    (inOrder : state.HandsInOrder) (acts : Acts state label next) :
    next.HandsInOrder ↔ OldestFirst state label := by
  cases acts with
  | hand worker request working owes handed =>
      subst working
      unfold HandsInOrder
      rw [handed, concat_range inOrder]
      constructor
      · intro first earliest owesToo other earlier owesEarlier
        have same := owesToo.1.symm.trans owes.1
        cases same
        rw [first]
        exact flows.later inOrder owesEarlier
      · intro oldest
        have below := flows.later inOrder owes
        have missing : state.handed.length ∉ state.handed := by
          rw [inOrder, List.length_range, List.mem_range]
          exact Nat.lt_irrefl _
        have begins := (flows.owed worker request owes).1
        obtain ⟨other, owesFirst⟩ :=
          (flows.covered _ (Nat.lt_of_le_of_lt below begins)).resolve_left missing
        have least := oldest request owes other _ owesFirst
        omega
  | direct workless handed =>
      subst workless
      have all : OldestFirst state label := by
        cases label with
        | work worker => exact worker.elim0
        | _ => trivial
      refine ⟨fun _ => all, fun _ => ?_⟩
      unfold HandsInOrder
      rw [handed, concat_range inOrder]
      -- everything received so far has been handed over, and in order
      have members : ∀ request, request < state.handed.length ↔ request < state.received := by
        intro request
        rw [← flows.begun_eq rfl, ← flows.mem_handed rfl, inOrder, List.length_range,
          List.mem_range]
      have below := members state.received
      have above := members state.handed.length
      omega
  | still handed idle =>
      have all : OldestFirst state label := by
        cases label with
        | work worker => exact fun request owes => absurd owes (idle worker rfl request)
        | _ => trivial
      refine ⟨fun _ => all, fun _ => ?_⟩
      unfold HandsInOrder
      rw [handed]
      exact inOrder

omit [DecidableEq Other] in
/-- What has been handed over out of order stays so. -/
theorem handsInOrder_back {label : Label count Other} (acts : Acts state label next)
    (inOrder : next.HandsInOrder) : state.HandsInOrder := by
  have grown : ∃ more, next.handed = state.handed ++ more := by
    cases acts with
    | hand worker request working owes handed => exact ⟨_, handed⟩
    | direct workless handed => exact ⟨_, handed⟩
    | still handed idle => exact ⟨[], by rw [handed, List.append_nil]⟩
  obtain ⟨more, grown⟩ := grown
  unfold HandsInOrder at inOrder ⊢
  rw [grown] at inOrder
  have front := congrArg (List.take state.handed.length) inOrder
  rw [List.take_left, List.take_range, List.length_append, Nat.min_eq_left (by omega)] at front
  exact front

/-- In every state of a run some number of requests has been taken. -/
def Moves (state : Echosvr count Other) : Prop :=
  ∃ begun, state.Flows begun

theorem moves_step {label : Label count Other} (moves : state.Moves)
    (took : state.step label = some next) : next.Moves := by
  obtain ⟨begun, flows⟩ := moves
  exact (step_acts flows took).1

omit [DecidableEq Other] in
theorem moves_create (fd : ℕ) : (create fd : Echosvr count Other).Moves :=
  ⟨0, flows_create fd⟩

/-- **When the replies are handed over in order**: exactly when each worker hands over its own only
while no other has an earlier request in hand. -/
theorem hands_in_order_iff (fd : ℕ) (labels : List (Label count Other)) :
    Always step HandsInOrder (create fd) labels ↔ Along step OldestFirst (create fd) labels := by
  refine always_iff_along_within (fun _ _ _ moves took => moves_step moves took) ?_
    (moves_create fd) rfl
  rintro state label next ⟨begun, flows⟩ inOrder took
  exact handsInOrder_step flows inOrder (step_acts flows took).2

omit [DecidableEq Other] in
/-- Replies that are handed over in order are appended in order. -/
theorem Flows.appended (flows : state.Flows begun) (inOrder : state.HandsInOrder) :
    state.InOrder := by
  have sublist : state.output.Sublist state.handed := by
    rw [← flows.passed]
    exact List.sublist_append_left _ _
  rw [inOrder] at sublist
  exact List.pairwise_lt_range.sublist sublist

omit [DecidableEq Other] in
/-- Where nothing is on its way, replies appended in order were handed over in order. -/
theorem Flows.handedOver (flows : state.Flows begun) (settled : state.Settled)
    (inOrder : state.InOrder) : state.HandsInOrder := by
  have output : state.output = state.handed := by
    rw [← flows.passed, settled.2, List.append_nil]
  unfold InOrder at inOrder
  rw [output] at inOrder
  have same : state.handed.Perm (List.range begun) := by
    rw [List.perm_ext_iff_of_nodup inOrder.nodup List.nodup_range]
    intro request
    rw [List.mem_range]
    refine ⟨flows.handed request, fun early => ?_⟩
    rcases flows.covered request early with present | ⟨worker, owes⟩
    · exact present
    · exact absurd owes (settled.1 worker request)
  have equal := same.eq_of_pairwise (fun _ _ _ _ less more => absurd less (Nat.lt_asymm more))
    inOrder List.pairwise_lt_range
  unfold HandsInOrder
  rw [equal, List.length_range]

/-- With one worker at most, nobody else has anything in hand. -/
theorem oldestFirst_of_one (few : count ≤ 1) (labels : List (Label count Other)) :
    Along step OldestFirst state labels := by
  refine along_of_forall fun label _ state => ?_
  cases label with
  | work worker =>
      intro request owes other earlier owesEarlier
      have same : other = worker := Fin.ext (by omega)
      subst same
      have equal := owesEarlier.1.symm.trans owes.1
      cases equal
      exact le_rfl
  | _ => trivial

/-- **When the replies keep the order of the requests.** In every run in which each worker hands over
its reply only while no other has an earlier request of the connection in hand, the replies are
appended in order; with one worker at most, or none, that is every run. And where nothing is on its
way any more, they have been appended in order exactly when the run was such a one. -/
theorem replies_keep_order (fd : ℕ) :
    (∀ labels : List (Label count Other), Along step OldestFirst (create fd) labels →
      Always step InOrder (create fd) labels) ∧
    (count ≤ 1 → ∀ labels : List (Label count Other), Always step InOrder (create fd) labels) ∧
    (∀ (labels : List (Label count Other)) (final : Echosvr count Other),
      exec step (create fd) labels = some final → final.Settled →
        (final.InOrder ↔ Along step OldestFirst (create fd) labels)) := by
  have moves : ∀ labels : List (Label count Other), Always step Moves (create fd) labels :=
    always_of_step (fun _ _ _ moves took => moves_step moves took) (moves_create fd)
  have kept : ∀ labels : List (Label count Other), Along step OldestFirst (create fd) labels →
      Always step InOrder (create fd) labels := by
    intro labels along
    refine ((moves labels).and ((hands_in_order_iff fd labels).mpr along)).mono ?_
    rintro state ⟨⟨begun, flows⟩, inOrder⟩
    exact flows.appended inOrder
  refine ⟨kept, fun few labels => kept labels (oldestFirst_of_one few labels),
    fun labels final ran settled => ⟨fun inOrder => ?_, fun along => (kept labels along).last ran⟩⟩
  obtain ⟨begun, flows⟩ := (moves labels).last ran
  refine (hands_in_order_iff fd labels).mp (always_of_last
    (fun _ _ _ moves took => moves_step moves took) ?_ (moves_create fd) ran
    (flows.handedOver settled inOrder))
  rintro state label next ⟨begun, flows⟩ took later
  exact handsInOrder_back (step_acts flows took).2 later

/-- One worker, whatever the run; and two of them, the first the faster one. -/
theorem replies_keep_order_first :
    (∀ labels : List (Label 1 Unit), Always step InOrder (create 5) labels) ∧
    ∃ final : Echosvr 2 Unit, final.output = [0, 1] ∧
      (final.InOrder ↔ Along step OldestFirst (create 5 : Echosvr 2 Unit)
        [.run, .loop (.fetch [(.other 5, epollIn)]), .receive, .pool (.notifyOne none none), .receive,
          .pool (.notifyOne none none), .work 0, .work 0, .work 0, .work 0, .work 0, .work 1, .work 1,
          .work 1, .work 1, .work 1, .work 0, .work 0, .work 1, .work 1, .run, .run, .run,
          .loop (.fetch [(.weak, epollIn)]), .run, .run, .run, .run, .run]) := by
  have run : (exec step (create 5 : Echosvr 2 Unit)
      [.run, .loop (.fetch [(.other 5, epollIn)]), .receive, .pool (.notifyOne none none), .receive,
        .pool (.notifyOne none none), .work 0, .work 0, .work 0, .work 0, .work 0, .work 1, .work 1,
        .work 1, .work 1, .work 1, .work 0, .work 0, .work 1, .work 1, .run, .run, .run,
        .loop (.fetch [(.weak, epollIn)]), .run, .run, .run, .run, .run]).map
        (fun final => (final.output, final.loop.tasks, final.answering 0, final.answering 1)) =
      some ([0, 1], [], .answered, .answered) := by
    decide
  obtain ⟨final, ran, facts⟩ := Option.map_eq_some_iff.mp run
  simp only [Prod.mk.injEq] at facts
  obtain ⟨output, tasks, first, second⟩ := facts
  have settled : final.Settled := by
    refine ⟨fun worker request owes => ?_, by rw [tasks]; rfl⟩
    have free := owes.2
    match worker with
    | 0 =>
        rw [first] at free
        cases free
    | 1 =>
        rw [second] at free
        cases free
  exact ⟨(replies_keep_order 5).2.1 (by decide), final, output,
    (replies_keep_order 5).2.2 _ final ran settled⟩

/-- **Two workers, and the second is the faster one**: the reply to the first request is appended
behind that to the second. -/
theorem reply_overtakes :
    ¬ Always step InOrder (create 5 : Echosvr 2 Unit)
      [.run, .loop (.fetch [(.other 5, epollIn)]), .receive, .pool (.notifyOne none none), .receive,
        .pool (.notifyOne none none), .work 0, .work 0, .work 0, .work 0, .work 0, .work 1, .work 1,
        .work 1, .work 1, .work 1, .work 1, .work 1, .work 0, .work 0, .run, .run, .run,
        .loop (.fetch [(.weak, epollIn)]), .run, .run, .run, .run, .run] := by
  have run : (exec step (create 5 : Echosvr 2 Unit)
      [.run, .loop (.fetch [(.other 5, epollIn)]), .receive, .pool (.notifyOne none none), .receive,
        .pool (.notifyOne none none), .work 0, .work 0, .work 0, .work 0, .work 0, .work 1, .work 1,
        .work 1, .work 1, .work 1, .work 1, .work 1, .work 0, .work 0, .run, .run, .run,
        .loop (.fetch [(.weak, epollIn)]), .run, .run, .run, .run, .run]).map
        (fun final => final.output) = some [1, 0] := by
    decide
  obtain ⟨final, ran, output⟩ := Option.map_eq_some_iff.mp run
  intro always
  have inOrder := always.last ran
  unfold InOrder at inOrder
  rw [output] at inOrder
  exact absurd inOrder (by decide)

end Step

end Echosvr

end IkunSvr
