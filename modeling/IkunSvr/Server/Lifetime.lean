/-
**Uses of a connection by threads that do not own it.**

Two things keep a bare pointer to a connection: the task queue of a sub-loop, and the batch of
channels that epoll has returned. `step_uses` says how a step adds to them: a task comes from a
worker that has passed the test of `_disconn`, a channel from epoll, which reports channels of
connected connections. `TaskPending` and `EventPending` are thereby notions of what some thread will
use, and `watched_alive` applies to each.

* `tasks_alive` — **every task that runs finds its connection alive**, in a run that evicts a
  connection only when it is disconnected or has no owner besides the tables, and has no task queued
  or under way;
* `dispatch_alive` — **every channel dispatched, and every handler to its end, finds its connection
  alive**, in a run that evicts a connection only when it is disconnected or has no owner besides the
  tables, and is in no batch;
* `task_outlives`, `dispatch_outlives` — a run each in which the timer evicts a connection with a
  task queued, and one that is in the batch behind the timer.
-/

import IkunSvr.Server.Ownership

namespace IkunSvr

namespace Server

open Run

variable {thds works : Nat}

/-! ### How uses arise -/

/-- What the step adds to the tasks and batches comes from a worker behind the test of `_disconn`,
and from epoll. -/
structure Uses (state next : Server thds works) : Prop where
  tasks : ∀ loop conn, conn ∈ (next.loops loop).tasks →
    conn ∈ (state.loops loop).tasks ∨ ∃ worker, state.workers worker = .passed conn
  task : ∀ loop conn, (next.loops loop).handler = .task conn →
    (state.loops loop).handler = .task conn ∨ conn ∈ (state.loops loop).tasks
  passed : ∀ worker conn, next.workers worker = .passed conn →
    state.workers worker = .passed conn ∨
      state.workers worker = .handling conn ∧ (state.info conn).disconn = false
  batch : ∀ loop conn, Source.conn conn ∈ (next.loops loop).batch →
    Source.conn conn ∈ (state.loops loop).batch ∨
      conn ∈ state.live ∧ (state.info conn).disconn = false
  handler : ∀ loop conn, (next.loops loop).handler = .conn conn →
    (state.loops loop).handler = .conn conn ∨ Source.conn conn ∈ (state.loops loop).batch

section Uses

variable {state next : Server thds works}

theorem uses_same (loops : next.loops = state.loops) (workers : next.workers = state.workers) :
    Uses state next := by
  refine ⟨fun loop conn => ?_, fun loop conn => ?_, fun worker conn => ?_, fun loop conn => ?_,
    fun loop conn => ?_⟩
  · rw [loops]
    exact .inl
  · rw [loops]
    exact .inl
  · rw [workers]
    exact .inl
  · rw [loops]
    exact .inl
  · rw [loops]
    exact .inl

/-- A sub-loop's thread moves on. -/
theorem Moves.uses {loop : Fin thds} {sub : SubLoop} (moves : state.Moves loop sub)
    (loops : next.loops = (state.setLoop loop sub).loops) (workers : next.workers = state.workers) :
    Uses state next := by
  refine ⟨fun other conn => ?_, fun other conn => ?_, fun worker conn => ?_, fun other conn => ?_,
    fun other conn => ?_⟩
  · rw [loops]
    rcases setLoop_loops state loop _ other with ⟨rfl, here⟩ | ⟨_, elsewhere⟩
    · rw [here]
      exact fun member => .inl (moves.tasks conn member)
    · rw [elsewhere]
      exact .inl
  · rw [loops]
    rcases setLoop_loops state loop _ other with ⟨rfl, here⟩ | ⟨_, elsewhere⟩
    · rw [here]
      exact moves.task conn
    · rw [elsewhere]
      exact .inl
  · rw [workers]
    exact .inl
  · rw [loops]
    rcases setLoop_loops state loop _ other with ⟨rfl, here⟩ | ⟨_, elsewhere⟩
    · rw [here]
      exact moves.batch conn
    · rw [elsewhere]
      exact .inl
  · rw [loops]
    rcases setLoop_loops state loop _ other with ⟨rfl, here⟩ | ⟨_, elsewhere⟩
    · rw [here]
      exact moves.handler conn
    · rw [elsewhere]
      exact .inl

/-- A worker moves on, without pushing a task. -/
theorem uses_setWorker {worker : Fin works} {pc : WorkerPc} (loops : next.loops = state.loops)
    (workers : next.workers = (state.setWorker worker pc).workers)
    (passed : ∀ conn, pc = .passed conn →
      state.workers worker = .handling conn ∧ (state.info conn).disconn = false) :
    Uses state next := by
  refine ⟨fun loop conn => ?_, fun loop conn => ?_, fun other conn => ?_, fun loop conn => ?_,
    fun loop conn => ?_⟩
  · rw [loops]
    exact .inl
  · rw [loops]
    exact .inl
  · rw [workers]
    rcases setWorker_workers state worker _ other with ⟨rfl, here⟩ | ⟨_, elsewhere⟩
    · rw [here]
      exact fun same => .inr (passed conn same)
    · rw [elsewhere]
      exact .inl
  · rw [loops]
    exact .inl
  · rw [loops]
    exact .inl

theorem uses_evict (state : Server thds works) (loop : Fin thds) (now : Int) (key : Nat) :
    Uses state (state.evict loop now key) := by
  refine (moves_handler _ ?_ ?_ : state.Moves loop _).uses rfl rfl
  · intro conn
    split
    · exact nofun
    · exact nofun
  · intro conn
    split
    · exact nofun
    · exact nofun

/-- The push of a task. -/
theorem uses_push {worker : Fin works} {conn : ConnId}
    (passed : state.workers worker = .passed conn) {loop : Fin thds} {sub : SubLoop}
    (tasks : ∀ task ∈ sub.tasks, task ∈ (state.loops loop).tasks ∨ task = conn)
    (handler : sub.handler = (state.loops loop).handler)
    (batch : sub.batch = (state.loops loop).batch) :
    Uses state ((state.setWorker worker (.added conn)).setLoop loop sub) := by
  have added : Uses state (state.setWorker worker (.added conn)) := uses_setWorker rfl rfl nofun
  refine ⟨fun other task => ?_, fun other task => ?_, added.passed, fun other task => ?_,
    fun other task => ?_⟩
  · rcases setLoop_loops (state.setWorker worker (.added conn)) loop sub other with
      ⟨rfl, here⟩ | ⟨_, elsewhere⟩
    · rw [here]
      intro member
      rcases tasks task member with earlier | rfl
      · exact .inl earlier
      · exact .inr ⟨worker, passed⟩
    · rw [elsewhere]
      exact .inl
  · rcases setLoop_loops (state.setWorker worker (.added conn)) loop sub other with
      ⟨rfl, here⟩ | ⟨_, elsewhere⟩
    · rw [here, handler]
      exact .inl
    · rw [elsewhere]
      exact .inl
  · rcases setLoop_loops (state.setWorker worker (.added conn)) loop sub other with
      ⟨rfl, here⟩ | ⟨_, elsewhere⟩
    · rw [here, batch]
      exact .inl
    · rw [elsewhere]
      exact .inl
  · rcases setLoop_loops (state.setWorker worker (.added conn)) loop sub other with
      ⟨rfl, here⟩ | ⟨_, elsewhere⟩
    · rw [here, handler]
      exact .inl
    · rw [elsewhere]
      exact .inl

section Step

variable [NeZero thds]

theorem mainStep_uses {label : Label thds works} (took : state.mainStep label = some next) :
    Uses state next := by
  rcases mainStep_cases took with ⟨fd, _, _, rfl⟩ | ⟨conn, cbs, _, _, rfl⟩ | ⟨conn, _, rfl⟩ |
    ⟨conn, _, rfl⟩ | ⟨conn, _, rfl⟩
  · exact uses_same rfl rfl
  · exact uses_same rfl rfl
  · have moves : state.Moves (state.home conn) { state.loops (state.home conn) with
        conns := (state.loops (state.home conn)).conns.set (state.info conn).fd conn } :=
      ⟨fun _ => id, fun _ => .inl, fun _ => .inl, fun _ => .inl⟩
    exact moves.uses rfl rfl
  · exact uses_same rfl rfl
  · exact uses_same rfl rfl

theorem loopStep_uses {loop : Fin thds} {label : Label thds works}
    (took : state.loopStep loop label = some next) : Uses state next := by
  rcases loopStep_cases took with ⟨sub, rfl, _, moves⟩ | ⟨conn, _, _, rfl⟩ |
    ⟨_, conn, cbs, _, _, _, rfl⟩ | ⟨_, now, key, conn, _, _, rfl⟩
  · exact moves.uses rfl rfl
  · exact uses_same rfl rfl
  · exact uses_same rfl rfl
  · exact uses_evict state loop now key

theorem workerStep_uses {worker : Fin works} {label : Label thds works}
    (took : state.workerStep worker label = some next) : Uses state next := by
  rcases workerStep_cases took with ⟨conn, pool, _, _, rfl⟩ | ⟨pc, rfl, _, passed⟩ |
    ⟨conn, passed, _, rfl⟩ | ⟨conn, _, rfl⟩
  · exact uses_setWorker rfl rfl nofun
  · exact uses_setWorker rfl rfl passed
  · exact uses_push passed
      (fun task member => (List.mem_append.mp member).imp id List.mem_singleton.mp) rfl rfl
  · exact uses_setWorker rfl rfl nofun

/-- **How a step adds to the uses.** -/
theorem step_uses {label : Label thds works} (took : state.step label = some next) :
    Uses state next := by
  unfold step at took
  cases label with
  | tick seconds =>
      cases took
      exact uses_same rfl rfl
  | accept fd | setCb | enlist | publish | ret => exact mainStep_uses took
  | poll loop batch | dispatch loop | deliver loop | close loop | error loop | done loop
  | runTask loop | taskDone loop | drained loop | sweep loop => exact loopStep_uses took
  | take worker | test worker | push worker | weakup worker | finish worker =>
      exact workerStep_uses took

end Step

end Uses

/-! ### Runs with an eviction -/

/-- Two clients on the one sub-loop, on descriptors 5 and 6. -/
def twoClients : List (Label 1 1) :=
  [5, 6].flatMap fun fd =>
    [.accept fd, .setCb, .setCb, .setCb, .setCb, .enlist, .publish, .ret]

/-- The first client closes, and twelve seconds later the timer expires. -/
def closedFirst : List (Label 1 1) :=
  twoClients ++ [.poll 0 [.conn 0], .dispatch 0, .close 0, .done 0, .tick 12, .poll 0 [.timer],
    .dispatch 0]

/-- The first client sends a message, which a worker takes up. -/
def oneMessage : List (Label 1 1) :=
  [.poll 0 [.conn 0], .dispatch 0, .deliver 0, .done 0, .take 0]

/-- The worker answers. -/
def answer : List (Label 1 1) :=
  [.test 0, .push 0, .weakup 0, .finish 0]

/-- The first client sends a message, which a worker answers, and the sub-loop runs the task. -/
def answeredFirst : List (Label 1 1) :=
  twoClients ++ oneMessage ++ answer ++ [.poll 0 [.weak], .dispatch 0, .runTask 0]

/-- Only then it closes, and twelve seconds later the timer expires. -/
def answeredClosed : List (Label 1 1) :=
  answeredFirst ++ [.taskDone 0, .drained 0, .poll 0 [.conn 0], .dispatch 0, .close 0, .done 0,
    .tick 12, .poll 0 [.timer], .dispatch 0]

/-- The sub-loop has neither tasks nor events left, its handler stands at the client on descriptor 5,
and that one is closed. -/
structure FirstClosed (state : Server 1 1) : Prop where
  loop : state.loops 0 = { conns := [(6, 1), (5, 0)], handler := .sweeping 12 (some 5) }
  worker : state.workers 0 = .idle
  closed : (state.info 0).disconn = true

theorem firstClosed_of_run {labels : List (Label 1 1)}
    (run : (exec step (Server.start : Server 1 1) labels).map (fun state =>
        ((state.loops 0).conns, (state.loops 0).batch, (state.loops 0).handler,
          (state.loops 0).tasks, state.workers 0, (state.info 0).disconn)) =
      some ([(6, 1), (5, 0)], [], .sweeping 12 (some 5), [], .idle, true))
    {state : Server 1 1} (ran : exec step Server.start labels = some state) : FirstClosed state := by
  rw [ran, Option.map_some, Option.some.injEq] at run
  simp only [Prod.mk.injEq] at run
  obtain ⟨conns, batch, handler, tasks, worker, closed⟩ := run
  refine ⟨?_, worker, closed⟩
  rw [← conns, ← batch, ← handler, ← tasks]

theorem closedFirst_ends {state : Server 1 1}
    (ran : exec step Server.start closedFirst = some state) : FirstClosed state :=
  firstClosed_of_run rfl ran

theorem answeredClosed_ends {state : Server 1 1}
    (ran : exec step Server.start answeredClosed = some state) : FirstClosed state :=
  firstClosed_of_run rfl ran

/-- A run in which the timer has not expired evicts nobody. -/
theorem evictOk_quiet {watched : Server 1 1 → ConnId → Prop} {labels : List (Label 1 1)}
    (quiet : ∀ loop, .sweep loop ∉ labels) : Along step (EvictOk watched) Server.start labels := by
  refine along_of_forall fun label member state => ?_
  rintro loop now key conn rfl
  exact absurd member (quiet loop)

/-- The timer then evicts a disconnected client. -/
theorem evictOk_closed {watched : Server 1 1 → ConnId → Prop} {labels : List (Label 1 1)}
    (quiet : ∀ loop, .sweep loop ∉ labels)
    (ends : ∀ state, exec step Server.start labels = some state → FirstClosed state)
    (unwatched : ∀ state, FirstClosed state → ¬ watched state 0) :
    Along step (EvictOk watched) Server.start (labels ++ [.sweep 0]) := by
  refine along_append (evictOk_quiet quiet) fun state ran => ?_
  refine fun _ _ => ⟨fun loop now key conn _ evicts => ?_, trivial⟩
  have closed := ends state ran
  obtain ⟨standing, found, _⟩ := evicts
  rw [Subsingleton.elim loop 0, closed.loop] at standing found
  cases standing
  cases found
  exact ⟨.inl closed.closed, unwatched state closed⟩

/-! ### Tasks -/

/-- A task bound to the connection is queued or running, or a worker is about to push one. -/
def TaskPending (state : Server thds works) (conn : ConnId) : Prop :=
  (∃ loop, conn ∈ (state.loops loop).tasks ∨ (state.loops loop).handler = .task conn) ∨
    ∃ worker, state.workers worker = .passed conn

section Tasks

variable [NeZero thds]

theorem taskPending_watch : Watch (TaskPending : Server thds works → ConnId → Prop) where
  start conn := by
    rintro (⟨loop, queued | running⟩ | ⟨worker, passed⟩)
    · cases queued
    · cases running
    · cases passed
  new sound took conn pending := by
    have uses := step_uses took
    rcases pending with ⟨loop, queued | running⟩ | ⟨worker, passed⟩
    · rcases uses.tasks loop conn queued with earlier | pushing
      · exact .inl (.inl ⟨loop, .inl earlier⟩)
      · exact .inl (.inr pushing)
    · rcases uses.task loop conn running with earlier | queued
      · exact .inl (.inl ⟨loop, .inr earlier⟩)
      · exact .inl (.inl ⟨loop, .inl queued⟩)
    · rcases uses.passed worker conn passed with earlier | ⟨handling, connected⟩
      · exact .inl (.inr ⟨worker, earlier⟩)
      · refine .inr ⟨sound.alive conn (.inr (.inr (.inr (.inr ⟨worker, ?_⟩)))), connected⟩
        rw [handling]
        rfl
  swept {state loop now key} conn pending := by
    have uses := uses_evict state loop now key
    rcases pending with ⟨other, queued | running⟩ | pushing
    · rcases uses.tasks other conn queued with earlier | pushing
      · exact .inl ⟨other, .inl earlier⟩
      · exact .inr pushing
    · rcases uses.task other conn running with earlier | queued
      · exact .inl ⟨other, .inr earlier⟩
      · exact .inl ⟨other, .inl queued⟩
    · exact .inr pushing

/-- **When a queued send does not outlive its connection.** In every run that evicts a connection
only when it is disconnected or nothing but the tables owns it, and when no task bound to it is
queued or running and no worker is between the test of `_disconn` and the push of one, every task
that runs finds its connection alive. -/
theorem tasks_alive {labels : List (Label thds works)}
    (allowed : Along step (EvictOk TaskPending) Server.start labels) :
    Always step (fun state => ∀ loop conn, (state.loops loop).handler = .task conn →
      conn ∈ state.live) Server.start labels :=
  (watched_alive taskPending_watch allowed).mono fun _ alive loop conn running =>
    alive conn (.inl ⟨loop, .inr running⟩)

end Tasks

/-- A client's message is answered by a task, which finds its connection alive; the client is closed
and evicted after that. -/
theorem tasks_alive_closed :
    (∃ state, exec step (Server.start : Server 1 1) answeredFirst = some state ∧
      (state.loops 0).handler = .task 0 ∧ 0 ∈ state.live) ∧
    Always step (fun state => ∀ loop conn, (state.loops loop).handler = .task conn →
      conn ∈ state.live) (Server.start : Server 1 1) (answeredClosed ++ [.sweep 0]) := by
  constructor
  · have run : (exec step (Server.start : Server 1 1) answeredFirst).map
        (fun state => (state.loops 0).handler) = some (.task 0) := by
      rfl
    obtain ⟨state, ran, running⟩ := Option.map_eq_some_iff.mp run
    have quiet : ∀ loop, .sweep loop ∉ answeredFirst := by
      simp [answeredFirst, twoClients, oneMessage, answer]
    exact ⟨state, ran, running, (tasks_alive (evictOk_quiet quiet)).last ran 0 0 running⟩
  · refine tasks_alive (evictOk_closed ?_ (fun _ => answeredClosed_ends) fun state closed => ?_)
    · simp [answeredClosed, answeredFirst, twoClients, oneMessage, answer]
    · rintro (⟨loop, pending⟩ | ⟨worker, passed⟩)
      · rw [Subsingleton.elim loop 0, closed.loop] at pending
        rcases pending with queued | running
        · cases queued
        · cases running
      · rw [Subsingleton.elim worker 0, closed.worker] at passed
        cases passed

/-! ### Dispatch -/

/-- An event of the connection is left in a batch, or its handler is running. -/
def EventPending (state : Server thds works) (conn : ConnId) : Prop :=
  ∃ loop, Source.conn conn ∈ (state.loops loop).batch ∨ (state.loops loop).handler = .conn conn

theorem evict_batch (state : Server thds works) (loop : Fin thds) (now : Int) (key : Nat)
    (other : Fin thds) :
    ((state.evict loop now key).loops other).batch = (state.loops other).batch := by
  unfold evict setLoop collect
  simp only
  by_cases here : other = loop
  · rw [here, Function.update_self]
  · rw [Function.update_of_ne here]

section Dispatch

variable [NeZero thds]

theorem eventPending_watch : Watch (EventPending : Server thds works → ConnId → Prop) where
  start conn := by
    rintro ⟨loop, waiting | running⟩
    · cases waiting
    · cases running
  new _ took conn pending := by
    have uses := step_uses took
    obtain ⟨loop, waiting | running⟩ := pending
    · rcases uses.batch loop conn waiting with earlier | reported
      · exact .inl ⟨loop, .inl earlier⟩
      · exact .inr reported
    · rcases uses.handler loop conn running with earlier | waiting
      · exact .inl ⟨loop, .inr earlier⟩
      · exact .inl ⟨loop, .inl waiting⟩
  swept {state loop now key} conn pending := by
    obtain ⟨other, waiting | running⟩ := pending
    · rw [evict_batch] at waiting
      exact ⟨other, .inl waiting⟩
    · rcases (uses_evict state loop now key).handler other conn running with earlier | waiting
      · exact ⟨other, .inr earlier⟩
      · exact ⟨other, .inl waiting⟩

/-- **When dispatch reaches live channels only.** In every run that evicts a connection only when it
is disconnected or nothing but the tables owns it, and when no event of it is left in a batch and no
handler of it is running, every handler finds its connection alive when it is called, and until it
returns. -/
theorem dispatch_alive {labels : List (Label thds works)}
    (allowed : Along step (EvictOk EventPending) Server.start labels) :
    Always step (fun state => ∀ loop conn, (state.loops loop).handler = .conn conn →
      conn ∈ state.live) Server.start labels :=
  (watched_alive eventPending_watch allowed).mono fun _ alive loop conn running =>
    alive conn ⟨loop, .inr running⟩

end Dispatch

/-- A closed client is evicted. -/
theorem dispatch_alive_closed :
    Always step (fun state => ∀ loop conn, (state.loops loop).handler = .conn conn →
      conn ∈ state.live) (Server.start : Server 1 1) (closedFirst ++ [.sweep 0]) := by
  refine dispatch_alive (evictOk_closed ?_ (fun _ => closedFirst_ends) fun state closed => ?_)
  · simp [closedFirst, twoClients]
  · rintro ⟨loop, pending⟩
    rw [Subsingleton.elim loop 0, closed.loop] at pending
    rcases pending with waiting | running
    · cases waiting
    · cases running

/-! ### Runs that use a destroyed connection -/

/-- The timer expires, and finds nobody idle for too long. -/
def calmTimer : List (Label 1 1) :=
  [.poll 0 [.timer], .dispatch 0, .sweep 0, .sweep 0, .sweep 0]

/-- Twelve seconds pass, the timer expiring after two and seven of them. -/
def twelveSeconds : List (Label 1 1) :=
  [.tick 2] ++ calmTimer ++ [.tick 5] ++ calmTimer ++ [.tick 5]

/-- The timer evicts the first client. -/
def evictFirst : List (Label 1 1) :=
  [.dispatch 0, .sweep 0, .sweep 0]

/-- **A task that outlives its connection.** The worker takes twelve seconds to answer; the loop then
has its timer and its eventfd in one batch. -/
theorem task_outlives :
    ¬ Always step (fun state => ∀ loop conn, (state.loops loop).handler = .task conn →
      conn ∈ state.live) Server.start
      (twoClients ++ oneMessage ++ twelveSeconds ++ answer ++ [.poll 0 [.timer, .weak]] ++
        evictFirst ++ [.dispatch 0, .runTask 0]) := by
  have run : (exec step (Server.start : Server 1 1)
      (twoClients ++ oneMessage ++ twelveSeconds ++ answer ++ [.poll 0 [.timer, .weak]] ++
        evictFirst ++ [.dispatch 0, .runTask 0])).map
        (fun state => ((state.loops 0).handler, state.live)) = some (.task 0, [1]) := by
    decide +kernel
  obtain ⟨final, ran, last⟩ := Option.map_eq_some_iff.mp run
  simp only [Prod.mk.injEq] at last
  intro alive
  have member := alive.last ran 0 0 last.1
  rw [last.2] at member
  exact absurd member (by decide)

/-- **A dispatch to a destroyed connection.** After twelve seconds without a message the client
sends one, and the loop has its timer and the client's channel in one batch. -/
theorem dispatch_outlives :
    ¬ Always step (fun state => ∀ loop conn, (state.loops loop).handler = .conn conn →
      conn ∈ state.live) Server.start
      (twoClients ++ twelveSeconds ++ [.poll 0 [.timer, .conn 0]] ++ evictFirst ++ [.dispatch 0]) := by
  have run : (exec step (Server.start : Server 1 1)
      (twoClients ++ twelveSeconds ++ [.poll 0 [.timer, .conn 0]] ++ evictFirst ++ [.dispatch 0])).map
        (fun state => ((state.loops 0).handler, state.live)) = some (.conn 0, [1]) := by
    decide +kernel
  obtain ⟨final, ran, last⟩ := Option.map_eq_some_iff.mp run
  simp only [Prod.mk.injEq] at last
  intro alive
  have member := alive.last ran 0 0 last.1
  rw [last.2] at member
  exact absurd member (by decide)

end Server

end IkunSvr
