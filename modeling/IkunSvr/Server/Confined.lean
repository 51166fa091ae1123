/-
**A connection belongs to one sub-loop: `fd % thd_count`.**

Nothing in a `connect` is guarded by a mutex: not its two buffers, its channel, `_disconn` or
`_last_at_time`. What keeps two sub-loops' threads off them is that a sub-loop handles only the
connections that are its own, whoever asked it to (the main loop's thread, which may still set the
connection up, is another matter, and so is a worker in `connect::send`):

* epoll reports to a loop the channels registered with it (`loopStep_batch`);
* a worker pushes the `send_in_loop` of a connection on the queue of the connection's loop
  (`step_bound`);
* the timer handler visits the entries of the loop's own table (`Keyed.keys`);
* a descriptor does not change, even of an object that no longer exists (`Homed`).

`loops_apart` — **in every run no two sub-loops' threads are in one connection at a time**, and the
one that is has the number `fd % thd_count`.
-/

import IkunSvr.Server.Lifetime

namespace IkunSvr

namespace Server

open Run

variable {thds works : Nat}

/-- The loop's thread is in a handler of the connection's channel, in a `send_in_loop` bound to the
connection, or in `handle_timer` at the connection's entry. -/
def Touches (state : Server thds works) (loop : Fin thds) (conn : ConnId) : Prop :=
  match (state.loops loop).handler with
  | .conn other => other = conn
  | .task other => other = conn
  | .sweeping _ (some key) => (state.loops loop).conns.get key = some conn
  | _ => False

/-- A sub-loop's thread is in a handler or a task of the connection, or will come to one. -/
inductive Bound (sub : SubLoop) (conn : ConnId) : Prop
  | queued (member : conn ∈ sub.tasks)
  | task (running : sub.handler = .task conn)
  | waiting (member : Source.conn conn ∈ sub.batch)
  | handler (running : sub.handler = .conn conn)

section Steps

variable {state next : Server thds works}

/-- A thread that moves on has what it had in hand, or what the step puts in its batch. -/
theorem Moves.bound {loop : Fin thds} {sub : SubLoop} (moves : state.Moves loop sub) {conn : ConnId}
    (bound : Bound sub conn) : Bound (state.loops loop) conn ∨ Source.conn conn ∈ sub.batch := by
  cases bound with
  | queued member => exact .inl (.queued (moves.tasks conn member))
  | task running => exact .inl ((moves.task conn running).elim .task .queued)
  | waiting member => exact .inr member
  | handler running => exact .inl ((moves.handler conn running).elim .handler .waiting)

variable [NeZero thds]

/-- A batch has the channels that were in it, and those that epoll has registered with the loop. -/
theorem loopStep_batch {loop : Fin thds} {label : Label thds works}
    (took : state.loopStep loop label = some next) (other : Fin thds) (conn : ConnId)
    (member : Source.conn conn ∈ (next.loops other).batch) :
    Source.conn conn ∈ (state.loops other).batch ∨ conn ∈ state.live ∧ state.home conn = other := by
  have moved : ∀ sub, next.loops = (state.setLoop loop sub).loops →
      (∀ source ∈ sub.batch, source ∈ (state.loops loop).batch) →
      Source.conn conn ∈ (state.loops other).batch := by
    intro sub loops batch
    rw [loops] at member
    rcases setLoop_loops state loop sub other with ⟨rfl, here⟩ | ⟨_, elsewhere⟩
    · rw [here] at member
      exact batch _ member
    · rw [elsewhere] at member
      exact member
  unfold loopStep at took
  split at took
  · split at took
    · split at took
      · rename_i ready
        cases took
        rcases setLoop_loops state loop { state.loops loop with batch := _ } other with
          ⟨rfl, here⟩ | ⟨_, elsewhere⟩
        · rw [here] at member
          obtain ⟨live, _, home⟩ := ready.2 _ member
          exact .inr ⟨live, home⟩
        · rw [elsewhere] at member
          exact .inl member
      · cases took
    · cases took
  · split at took
    · rename_i source batch idle waiting
      cases took
      refine .inl (moved _ rfl fun source left => ?_)
      rw [waiting]
      exact List.mem_cons_of_mem _ left
    · cases took
  · split at took
    · split at took
      · cases took
        exact .inl member
      · cases took
    · cases took
  · split at took
    · split at took
      · cases took
        exact .inl member
      · cases took
    · cases took
  · split at took
    · split at took
      · cases took
        exact .inl member
      · cases took
    · cases took
  · split at took
    · split at took
      · cases took
        exact .inl (moved _ rfl fun _ => id)
      · cases took
    · cases took
  · split at took
    · cases took
      exact .inl (moved _ rfl fun _ => id)
    · cases took
  · split at took
    · split at took
      · cases took
        exact .inl (moved _ rfl fun _ => id)
      · cases took
    · cases took
  · split at took
    · cases took
      exact .inl (moved _ rfl fun _ => id)
    · cases took
  · split at took
    · split at took
      · split at took
        · cases took
          exact .inl (moved _ rfl fun _ => id)
        · cases took
          exact .inl (moved _ rfl fun _ => id)
      · cases took
    · cases took
      exact .inl (moved _ rfl fun _ => id)
    · cases took
  · cases took

/-- A step of a sub-loop moves its own thread on, or none. -/
theorem loopStep_moves {loop : Fin thds} {label : Label thds works}
    (took : state.loopStep loop label = some next) :
    next.loops = state.loops ∨
      ∃ sub, next.loops = (state.setLoop loop sub).loops ∧ state.Moves loop sub := by
  rcases loopStep_cases took with ⟨sub, rfl, _, moves⟩ | ⟨_, _, _, rfl⟩ | ⟨_, _, _, _, _, _, rfl⟩ |
    ⟨_, now, key, _, _, _, rfl⟩
  · exact .inr ⟨sub, rfl, moves⟩
  · exact .inl rfl
  · exact .inl rfl
  · refine .inr ⟨_, rfl, moves_handler _ (fun conn => ?_) fun conn => ?_⟩
    · split <;> exact nofun
    · split <;> exact nofun

/-- What a step of a sub-loop binds to a loop is a connection that is alive and the loop's own. -/
theorem loopStep_bound {loop : Fin thds} {label : Label thds works}
    (took : state.loopStep loop label = some next) {other : Fin thds} {conn : ConnId}
    (bound : Bound (next.loops other) conn) :
    Bound (state.loops other) conn ∨ conn ∈ state.live ∧ state.home conn = other := by
  rcases loopStep_moves took with loops | ⟨sub, loops, moves⟩
  · rw [loops] at bound
    exact .inl bound
  · rcases setLoop_loops state loop sub other with ⟨rfl, here⟩ | ⟨_, elsewhere⟩
    · rw [← loops] at here
      rcases moves.bound (here ▸ bound) with earlier | member
      · exact .inl earlier
      · rw [← here] at member
        exact (loopStep_batch took other conn member).imp_left .waiting
    · rw [loops, elsewhere] at bound
      exact .inl bound

/-- What a worker binds to a loop is the connection of its task, which is the loop's own. -/
theorem workerStep_bound (keyed : Keyed state) {worker : Fin works} {label : Label thds works}
    (took : state.workerStep worker label = some next) {other : Fin thds} {conn : ConnId}
    (bound : Bound (next.loops other) conn) :
    Bound (state.loops other) conn ∨ conn ∈ state.live ∧ state.home conn = other := by
  rcases workerStep_cases took with ⟨_, _, _, _, rfl⟩ | ⟨_, rfl, _⟩ | ⟨task, passed, _, rfl⟩ |
    ⟨_, _, rfl⟩
  · exact .inl bound
  · exact .inl bound
  · rcases setLoop_loops (state.setWorker worker (.added task)) (state.home task) _ other with
      ⟨rfl, here⟩ | ⟨_, elsewhere⟩
    · rw [here] at bound
      cases bound with
      | queued member =>
          rcases List.mem_append.mp member with earlier | pushed
          · exact .inl (.queued earlier)
          · obtain rfl := List.mem_singleton.mp pushed
            refine .inr ⟨keyed.alive conn (.inr (.inr (.inr (.inr ⟨worker, ?_⟩)))), rfl⟩
            rw [passed]
            rfl
      | task running => exact .inl (.task running)
      | waiting member => exact .inl (.waiting member)
      | handler running => exact .inl (.handler running)
    · rw [elsewhere] at bound
      exact .inl bound
  · exact .inl bound

/-- The main thread enters a connection in a table, and binds none. -/
theorem mainStep_bound {label : Label thds works} (took : state.mainStep label = some next)
    {loop : Fin thds} {conn : ConnId} (bound : Bound (next.loops loop) conn) :
    Bound (state.loops loop) conn := by
  rcases mainStep_cases took with ⟨_, _, _, rfl⟩ | ⟨_, _, _, _, rfl⟩ | ⟨other, _, rfl⟩ |
    ⟨_, _, rfl⟩ | ⟨_, _, rfl⟩
  · exact bound
  · exact bound
  · have enlisted := setLoop_loops state (state.home other) { state.loops (state.home other) with
      conns := (state.loops (state.home other)).conns.set (state.info other).fd other } loop
    rcases enlisted with ⟨rfl, here⟩ | ⟨_, elsewhere⟩
    · cases here ▸ bound with
      | queued member => exact .queued member
      | task running => exact .task running
      | waiting member => exact .waiting member
      | handler running => exact .handler running
    · exact elsewhere ▸ bound
  · exact bound
  · exact bound

/-- **What a step binds to a loop is a connection that is alive and the loop's own.** -/
theorem step_bound (keyed : Keyed state) {label : Label thds works}
    (took : state.step label = some next) {loop : Fin thds} {conn : ConnId}
    (bound : Bound (next.loops loop) conn) :
    Bound (state.loops loop) conn ∨ conn ∈ state.live ∧ state.home conn = loop := by
  unfold step at took
  cases label with
  | tick seconds =>
      cases took
      exact .inl bound
  | accept fd | setCb | enlist | publish | ret =>
      exact .inl (mainStep_bound took bound)
  | poll loop batch | dispatch loop | deliver loop | close loop | error loop | done loop
  | runTask loop | taskDone loop | drained loop | sweep loop => exact loopStep_bound took bound
  | take worker | test worker | push worker | weakup worker | finish worker =>
      exact workerStep_bound keyed took bound

/-! ### Runs -/

/-- A connection that a loop's thread is in or will come to has been constructed, and is the loop's
own. -/
structure Homed (state : Server thds works) : Prop where
  keyed : Keyed state
  bound : ∀ loop conn, Bound (state.loops loop) conn → conn < state.nextId ∧ state.home conn = loop

theorem homed_start : Homed (Server.start : Server thds works) := by
  refine ⟨keyed_start, fun loop conn bound => ?_⟩
  cases bound with
  | queued member => cases member
  | task running => cases running
  | waiting member => cases member
  | handler running => cases running

/-- No step changes the sub-loop of a connection that has been constructed. -/
theorem home_step (keyed : Keyed state) {label : Label thds works}
    (took : state.step label = some next) {conn : ConnId} (known : conn < state.nextId) :
    conn < next.nextId ∧ next.home conn = state.home conn := by
  rcases step_cases keyed.alive took with frame | ⟨fd, _, _, rfl⟩ | ⟨_, _, rfl⟩ |
    ⟨_, _, _, _, _, _, rfl⟩
  · rw [frame.nextId]
    exact ⟨known, home_eq (frame.fd conn)⟩
  · have same : (state.construct fd).info conn = state.info conn :=
      Function.update_of_ne (Nat.ne_of_lt known) _ _
    exact ⟨Nat.lt_succ_of_lt known, home_eq (congrArg ConnInfo.fd same)⟩
  · exact ⟨known, rfl⟩
  · exact ⟨known, rfl⟩

theorem homed_step (homed : Homed state) {label : Label thds works}
    (took : state.step label = some next) : Homed next := by
  refine ⟨keyed_step homed.keyed took, fun loop conn bound => ?_⟩
  have before : conn < state.nextId ∧ state.home conn = loop := by
    rcases step_bound homed.keyed took bound with earlier | ⟨live, home⟩
    · exact homed.bound loop conn earlier
    · exact ⟨homed.keyed.fresh conn live, home⟩
  obtain ⟨known, same⟩ := home_step homed.keyed took before.1
  exact ⟨known, same.trans before.2⟩

/-- A loop's thread is in its own connections only. -/
theorem Homed.touches (homed : Homed state) {loop : Fin thds} {conn : ConnId}
    (touches : state.Touches loop conn) : state.home conn = loop := by
  unfold Touches at touches
  split at touches
  · rename_i other running
    cases touches
    exact (homed.bound loop _ (.handler running)).2
  · rename_i other running
    cases touches
    exact (homed.bound loop _ (.task running)).2
  · exact (homed.keyed.keys loop _ (Table.mem_of_get touches)).2
  · cases touches

/-- **No two sub-loops' threads are in one connection at a time**, in any run of the server: a thread
in a handler of a connection, in a `send_in_loop` bound to it, or at its entry in `handle_timer`, is
that of the sub-loop `fd % thd_count`. -/
theorem loops_apart (labels : List (Label thds works)) :
    Always step (fun state => ∀ loop conn, state.Touches loop conn →
      (state.info conn).fd % thds = loop ∧ ∀ other, state.Touches other conn → other = loop)
      Server.start labels := by
  have homed : Always step Homed (Server.start : Server thds works) labels :=
    always_of_step (fun _ _ _ homed took => homed_step homed took) homed_start labels
  refine homed.mono fun state homed loop conn touches => ?_
  have home : state.home conn = loop := homed.touches touches
  refine ⟨?_, fun other also => (homed.touches also).symm.trans home⟩
  rw [← home]
  rfl

/-- Two sub-loops' threads are each in a connection of their own. -/
theorem loops_apart_two :
    ∃ state : Server 2 0, exec step Server.start
        ([4, 5].flatMap (fun fd =>
            [.accept fd, .setCb, .setCb, .setCb, .setCb, .enlist, .publish, .ret]) ++
          [.poll 0 [.conn 0], .dispatch 0, .poll 1 [.conn 1], .dispatch 1]) = some state ∧
      state.Touches 0 0 ∧ state.Touches 1 1 ∧ ∀ other, state.Touches other 0 → other = 0 := by
  have run : ∃ state : Server 2 0, exec step Server.start
      ([4, 5].flatMap (fun fd =>
          [.accept fd, .setCb, .setCb, .setCb, .setCb, .enlist, .publish, .ret]) ++
        [.poll 0 [.conn 0], .dispatch 0, .poll 1 [.conn 1], .dispatch 1]) = some state ∧
      (state.loops 0).handler = .conn 0 ∧ (state.loops 1).handler = .conn 1 :=
    ⟨_, rfl, rfl, rfl⟩
  obtain ⟨state, ran, first, second⟩ := run
  have touches : state.Touches 0 0 := by
    rw [Touches, first]
  refine ⟨state, ran, touches, ?_, ?_⟩
  · rw [Touches, second]
  · exact ((loops_apart _).last ran 0 0 touches).2

end Steps

end Server

end IkunSvr
