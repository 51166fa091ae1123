/-
**The mutexes of the server, and who waits for them.**

There are those of the logger, of the `tcpsvr`, of each event loop, of each thread pool and of each
actor. For every function that threads call, what it does with them: the loops and branches of the
function are parameters, and so is which `shared_ptr` dropped on the way was the last one, since
`~connect` prints. A function that waits on a condition variable is a call up to the wait, which
releases the mutex, and another from there on. The joins of `shut_down` and the locks inside the C
library are not part of this.

* `holds_for_logger` — who waits for a mutex and holds another waits for the logger's;
* `calls_return` — **any number of threads may call the functions in any order, none comes to wait for
  itself, and all their calls return**;
* `signal_print_returns_iff` — **the first call of the handler of a signal, to `print`, returns exactly
  when the thread it interrupts does not hold the logger's mutex**.
-/

import IkunSvr.Lib.Locks

namespace IkunSvr

open Run Locks

namespace Mutexes

/-- The two pools of an `echosvr`. -/
inductive Pool
  /-- `echosvr::_wrok_pool` -/
  | work
  /-- `tcpsvr::_thd_pool` -/
  | io
  deriving DecidableEq, Repr

/-- The mutexes. -/
inductive Mutex (thds : ℕ)
  /-- `logger::_mutex` -/
  | logger
  /-- `tcpsvr::_mutex` -/
  | tcpsvr
  /-- `eventloop::_mutex`, of a sub-loop or of the main loop -/
  | loop (loop : Option (Fin thds))
  /-- `threadpool::_mutex` -/
  | pool (pool : Pool)
  /-- `actor::_mutex` -/
  | actor (actor : ℕ)
  deriving DecidableEq, Repr

variable {thds : ℕ}

/-- What a function does with the mutexes. -/
abbrev Body (thds : ℕ) :=
  List (Act (Mutex thds))

/-! ### The functions -/

/-- `logger::push_log`, whether it can open the file or not. -/
def pushLog : Body thds :=
  [.lock .logger, .unlock .logger]

/-- `print`. -/
def print : Body thds :=
  pushLog

/-- `connect::~connect`. -/
def destroy : Body thds :=
  print

/-- A `shared_ptr` of a connection is dropped. -/
def drop (last : Bool) : Body thds :=
  if last then destroy else []

/-- `eventloop::add`; `weakup` takes no mutex. -/
def add (loop : Option (Fin thds)) : Body thds :=
  guarded (.loop loop) []

/-- `connect::send_in_loop`. -/
def sendInLoop : Body thds :=
  print

/-- The way `connect::send` takes. -/
inductive SendPath
  | disconnected
  | inLoop
  | toLoop
  deriving DecidableEq, Repr

/-- `connect::send`, for a connection of the loop. -/
def send (loop : Fin thds) : SendPath → Body thds
  | .disconnected => print
  | .inLoop => sendInLoop
  | .toLoop => add (some loop)

/-- `threadpool::add`. -/
def poolAdd (pool : Pool) : Body thds :=
  guarded (.pool pool) []

/-- `echosvr::handle_msg`: the way of `send` if there are no workers. -/
def handleMsg (loop : Fin thds) : Option SendPath → Body thds
  | some path => send loop path
  | none => poolAdd .work

/-- `connect::on_close` and `tcpsvr::_on_conn_close`. -/
def onClose (inside after : Bool) : Body thds :=
  print ++ print ++ guarded .tcpsvr (drop inside) ++ drop after

/-- `connect::on_error` and `tcpsvr::_on_conn_error`. -/
def onError (inside after : Bool) : Body thds :=
  guarded .tcpsvr (drop inside) ++ drop after

/-- What `connect::on_msg` finds after the reads that gave nothing: nothing more to read, or the end. -/
inductive Received
  | messages (each : List (Option SendPath × Bool))
  | ended (inside after : Bool)
  deriving Repr

/-- `connect::on_msg`, which prints at each of the `failed` reads. -/
def onMsg (loop : Fin thds) (failed : ℕ) : Received → Body thds
  | .messages each =>
      (List.replicate failed print).flatten ++
        (each.map fun msg => print ++ handleMsg loop msg.1 ++ drop msg.2).flatten
  | .ended inside after =>
      (List.replicate failed print).flatten ++ print ++ onClose inside after

/-- `connect::writecb` and `tcpsvr::_on_post_send`. -/
def writecb (after : Bool) : Body thds :=
  drop after

/-- `eventloop::handle_weakup`, whose tasks are `send_in_loop`. -/
def handleWeakup (loop : Option (Fin thds)) (tasks : ℕ) : Body thds :=
  guarded (.loop loop) (List.replicate tasks sendInLoop).flatten

/-- `tcpsvr::remove_conn`. -/
def removeConn (last : Bool) : Body thds :=
  guarded .tcpsvr (drop last)

/-- `eventloop::handle_timer` of a sub-loop: `_timer_cb` and the erasing, for each entry it evicts. -/
def handleTimer (loop : Fin thds) (evicted : List (Bool × Bool)) : Body thds :=
  (evicted.map fun last => removeConn last.1 ++ guarded (.loop (some loop)) (drop last.2)).flatten

/-- `acceptor::new_conn` and `tcpsvr::_on_new_conn`: an entry of a table may be replaced. -/
def newConn (inLoop inServer after : Bool) : Body thds :=
  print ++ guarded .tcpsvr (drop inLoop) ++ drop inServer ++ drop after

/-- A thread of a pool looks at the queue: it blocks, takes a task or returns. -/
def look (pool : Pool) : Body thds :=
  guarded (.pool pool) []

/-- A worker's task, `echosvr::on_msg`, which it drops. -/
def answer (loop : Fin thds) (path : SendPath) (last : Bool) : Body thds :=
  send loop path ++ drop last

/-- `actor::dispatch`; and an actor's session looks at its queue in the same way. -/
def dispatch (actor : ℕ) : Body thds :=
  guarded (.actor actor) []

/-- What threads call: the handlers of the event loops, the turns of the pools' threads and of the
actors, and what other threads call of them. -/
inductive Call (thds : ℕ)
  /-- a line printed by the threads' own functions, and by `shut_down` between its joins -/
  | print
  | handleWeakup (loop : Option (Fin thds)) (tasks : ℕ)
  | handleTimer (loop : Fin thds) (evicted : List (Bool × Bool))
  | onMsg (loop : Fin thds) (failed : ℕ) (received : Received)
  | onClose (inside after : Bool)
  | onError (inside after : Bool)
  | writecb (after : Bool)
  | newConn (inLoop inServer after : Bool)
  | look (pool : Pool)
  | answer (loop : Fin thds) (path : SendPath) (last : Bool)
  | add (loop : Option (Fin thds))
  | poolAdd (pool : Pool)
  | dispatch (actor : ℕ)

/-- What a call does with the mutexes. -/
def Call.body : Call thds → Body thds
  | .print => Mutexes.print
  | .handleWeakup loop tasks => Mutexes.handleWeakup loop tasks
  | .handleTimer loop evicted => Mutexes.handleTimer loop evicted
  | .onMsg loop failed received => Mutexes.onMsg loop failed received
  | .onClose inside after => Mutexes.onClose inside after
  | .onError inside after => Mutexes.onError inside after
  | .writecb after => Mutexes.writecb after
  | .newConn inLoop inServer after => Mutexes.newConn inLoop inServer after
  | .look pool => Mutexes.look pool
  | .answer loop path last => Mutexes.answer loop path last
  | .add loop => Mutexes.add loop
  | .poolAdd pool => Mutexes.poolAdd pool
  | .dispatch actor => Mutexes.dispatch actor

/-! ### The order -/

/-- The logger's mutex is above all others. -/
def rank : Mutex thds → ℕ
  | .logger => 1
  | _ => 0

theorem rank_lt {mutex other : Mutex thds} : rank mutex < rank other ↔
    mutex ≠ .logger ∧ other = .logger := by
  cases mutex <;> cases other <;> simp [rank]

variable {held : List (Mutex thds)}

/-- Whoever does not hold the logger's mutex may print. -/
theorem nests_print (free : Mutex.logger ∉ held) : Nests rank held print := by
  refine nests_guarded (fun other member => ?_) nests_nil
  exact rank_lt.mpr ⟨fun same => free (same ▸ member), rfl⟩

theorem nests_drop (free : Mutex.logger ∉ held) (last : Bool) : Nests rank held (drop last) := by
  cases last with
  | false => exact nests_nil
  | true => exact nests_print free

/-- Whoever holds nothing may lock any mutex, and print. -/
theorem nests_scope {mutex : Mutex thds} {body : Body thds} (inside : Nests rank [mutex] body) :
    Nests rank [] (guarded mutex body) :=
  nests_guarded nofun inside

theorem nests_add (loop : Option (Fin thds)) : Nests rank [] (add loop) :=
  nests_scope nests_nil

theorem nests_send (loop : Fin thds) (path : SendPath) : Nests rank [] (send loop path) := by
  cases path with
  | disconnected => exact nests_print List.not_mem_nil
  | inLoop => exact nests_print List.not_mem_nil
  | toLoop => exact nests_add _

theorem nests_onClose (inside after : Bool) : Nests rank [] (onClose inside after : Body thds) :=
  (((nests_print List.not_mem_nil).append (nests_print List.not_mem_nil)).append
    (nests_scope (nests_drop (by simp) inside))).append (nests_drop List.not_mem_nil after)

theorem nests_onMsg (loop : Fin thds) (failed : ℕ) (received : Received) :
    Nests rank [] (onMsg loop failed received) := by
  have failures : Nests rank [] (List.replicate failed (print : Body thds)).flatten :=
    nests_replicate failed (nests_print List.not_mem_nil)
  cases received with
  | messages each =>
      refine failures.append (nests_map each fun msg => ?_)
      refine ((nests_print List.not_mem_nil).append ?_).append (nests_drop List.not_mem_nil msg.2)
      cases msg.1 with
      | some path => exact nests_send loop path
      | none => exact nests_scope nests_nil
  | ended inside after =>
      exact (failures.append (nests_print List.not_mem_nil)).append (nests_onClose inside after)

/-- **Every call is orderly.** -/
theorem nests_body (call : Call thds) : Nests rank [] call.body := by
  cases call with
  | print => exact nests_print List.not_mem_nil
  | handleWeakup loop tasks =>
      exact nests_scope (nests_replicate tasks (nests_print (by simp)))
  | handleTimer loop evicted =>
      refine nests_map evicted fun last => ?_
      exact (nests_scope (nests_drop (by simp) last.1)).append
        (nests_scope (nests_drop (by simp) last.2))
  | onMsg loop failed received => exact nests_onMsg loop failed received
  | onClose inside after => exact nests_onClose inside after
  | onError inside after =>
      exact (nests_scope (nests_drop (by simp) inside)).append (nests_drop List.not_mem_nil after)
  | writecb after => exact nests_drop List.not_mem_nil after
  | newConn inLoop inServer after =>
      exact (((nests_print List.not_mem_nil).append (nests_scope (nests_drop (by simp) inLoop))).append
        (nests_drop List.not_mem_nil inServer)).append (nests_drop List.not_mem_nil after)
  | look pool => exact nests_scope nests_nil
  | answer loop path last => exact (nests_send loop path).append (nests_drop List.not_mem_nil last)
  | add loop => exact nests_add loop
  | poolAdd pool => exact nests_scope nests_nil
  | dispatch actor => exact nests_scope nests_nil

/-! ### The threads -/

section Threads

variable {Thread : Type*} [DecidableEq Thread]

/-- Who owns the mutexes, and what the threads have still to do. -/
abbrev Threads (Thread : Type*) (thds : ℕ) :=
  State Thread (Mutex thds)

/-- A step of a thread. -/
def step : Threads Thread thds → Label Thread (Call thds) → Option (Threads Thread thds) :=
  State.step Call.body

variable {state : Threads Thread thds}

theorem sound_reachable (reach : Reachable step {} state) : state.Sound rank :=
  reach.invariant (fun _ _ _ sound took => State.sound_step nests_body sound took)
    (State.sound_start rank)

/-- **Who waits for a mutex and holds another waits for the logger's.** -/
theorem holds_for_logger (reach : Reachable step {} state) {thread : Thread}
    {mutex wanted : Mutex thds} {rest : Body thds} (owned : state.owner mutex = some thread)
    (todo : state.todo thread = .lock wanted :: rest) : mutex ≠ .logger ∧ wanted = .logger := by
  obtain ⟨held, tidy⟩ := sound_reachable reach thread
  have orderly := tidy.orderly
  rw [todo] at orderly
  exact rank_lt.mp (orderly.1 mutex ((tidy.owns mutex).mp owned))

/-- **All calls return.** However many threads there are, whatever they call and in whichever order
they go on: nobody waits, through others or directly, for itself; the calls that have begun take a
bounded number of steps, if no other begins; and where no thread can go on, all of them have
returned. -/
theorem calls_return [Fintype Thread] {labels more : List (Label Thread (Call thds))}
    {final : Threads Thread thds} (ran : exec step {} labels = some state)
    (went : exec (only step Label.goes) state more = some final) :
    Waits.Acyclic state.Waits ∧ more.length ≤ state.measure ∧
      (Rests step Label.goes final → ∀ thread, final.todo thread = []) := by
  have reach : Reachable step {} state := ⟨labels, ran⟩
  exact ⟨(sound_reachable reach).acyclic, State.goes_end went,
    fun rests => (sound_reachable (reach.only went)).returned rests⟩

/-- A loop that runs a task waits for a thread that prints. -/
theorem calls_return_two :
    ∃ state final : Threads (Fin 2) 1, state.Waits 0 1 ∧ ¬ Relation.TransGen state.Waits 0 0 ∧
      ∀ thread, final.todo thread = [] := by
  have run : ∃ state final : Threads (Fin 2) 1,
      exec step {} [.call 0 (.handleWeakup (some 0) 1), .go 0, .call 1 .print, .go 1] = some state ∧
      exec (only step Label.goes) state [.go 1, .go 0, .go 0, .go 0] = some final ∧
      state.todo 0 = [.lock .logger, .unlock .logger, .unlock (.loop (some 0))] ∧
      state.owner .logger = some 1 ∧ final.todo 0 = [] ∧ final.todo 1 = [] :=
    ⟨_, _, rfl, rfl, rfl, rfl, rfl, rfl⟩
  obtain ⟨state, final, ran, went, waits, owned, first, second⟩ := run
  have idle : ∀ thread, final.todo thread = [] := by
    intro thread
    match thread with
    | 0 => exact first
    | 1 => exact second
  have rests : Rests step Label.goes final := by
    intro label goes
    cases label with
    | call => cases goes
    | go thread => simp [step, State.step, State.go, idle thread]
  obtain ⟨acyclic, -, returned⟩ := calls_return ran went
  exact ⟨state, final, ⟨_, _, waits, owned⟩, acyclic 0, returned rests⟩

/-- **The handler of a signal.** `shut_down` of the main program prints first, and the thread never gets
back to what it was doing: what it holds stays locked. However the calls that have begun go on, they
take a bounded number of steps, and where none can go on `print` has returned, exactly if the signal did
not interrupt the thread while it held the mutex of the logger. The rest of the handler is not part. -/
theorem signal_print_returns_iff [Fintype Thread] {labels : List (Label Thread (Call thds))}
    (ran : exec step {} labels = some state) (thread : Thread) :
    (∀ more final, exec (only step Label.goes) (state.divert thread print) more = some final →
      more.length ≤ (state.divert thread print).measure ∧
        (Rests step Label.goes final → final.todo thread = [])) ↔
      state.owner .logger ≠ some thread := by
  have sound : state.Sound rank := sound_reachable ⟨labels, ran⟩
  constructor
  · intro returns own
    obtain ⟨more, final, went, rests⟩ :=
      State.exists_rest (Call.body : Call thds → Body thds) (state.divert thread print)
    have stuck : final.todo thread = .lock .logger :: [.unlock .logger] := by
      have owns : (state.divert thread print).owner .logger = some thread := own
      refine State.stays_stuck owns ?_ (exec_of_only went)
      exact Function.update_self thread _ _
    have back := (returns more final went).2 rests
    rw [stuck] at back
    cases back
  · intro free more final went
    refine ⟨State.goes_end went, fun rests => ?_⟩
    -- the call it was in, with all its unlocks, is still to come: so the threads stay in order
    have diverted : ((state.divert thread print).postpone thread (state.todo thread)).Sound rank := by
      refine State.sound_divert sound fun held tidy => nests_print fun member => ?_
      exact free ((tidy.owns .logger).mpr member)
    have later : (final.postpone thread (state.todo thread)).Sound rank := by
      refine only_kept (fun now : Threads Thread thds =>
        (now.postpone thread (state.todo thread)).Sound rank) ?_ diverted went
      intro now label next goes holds took
      cases label with
      | call => cases goes
      | go other => exact State.sound_go_postponed holds took
    exact State.diverted_returned later rests

/-- A signal interrupts a thread that prints, and one that waits to print. -/
theorem signal_print_returns_iff_printing :
    ∃ (state : Threads (Fin 2) 1) (more : List (Label (Fin 2) (Call 1))) (final : Threads (Fin 2) 1),
      exec step {} [.call 0 .print, .go 0, .call 1 (.handleWeakup (some 0) 1), .go 1] = some state ∧
      exec (only step Label.goes) (state.divert 0 print) more = some final ∧
      Rests step Label.goes final ∧ final.todo 0 ≠ [] ∧
      ∀ more final, exec (only step Label.goes) (state.divert 1 print) more = some final →
        Rests step Label.goes final → final.todo 1 = [] := by
  have run : ∃ state : Threads (Fin 2) 1,
      exec step {} [.call 0 .print, .go 0, .call 1 (.handleWeakup (some 0) 1), .go 1] = some state ∧
      state.owner .logger = some 0 :=
    ⟨_, rfl, rfl⟩
  obtain ⟨state, ran, owned⟩ := run
  have stands := mt (signal_print_returns_iff ran 0).mp fun free => free owned
  push Not at stands
  obtain ⟨more, final, went, late⟩ := stands
  obtain ⟨rests, left⟩ := late (State.goes_end went)
  have returns := (signal_print_returns_iff ran 1).mpr (by rw [owned]; decide)
  exact ⟨state, more, final, ran, went, rests, left, fun more final went => (returns more final went).2⟩

end Threads

end Mutexes

end IkunSvr
