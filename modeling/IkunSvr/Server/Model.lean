/-
**The server: its threads, its tables of connections, and who owns a connection.**

`Server thds works` is a `tcpsvr` with `thds` sub-loops under an `echosvr` with `works` worker
threads. A `connect` object is a `ConnId`; `live` are the objects that exist. An object has as owners
the `shared_ptr`s in `tcpsvr::_conns`, in the `_conns` of its sub-loop, in the queue of the worker
pool, in a running worker task, and on the main thread's stack in `_on_new_conn` (`Owned`); it is
destroyed when the last of these is dropped (`collect`). The queue of an event loop holds the raw
`this` of `send_in_loop`.

A step is one thread's next action: the main thread accepts a client and sets it up (`accept`,
`setCb`, `enlist`, `publish`, `ret`); a sub-loop gets a batch from epoll and handles it (`poll`,
`dispatch`, and the steps of each handler); a worker answers a message (`take` to `finish`). A step
on an object that does not exist is undefined behaviour, and has no successor. What a step of each
thread can do is said once, in `mainStep_cases`, `loopStep_cases` and `workerStep_cases`.
-/

import Mathlib.Algebra.GroupWithZero.Nat
import Mathlib.Data.Fintype.Basic
import Mathlib.Logic.Function.Basic
import IkunSvr.Lib.Table

namespace IkunSvr

/-! ### The parts -/

/-- A `connect` object; the numbers are not used again. -/
abbrev ConnId := Nat

/-- What the server reads of a `connect`. -/
structure ConnInfo where
  fd : Nat := 0
  disconn : Bool := false
  lastAtTime : Int := 0

/-- A channel that `poller::loop` returns to a sub-loop. -/
inductive Source
  | weak
  | timer
  | conn (conn : ConnId)
  deriving DecidableEq, Repr

/-- What a sub-loop's thread is doing. -/
inductive Handler
  /-- between two calls of `handle_event` -/
  | idle
  /-- in a handler of the connection's channel -/
  | conn (conn : ConnId)
  /-- in `handle_weakup` between two tasks, with the mutex -/
  | draining
  /-- in `handle_weakup`, in `send_in_loop` of the connection -/
  | task (conn : ConnId)
  /-- in `handle_timer`, `now` being the time it has read and `it` the key its iterator stands at -/
  | sweeping (now : Int) (it : Option Nat)
  /-- behind an increment of the iterator `end()` -/
  | undefined
  deriving DecidableEq, Repr

/-- A sub-loop: `_conns`, what is left of the batch, the handler, and `_tasks`. -/
structure SubLoop where
  conns : Table ConnId := []
  batch : List Source := []
  handler : Handler := .idle
  tasks : List ConnId := []

/-- What a worker thread is doing, with the `shared_ptr` that its task is bound to. -/
inductive WorkerPc
  | idle
  /-- in `echosvr::on_msg` before `connect::send` has tested `_disconn` -/
  | handling (conn : ConnId)
  /-- behind that test, before `eventloop::add` has pushed -/
  | passed (conn : ConnId)
  /-- behind the push, before `weakup` -/
  | added (conn : ConnId)
  | finishing (conn : ConnId)
  deriving DecidableEq, Repr

/-- Where the main thread is. -/
inductive MainPc
  | idle
  /-- in `_on_new_conn`: the connection exists, its channel is registered, and the first `cbs` of
  `set_close_cb`, `set_error_cb`, `set_msg_cb` and `set_send_cb` have been called -/
  | setting (conn : ConnId) (cbs : Nat)
  /-- behind `new_conn` of the sub-loop -/
  | enlisted (conn : ConnId)
  /-- behind the insertion into `tcpsvr::_conns` -/
  | published (conn : ConnId)
  deriving DecidableEq, Repr

/-- The connection whose `shared_ptr` the main thread holds. -/
def MainPc.holds : MainPc → Option ConnId
  | .idle => none
  | .setting conn _ => some conn
  | .enlisted conn => some conn
  | .published conn => some conn

/-- The connection whose `shared_ptr` the worker's task holds. -/
def WorkerPc.holds : WorkerPc → Option ConnId
  | .idle => none
  | .handling conn => some conn
  | .passed conn => some conn
  | .added conn => some conn
  | .finishing conn => some conn

structure Server (thds works : Nat) where
  now : Int := 0
  nextId : ConnId := 0
  info : ConnId → ConnInfo := fun _ => {}
  live : List ConnId := []
  tcpConns : Table ConnId := []
  loops : Fin thds → SubLoop := fun _ => {}
  pool : List ConnId := []
  workers : Fin works → WorkerPc := fun _ => .idle
  main : MainPc := .idle

/-- The `time_out` of the sub-loops. -/
def timeOut : Int := 10

namespace Server

variable {thds works : Nat}

/-! ### Ownership -/

/-- An owner outside the tables: the main thread, the pool's queue, a worker's task. -/
def Held (state : Server thds works) (conn : ConnId) : Prop :=
  state.main.holds = some conn ∨ conn ∈ state.pool ∨
    ∃ worker, (state.workers worker).holds = some conn

/-- Some `shared_ptr` points to the connection. -/
def Owned (state : Server thds works) (conn : ConnId) : Prop :=
  (∃ entry ∈ state.tcpConns, entry.2 = conn) ∨
    (∃ loop, ∃ entry ∈ (state.loops loop).conns, entry.2 = conn) ∨ state.Held conn

instance (state : Server thds works) (conn : ConnId) : Decidable (state.Held conn) :=
  inferInstanceAs (Decidable (_ ∨ _ ∨ _))

instance (state : Server thds works) (conn : ConnId) : Decidable (state.Owned conn) :=
  inferInstanceAs (Decidable (_ ∨ _ ∨ _))

/-- After a `shared_ptr` has been dropped: what has no owner left is destroyed. -/
def collect (state : Server thds works) : Server thds works :=
  { state with live := state.live.filter fun conn => state.Owned conn }

/-! ### Steps -/

inductive Label (thds works : Nat)
  | tick (seconds : Nat)
  | accept (fd : Nat)
  | setCb
  | enlist
  | publish
  | ret
  | poll (loop : Fin thds) (batch : List Source)
  | dispatch (loop : Fin thds)
  | deliver (loop : Fin thds)
  | close (loop : Fin thds)
  | error (loop : Fin thds)
  | done (loop : Fin thds)
  | runTask (loop : Fin thds)
  | taskDone (loop : Fin thds)
  | drained (loop : Fin thds)
  | sweep (loop : Fin thds)
  | take (worker : Fin works)
  | test (worker : Fin works)
  | push (worker : Fin works)
  | weakup (worker : Fin works)
  | finish (worker : Fin works)

/-- The callback that is set as the `cbs`-th is set. -/
def CbSet (state : Server thds works) (conn : ConnId) (cbs : Nat) : Prop :=
  match state.main with
  | .setting other set => other = conn → cbs ≤ set
  | _ => True

instance (state : Server thds works) (conn : ConnId) (cbs : Nat) :
    Decidable (state.CbSet conn cbs) := by
  unfold CbSet
  cases state.main <;> infer_instance

/-- `connect::time_out`. -/
def TimedOut (state : Server thds works) (now : Int) (conn : ConnId) : Prop :=
  timeOut < now - (state.info conn).lastAtTime

instance (state : Server thds works) (now : Int) (conn : ConnId) :
    Decidable (state.TimedOut now conn) :=
  inferInstanceAs (Decidable (_ < _))

def setLoop (state : Server thds works) (loop : Fin thds) (next : SubLoop) : Server thds works :=
  { state with loops := Function.update state.loops loop next }

def setWorker (state : Server thds works) (worker : Fin works) (next : WorkerPc) :
    Server thds works :=
  { state with workers := Function.update state.workers worker next }

/-- The construction of a `connect` for a descriptor that has been accepted. -/
def construct (state : Server thds works) (fd : Nat) : Server thds works :=
  { state with
    nextId := state.nextId + 1
    info := Function.update state.info state.nextId { fd := fd, lastAtTime := state.now }
    live := state.nextId :: state.live
    main := .setting state.nextId 0 }

/-- `on_close` and `on_error`: `_disconn` is set, the channel removed, and the callback, which is
set as the `cbs`-th, erases the entry of `tcpsvr::_conns`. -/
def terminate (state : Server thds works) (conn : ConnId) (cbs : Nat) : Server thds works :=
  collect { state with
    info := Function.update state.info conn { state.info conn with disconn := true }
    tcpConns := if state.CbSet conn cbs then state.tcpConns.erase (state.info conn).fd
      else state.tcpConns }

/-- One turn of the loop of `handle_timer`, at an entry that has timed out: `remove_conn`, the
erasure, and the increment of the iterator that the erasure returns. -/
def evict (state : Server thds works) (loop : Fin thds) (now : Int) (key : Nat) :
    Server thds works :=
  let conns := (state.loops loop).conns.erase key
  let handler := match conns.seek (key + 1) with
    | none => Handler.undefined
    | some behind => .sweeping now (conns.seek (behind + 1))
  collect { state.setLoop loop { state.loops loop with conns := conns, handler := handler } with
    tcpConns := state.tcpConns.erase key }

section Steps

variable [NeZero thds]

/-- The sub-loop of a connection: `fd % thd_count`. -/
def home (state : Server thds works) (conn : ConnId) : Fin thds :=
  Fin.ofNat thds (state.info conn).fd

/-- `eventloop::new_conn`, on the connection's sub-loop. -/
def newConn (state : Server thds works) (conn : ConnId) : Server thds works :=
  let loop := state.loops (state.home conn)
  collect { state.setLoop (state.home conn)
      { loop with conns := loop.conns.set (state.info conn).fd conn } with
    main := .enlisted conn }

/-- epoll reports to a loop the registered channels of its connections, each once. -/
def Ready (state : Server thds works) (loop : Fin thds) (batch : List Source) : Prop :=
  batch.Nodup ∧ ∀ source ∈ batch, match source with
    | .conn conn => conn ∈ state.live ∧ (state.info conn).disconn = false ∧ state.home conn = loop
    | _ => True

instance (state : Server thds works) (loop : Fin thds) (batch : List Source) :
    Decidable (state.Ready loop batch) := by
  unfold Ready
  refine @instDecidableAnd _ _ _ (@List.decidableBAll _ _ ?_ _)
  intro source
  cases source <;> infer_instance

/-- The main thread's steps. -/
def mainStep (state : Server thds works) : Label thds works → Option (Server thds works)
  | .accept fd =>
      if state.main = .idle ∧ ∀ conn ∈ state.live, (state.info conn).fd ≠ fd then
        some (state.construct fd)
      else none
  | .setCb =>
      match state.main with
      | .setting conn cbs =>
          if cbs < 4 then some { state with main := .setting conn (cbs + 1) } else none
      | _ => none
  | .enlist =>
      match state.main with
      | .setting conn 4 => some (state.newConn conn)
      | _ => none
  | .publish =>
      match state.main with
      | .enlisted conn => some (collect { state with
          tcpConns := state.tcpConns.set (state.info conn).fd conn
          main := .published conn })
      | _ => none
  | .ret =>
      match state.main with
      | .published _ => some (collect { state with main := .idle })
      | _ => none
  | _ => none

/-- A step of the thread of a sub-loop. -/
def loopStep (state : Server thds works) (loop : Fin thds) :
    Label thds works → Option (Server thds works)
  | .poll _ batch =>
      match (state.loops loop).handler, (state.loops loop).batch with
      | .idle, [] =>
          if state.Ready loop batch then
            some (state.setLoop loop { state.loops loop with batch := batch })
          else none
      | _, _ => none
  | .dispatch _ =>
      match (state.loops loop).handler, (state.loops loop).batch with
      | .idle, source :: batch =>
          let handler := match source with
            | .weak => Handler.draining
            | .timer => .sweeping state.now ((state.loops loop).conns.seek 0)
            | .conn conn => .conn conn
          some (state.setLoop loop { state.loops loop with batch := batch, handler := handler })
      | _, _ => none
  | .deliver _ =>
      match (state.loops loop).handler with
      | .conn conn =>
          if conn ∈ state.live ∧ (state.info conn).disconn = false then
            some { state with
              info := Function.update state.info conn
                { state.info conn with lastAtTime := state.now }
              pool := if state.CbSet conn 3 ∧ works ≠ 0 then state.pool ++ [conn] else state.pool }
          else none
      | _ => none
  | .close _ =>
      match (state.loops loop).handler with
      | .conn conn =>
          if conn ∈ state.live ∧ (state.info conn).disconn = false then
            some (state.terminate conn 1)
          else none
      | _ => none
  | .error _ =>
      match (state.loops loop).handler with
      | .conn conn =>
          if conn ∈ state.live ∧ (state.info conn).disconn = false then
            some (state.terminate conn 2)
          else none
      | _ => none
  | .done _ =>
      match (state.loops loop).handler with
      | .conn conn =>
          if conn ∈ state.live then
            some (state.setLoop loop { state.loops loop with handler := .idle })
          else none
      | _ => none
  | .runTask _ =>
      match (state.loops loop).handler, (state.loops loop).tasks with
      | .draining, conn :: tasks =>
          some (state.setLoop loop { state.loops loop with handler := .task conn, tasks := tasks })
      | _, _ => none
  | .taskDone _ =>
      match (state.loops loop).handler with
      | .task conn =>
          if conn ∈ state.live then
            some (state.setLoop loop { state.loops loop with handler := .draining })
          else none
      | _ => none
  | .drained _ =>
      match (state.loops loop).handler, (state.loops loop).tasks with
      | .draining, [] => some (state.setLoop loop { state.loops loop with handler := .idle })
      | _, _ => none
  | .sweep _ =>
      match (state.loops loop).handler with
      | .sweeping now (some key) =>
          match (state.loops loop).conns.get key with
          | some conn =>
              if state.TimedOut now conn then some (state.evict loop now key)
              else some (state.setLoop loop { state.loops loop with
                handler := .sweeping now ((state.loops loop).conns.seek (key + 1)) })
          | none => none
      | .sweeping _ none => some (state.setLoop loop { state.loops loop with handler := .idle })
      | _ => none
  | _ => none

/-- The loop's thread is in `handle_weakup`, with the mutex that `eventloop::add` takes. -/
def Locked (state : Server thds works) (loop : Fin thds) : Prop :=
  match (state.loops loop).handler with
  | .draining => True
  | .task _ => True
  | _ => False

instance (state : Server thds works) (loop : Fin thds) : Decidable (state.Locked loop) := by
  unfold Locked
  cases (state.loops loop).handler <;> infer_instance

/-- A step of a worker thread. -/
def workerStep (state : Server thds works) (worker : Fin works) :
    Label thds works → Option (Server thds works)
  | .take _ =>
      match state.workers worker, state.pool with
      | .idle, conn :: pool => some { state.setWorker worker (.handling conn) with pool := pool }
      | _, _ => none
  | .test _ =>
      match state.workers worker with
      | .handling conn =>
          if (state.info conn).disconn then some (state.setWorker worker (.finishing conn))
          else some (state.setWorker worker (.passed conn))
      | _ => none
  | .push _ =>
      match state.workers worker with
      | .passed conn =>
          let loop := state.home conn
          if state.Locked loop then none
          else some ((state.setWorker worker (.added conn)).setLoop loop
            { state.loops loop with tasks := (state.loops loop).tasks ++ [conn] })
      | _ => none
  | .weakup _ =>
      match state.workers worker with
      | .added conn => some (state.setWorker worker (.finishing conn))
      | _ => none
  | .finish _ =>
      match state.workers worker with
      | .finishing _ => some (collect (state.setWorker worker .idle))
      | _ => none
  | _ => none

/-- A step of the server. -/
def step (state : Server thds works) (label : Label thds works) : Option (Server thds works) :=
  match label with
  | .tick seconds => some { state with now := state.now + seconds }
  | .accept _ | .setCb | .enlist | .publish | .ret => state.mainStep label
  | .poll loop _ | .dispatch loop | .deliver loop | .close loop | .error loop | .done loop
  | .runTask loop | .taskDone loop | .drained loop | .sweep loop => state.loopStep loop label
  | .take worker | .test worker | .push worker | .weakup worker | .finish worker =>
      state.workerStep worker label

/-- The server before the first client. -/
def start : Server thds works := {}

end Steps

/-! ### What a step can do -/

/-- What a change of one connection's record leaves of a field. -/
theorem info_update {Value : Type} (field : ConnInfo → Value) {info : ConnId → ConnInfo}
    {conn : ConnId} {changed : ConnInfo} (same : field changed = field (info conn))
    (other : ConnId) : field (Function.update info conn changed other) = field (info other) := by
  by_cases here : other = conn
  · rw [here, Function.update_self]
    exact same
  · rw [Function.update_of_ne here]

section Cases

variable {state next : Server thds works} {label : Label thds works}

@[simp] theorem setLoop_self (state : Server thds works) (loop : Fin thds) (sub : SubLoop) :
    (state.setLoop loop sub).loops loop = sub :=
  Function.update_self ..

theorem setLoop_loops (state : Server thds works) (loop : Fin thds) (sub : SubLoop)
    (other : Fin thds) :
    other = loop ∧ (state.setLoop loop sub).loops other = sub ∨
      other ≠ loop ∧ (state.setLoop loop sub).loops other = state.loops other := by
  by_cases here : other = loop
  · rw [here]
    exact .inl ⟨rfl, Function.update_self ..⟩
  · exact .inr ⟨here, Function.update_of_ne here _ _⟩

theorem setWorker_workers (state : Server thds works) (worker : Fin works) (pc : WorkerPc)
    (other : Fin works) :
    other = worker ∧ (state.setWorker worker pc).workers other = pc ∨
      other ≠ worker ∧ (state.setWorker worker pc).workers other = state.workers other := by
  by_cases here : other = worker
  · rw [here]
    exact .inl ⟨rfl, Function.update_self ..⟩
  · exact .inr ⟨here, Function.update_of_ne here _ _⟩

/-- A step that moves the sub-loop's thread on: a task it runs is from the queue, a handler it calls
from the batch, and the batch from epoll. -/
structure Moves (state : Server thds works) (loop : Fin thds) (sub : SubLoop) : Prop where
  tasks : ∀ conn ∈ sub.tasks, conn ∈ (state.loops loop).tasks
  task : ∀ conn, sub.handler = .task conn →
    (state.loops loop).handler = .task conn ∨ conn ∈ (state.loops loop).tasks
  batch : ∀ conn, Source.conn conn ∈ sub.batch →
    Source.conn conn ∈ (state.loops loop).batch ∨
      conn ∈ state.live ∧ (state.info conn).disconn = false
  handler : ∀ conn, sub.handler = .conn conn →
    (state.loops loop).handler = .conn conn ∨ Source.conn conn ∈ (state.loops loop).batch

/-- Going on to another handler, or out of one. -/
theorem moves_handler {loop : Fin thds} {handler : Handler} (conns : Table ConnId)
    (task : ∀ conn, handler ≠ .task conn) (event : ∀ conn, handler ≠ .conn conn) :
    state.Moves loop { state.loops loop with conns := conns, handler := handler } :=
  ⟨fun _ => id, fun conn same => absurd same (task conn), fun _ => .inl,
    fun conn same => absurd same (event conn)⟩

variable [NeZero thds]

/-- The main thread makes a connection, sets one of its callbacks, enlists it with its sub-loop,
publishes it, or returns. -/
theorem mainStep_cases (took : state.mainStep label = some next) :
    (∃ fd, state.main = .idle ∧ (∀ conn ∈ state.live, (state.info conn).fd ≠ fd) ∧
      next = state.construct fd) ∨
    (∃ conn cbs, state.main = .setting conn cbs ∧ cbs < 4 ∧
      next = { state with main := .setting conn (cbs + 1) }) ∨
    (∃ conn, state.main = .setting conn 4 ∧ next = state.newConn conn) ∨
    (∃ conn, state.main = .enlisted conn ∧ next = collect { state with
      tcpConns := state.tcpConns.set (state.info conn).fd conn
      main := .published conn }) ∨
    ∃ conn, state.main = .published conn ∧ next = collect { state with main := .idle } := by
  unfold mainStep at took
  split at took
  · split at took
    · rename_i fd free
      cases took
      exact .inl ⟨fd, free.1, free.2, rfl⟩
    · cases took
  · split at took
    · rename_i conn cbs setting
      split at took
      · rename_i unset
        cases took
        exact .inr (.inl ⟨conn, cbs, setting, unset, rfl⟩)
      · cases took
    · cases took
  · split at took
    · rename_i conn setting
      cases took
      exact .inr (.inr (.inl ⟨conn, setting, rfl⟩))
    · cases took
  · split at took
    · rename_i conn enlisted
      cases took
      exact .inr (.inr (.inr (.inl ⟨conn, enlisted, rfl⟩)))
    · cases took
  · split at took
    · rename_i conn published
      cases took
      exact .inr (.inr (.inr (.inr ⟨conn, published, rfl⟩)))
    · cases took
  · cases took

/-- A sub-loop's thread moves on, hands a message of a connection to `_msg_cb`, closes a connection,
or evicts one. -/
theorem loopStep_cases {loop : Fin thds} (took : state.loopStep loop label = some next) :
    (∃ sub, next = state.setLoop loop sub ∧ sub.conns = (state.loops loop).conns ∧
      state.Moves loop sub) ∨
    (∃ conn, (state.loops loop).handler = .conn conn ∧
      (conn ∈ state.live ∧ (state.info conn).disconn = false) ∧
      next = { state with
        info := Function.update state.info conn { state.info conn with lastAtTime := state.now }
        pool := if state.CbSet conn 3 ∧ works ≠ 0 then state.pool ++ [conn] else state.pool }) ∨
    (∃ other conn cbs, (label = .close other ∨ label = .error other) ∧
      (state.loops loop).handler = .conn conn ∧
      (conn ∈ state.live ∧ (state.info conn).disconn = false) ∧
      next = state.terminate conn cbs) ∨
    ∃ other now key conn, label = .sweep other ∧
      ((state.loops loop).handler = .sweeping now (some key) ∧
        (state.loops loop).conns.get key = some conn ∧ state.TimedOut now conn) ∧
      next = state.evict loop now key := by
  unfold loopStep at took
  split at took
  · split at took
    · split at took
      · rename_i ready
        cases took
        refine .inl ⟨_, rfl, rfl, fun _ => id, fun _ => .inl, fun conn member => ?_, fun _ => .inl⟩
        obtain ⟨live, connected, _⟩ := ready.2 _ member
        exact .inr ⟨live, connected⟩
      · cases took
    · cases took
  · split at took
    · rename_i source batch idle waiting
      cases took
      refine .inl ⟨_, rfl, rfl, fun _ => id, fun conn same => ?_, fun conn member => .inl ?_,
        fun conn same => .inr ?_⟩
      · cases source with
        | weak | timer | conn _ => cases same
      · rw [waiting]
        exact List.mem_cons_of_mem _ member
      · cases source with
        | weak | timer => cases same
        | conn _ =>
            cases same
            rw [waiting]
            exact List.mem_cons_self
    · cases took
  · split at took
    · rename_i conn running
      split at took
      · rename_i usable
        cases took
        exact .inr (.inl ⟨conn, running, usable, rfl⟩)
      · cases took
    · cases took
  · split at took
    · rename_i conn running
      split at took
      · rename_i usable
        cases took
        exact .inr (.inr (.inl ⟨_, conn, 1, .inl rfl, running, usable, rfl⟩))
      · cases took
    · cases took
  · split at took
    · rename_i conn running
      split at took
      · rename_i usable
        cases took
        exact .inr (.inr (.inl ⟨_, conn, 2, .inr rfl, running, usable, rfl⟩))
      · cases took
    · cases took
  · split at took
    · split at took
      · cases took
        exact .inl ⟨_, rfl, rfl, moves_handler _ nofun nofun⟩
      · cases took
    · cases took
  · split at took
    · rename_i conn tasks draining queued
      cases took
      refine .inl ⟨_, rfl, rfl, fun other member => ?_, fun other same => .inr ?_, fun _ => .inl,
        nofun⟩
      · rw [queued]
        exact List.mem_cons_of_mem _ member
      · cases same
        rw [queued]
        exact List.mem_cons_self
    · cases took
  · split at took
    · split at took
      · cases took
        exact .inl ⟨_, rfl, rfl, moves_handler _ nofun nofun⟩
      · cases took
    · cases took
  · split at took
    · cases took
      exact .inl ⟨_, rfl, rfl, moves_handler _ nofun nofun⟩
    · cases took
  · split at took
    · rename_i now key standing
      split at took
      · rename_i conn found
        split at took
        · rename_i timedOut
          cases took
          exact .inr (.inr (.inr ⟨_, now, key, conn, rfl, ⟨standing, found, timedOut⟩, rfl⟩))
        · cases took
          exact .inl ⟨_, rfl, rfl, moves_handler _ nofun nofun⟩
      · cases took
    · cases took
      exact .inl ⟨_, rfl, rfl, moves_handler _ nofun nofun⟩
    · cases took
  · cases took

/-- A worker takes a task up, moves on with it, pushes a `send_in_loop`, or drops its task. -/
theorem workerStep_cases {worker : Fin works} (took : state.workerStep worker label = some next) :
    (∃ conn pool, state.workers worker = .idle ∧ state.pool = conn :: pool ∧
      next = { state.setWorker worker (.handling conn) with pool := pool }) ∨
    (∃ pc, next = state.setWorker worker pc ∧ pc.holds = (state.workers worker).holds ∧
      ∀ conn, pc = .passed conn →
        state.workers worker = .handling conn ∧ (state.info conn).disconn = false) ∨
    (∃ conn, state.workers worker = .passed conn ∧ ¬ state.Locked (state.home conn) ∧
      next = (state.setWorker worker (.added conn)).setLoop (state.home conn)
        { state.loops (state.home conn) with
          tasks := (state.loops (state.home conn)).tasks ++ [conn] }) ∨
    ∃ conn, state.workers worker = .finishing conn ∧
      next = collect (state.setWorker worker .idle) := by
  unfold workerStep at took
  split at took
  · split at took
    · rename_i conn pool idle queued
      cases took
      exact .inl ⟨conn, pool, idle, queued, rfl⟩
    · cases took
  · split at took
    · rename_i conn handling
      split at took
      · cases took
        exact .inr (.inl ⟨_, rfl, by rw [handling]; rfl, nofun⟩)
      · rename_i connected
        cases took
        refine .inr (.inl ⟨_, rfl, by rw [handling]; rfl, fun other same => ?_⟩)
        cases same
        exact ⟨handling, Bool.not_eq_true _ ▸ connected⟩
    · cases took
  · split at took
    · rename_i conn passed
      simp only at took
      split at took
      · cases took
      · rename_i free
        cases took
        exact .inr (.inr (.inl ⟨conn, passed, free, rfl⟩))
    · cases took
  · split at took
    · rename_i conn added
      cases took
      exact .inr (.inl ⟨_, rfl, by rw [added]; rfl, nofun⟩)
    · cases took
  · split at took
    · rename_i conn finishing
      cases took
      exact .inr (.inr (.inr ⟨conn, finishing, rfl⟩))
    · cases took
  · cases took

end Cases

end Server

end IkunSvr
