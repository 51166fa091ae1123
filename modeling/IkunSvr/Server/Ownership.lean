/-
**Which connections are alive, over whole runs of the server.**

A connection is `Anchored` while its sub-loop's `_conns` has it, or the main thread is still setting
it up. Only an eviction takes it out of that table, so the rest of the server can be looked at as a
frame: `step_cases` says that a step keeps the tables of the sub-loops and the descriptors (`Frame`),
or is an `accept`, an `enlist` or an eviction. Every step keeps the descriptors apart and the tables
keyed by them (`Keyed`, `keyed_step`).

`watched` stands for the connections some thread will use without owning them. The invariant `Sound`
says that every connection which is watched, or alive and connected, is anchored. Two rules give it
over runs:

* `sound_step` — it is kept by every step, where an eviction takes only a connection that is not
  watched, and that is disconnected or has no owner besides the tables (`EvictOk`);
* `watched_alive` — **in a run whose evictions are of this kind, watched connections are alive.**
-/

import Mathlib.Tactic.Tauto
import IkunSvr.Lib.Run
import IkunSvr.Server.Model

namespace IkunSvr

namespace Server

open Run

variable {thds works : Nat}

section Owners

variable {state next : Server thds works} {conn : ConnId}

/-! ### Owners -/

theorem mem_collect : conn ∈ state.collect.live ↔ conn ∈ state.live ∧ state.Owned conn := by
  simp [collect]

/-- Owners that are there after a step were there before, as far as the tables go. -/
theorem owned_of (owned : next.Owned conn)
    (tcp : ∀ entry ∈ next.tcpConns, entry ∈ state.tcpConns)
    (conns : ∀ loop, (next.loops loop).conns = (state.loops loop).conns)
    (held : next.Held conn → state.Owned conn) : state.Owned conn := by
  rcases owned with ⟨entry, member, same⟩ | ⟨loop, entry, member, same⟩ | holds
  · exact .inl ⟨entry, tcp entry member, same⟩
  · rw [conns] at member
    exact .inr (.inl ⟨loop, entry, member, same⟩)
  · exact held holds

theorem loops_setLoop_conns {loop : Fin thds} {sub : SubLoop}
    (same : sub.conns = (state.loops loop).conns) (other : Fin thds) :
    ((state.setLoop loop sub).loops other).conns = (state.loops other).conns := by
  rcases setLoop_loops state loop _ other with ⟨rfl, here⟩ | ⟨_, elsewhere⟩
  · rw [here, same]
  · rw [elsewhere]

theorem owned_setLoop {loop : Fin thds} {sub : SubLoop}
    (same : sub.conns = (state.loops loop).conns)
    (owned : (state.setLoop loop sub).Owned conn) : state.Owned conn :=
  owned_of owned (fun _ member => member) (loops_setLoop_conns same) fun held => .inr (.inr held)

/-- A worker that holds no more than before. -/
theorem held_setWorker {worker : Fin works} {pc : WorkerPc}
    (same : pc.holds = none ∨ pc.holds = (state.workers worker).holds)
    (held : (state.setWorker worker pc).Held conn) : state.Held conn := by
  rcases held with main | pool | ⟨other, holds⟩
  · exact .inl main
  · exact .inr (.inl pool)
  · refine .inr (.inr ⟨other, ?_⟩)
    rcases setWorker_workers state worker _ other with ⟨rfl, here⟩ | ⟨_, elsewhere⟩
    · rw [here] at holds
      rcases same with nothing | same
      · rw [nothing] at holds
        cases holds
      · rw [← same]
        exact holds
    · rw [elsewhere] at holds
      exact holds

end Owners

section Frame

variable {state next : Server thds works}

/-! ### What one step does -/

/-- The step keeps the sub-loops' tables and the descriptors, and makes no connection. -/
structure Frame (state next : Server thds works) : Prop where
  nextId : next.nextId = state.nextId
  fd : ∀ conn, (next.info conn).fd = (state.info conn).fd
  disconn : ∀ conn, (next.info conn).disconn = false → (state.info conn).disconn = false
  conns : ∀ loop, (next.loops loop).conns = (state.loops loop).conns
  tcp : ∀ entry ∈ next.tcpConns, entry ∈ state.tcpConns ∨ entry.1 = (state.info entry.2).fd
  setting : ∀ conn cbs, state.main = .setting conn cbs → ∃ cbs, next.main = .setting conn cbs
  live : ∀ conn ∈ next.live, conn ∈ state.live
  owned : ∀ conn, next.Owned conn → conn ∈ next.live

theorem Frame.collect (frame : Frame state next) : Frame state next.collect where
  nextId := frame.nextId
  fd := frame.fd
  disconn := frame.disconn
  conns := frame.conns
  tcp := frame.tcp
  setting := frame.setting
  live conn member := frame.live conn (mem_collect.mp member).1
  owned conn owned := mem_collect.mpr ⟨frame.owned conn owned, owned⟩

theorem Frame.trans {middle : Server thds works} (first : Frame state middle)
    (second : Frame middle next) : Frame state next where
  nextId := second.nextId.trans first.nextId
  fd conn := (second.fd conn).trans (first.fd conn)
  disconn conn connected := first.disconn conn (second.disconn conn connected)
  conns loop := (second.conns loop).trans (first.conns loop)
  tcp entry member := by
    rcases second.tcp entry member with earlier | key
    · exact first.tcp entry earlier
    · rw [first.fd] at key
      exact .inr key
  setting conn cbs setting := by
    obtain ⟨later, stays⟩ := first.setting conn cbs setting
    exact second.setting conn later stays
  live conn member := first.live conn (second.live conn member)
  owned := second.owned

/-- A step of a sub-loop that keeps its table. -/
theorem frame_setLoop (alive : ∀ conn, state.Owned conn → conn ∈ state.live) {loop : Fin thds}
    {sub : SubLoop} (same : sub.conns = (state.loops loop).conns) :
    Frame state (state.setLoop loop sub) where
  nextId := rfl
  fd _ := rfl
  disconn _ connected := connected
  conns := loops_setLoop_conns same
  tcp _ member := .inl member
  setting _ cbs setting := ⟨cbs, setting⟩
  live _ member := member
  owned conn owned := alive conn (owned_setLoop same owned)

/-- A step of a worker that holds no more than before. -/
theorem frame_setWorker (alive : ∀ conn, state.Owned conn → conn ∈ state.live)
    {worker : Fin works} {pc : WorkerPc}
    (same : pc.holds = none ∨ pc.holds = (state.workers worker).holds) :
    Frame state (state.setWorker worker pc) where
  nextId := rfl
  fd _ := rfl
  disconn _ connected := connected
  conns _ := rfl
  tcp _ member := .inl member
  setting _ cbs setting := ⟨cbs, setting⟩
  live _ member := member
  owned conn owned := alive conn (owned_of owned (fun _ member => member) (fun _ => rfl)
    fun held => .inr (.inr (held_setWorker same held)))

/-- `on_close` and `on_error`. -/
theorem frame_terminate (alive : ∀ conn, state.Owned conn → conn ∈ state.live) (conn : ConnId)
    (cbs : Nat) : Frame state (state.terminate conn cbs) := by
  have erased : ∀ entry ∈ (if state.CbSet conn cbs then
      state.tcpConns.erase (state.info conn).fd else state.tcpConns), entry ∈ state.tcpConns := by
    intro entry member
    split at member
    · exact (Table.mem_erase.mp member).1
    · exact member
  refine Frame.collect ⟨rfl, fun other => ?_, fun other => ?_, fun _ => rfl,
    fun entry member => .inl (erased entry member), fun _ cbs setting => ⟨cbs, setting⟩,
    fun _ => id, fun other owned => ?_⟩
  · exact info_update ConnInfo.fd (by rfl) other
  · simp only
    by_cases same : other = conn
    · rw [same, Function.update_self]
      exact fun connected => by cases connected
    · rw [Function.update_of_ne same]
      exact id
  · exact alive other (owned_of owned erased (fun _ => rfl) fun held => .inr (.inr held))

/-- The hand-over of a message to the worker pool. -/
theorem frame_deliver (alive : ∀ conn, state.Owned conn → conn ∈ state.live) {conn : ConnId}
    (own : conn ∈ state.live) (now : Int) {pool : List ConnId}
    (queued : ∀ other ∈ pool, other ∈ state.pool ∨ other = conn) :
    Frame state { state with
      info := Function.update state.info conn { state.info conn with lastAtTime := now }
      pool := pool } := by
  refine ⟨rfl, fun other => ?_, fun other => ?_, fun _ => rfl, fun _ => .inl,
    fun _ cbs setting => ⟨cbs, setting⟩, fun _ => id, fun other owned => ?_⟩
  · exact info_update ConnInfo.fd (by rfl) other
  · simp only
    rw [info_update ConnInfo.disconn (by rfl) other]
    exact id
  · rcases owned with tcp | tables | main | member | holds
    · exact alive other (.inl tcp)
    · exact alive other (.inr (.inl tables))
    · exact alive other (.inr (.inr (.inl main)))
    · rcases queued other member with earlier | same
      · exact alive other (.inr (.inr (.inr (.inl earlier))))
      · rw [same]
        exact own
    · exact alive other (.inr (.inr (.inr (.inr holds))))

theorem mem_evict_conns {loop other : Fin thds} {now : Int} {key : Nat} {entry : Nat × ConnId} :
    entry ∈ ((state.evict loop now key).loops other).conns ↔
      entry ∈ (state.loops other).conns ∧ (other = loop → entry.1 ≠ key) := by
  unfold evict setLoop Server.collect
  simp only
  by_cases here : other = loop
  · rw [here, Function.update_self]
    simp only [forall_const]
    exact Table.mem_erase
  · rw [Function.update_of_ne here]
    simp [here]

theorem held_evict {loop : Fin thds} {now : Int} {key : Nat} {conn : ConnId} :
    (state.evict loop now key).Held conn ↔ state.Held conn :=
  Iff.rfl

end Frame

section Steps

variable [NeZero thds] {state next : Server thds works}

/-- The timer handler of the loop stands at a connection that has timed out. -/
def Evicts (state : Server thds works) (loop : Fin thds) (now : Int) (key : Nat) (conn : ConnId) :
    Prop :=
  (state.loops loop).handler = .sweeping now (some key) ∧
    (state.loops loop).conns.get key = some conn ∧ state.TimedOut now conn

/-- The sub-loop's table has the connection, or the main thread is setting it up. -/
def Anchored (state : Server thds works) (conn : ConnId) : Prop :=
  ((state.info conn).fd, conn) ∈ (state.loops (state.home conn)).conns ∨
    ∃ cbs, state.main = .setting conn cbs

theorem Anchored.owned {conn : ConnId} (anchored : state.Anchored conn) : state.Owned conn := by
  rcases anchored with member | ⟨cbs, setting⟩
  · exact .inr (.inl ⟨_, _, member, rfl⟩)
  · refine .inr (.inr (.inl ?_))
    rw [setting]
    rfl

/-- The main thread's steps. -/
theorem mainStep_frame (alive : ∀ conn, state.Owned conn → conn ∈ state.live)
    {label : Label thds works} (took : state.mainStep label = some next) :
    Frame state next ∨
      (∃ fd, state.main = .idle ∧ (∀ conn ∈ state.live, (state.info conn).fd ≠ fd) ∧
        next = state.construct fd) ∨
      (∃ conn, state.main = .setting conn 4 ∧ next = state.newConn conn) := by
  rcases mainStep_cases took with constructed | ⟨conn, cbs, setting, _, rfl⟩ | enlisted |
    ⟨conn, enlisted, rfl⟩ | ⟨conn, published, rfl⟩
  · exact .inr (.inl constructed)
  · refine .inl ⟨rfl, fun _ => rfl, fun _ => id, fun _ => rfl, fun _ => .inl,
      fun other _ same => ?_, fun _ => id, fun other owned => ?_⟩
    · rw [setting] at same
      cases same
      exact ⟨_, rfl⟩
    · refine alive other (owned_of owned (fun _ => id) (fun _ => rfl) fun held => ?_)
      refine .inr (.inr ?_)
      unfold Held at held ⊢
      rw [setting]
      exact held
  · exact .inr (.inr enlisted)
  · have holds : state.Held conn := by
      unfold Held
      rw [enlisted]
      exact .inl rfl
    refine .inl (Frame.collect ⟨rfl, fun _ => rfl, fun _ => id, fun _ => rfl,
      fun entry member => ?_, fun other _ same => ?_, fun _ => id, fun other owned => ?_⟩)
    · rcases Table.mem_set.mp member with rfl | ⟨old, _⟩
      · exact .inr rfl
      · exact .inl old
    · rw [enlisted] at same
      cases same
    · rcases owned with ⟨entry, member, rfl⟩ | tables | held
      · rcases Table.mem_set.mp member with rfl | ⟨old, _⟩
        · exact alive _ (.inr (.inr holds))
        · exact alive _ (.inl ⟨entry, old, rfl⟩)
      · exact alive other (.inr (.inl tables))
      · refine alive other (.inr (.inr ?_))
        unfold Held at held ⊢
        rw [enlisted]
        exact held
  · refine .inl (Frame.collect ⟨rfl, fun _ => rfl, fun _ => id, fun _ => rfl, fun _ => .inl,
      fun other _ same => ?_, fun _ => id, fun other owned => ?_⟩)
    · rw [published] at same
      cases same
    · refine alive other (owned_of owned (fun _ => id) (fun _ => rfl) fun held => ?_)
      rcases held with main | rest
      · cases main
      · exact .inr (.inr (.inr rest))

/-- A sub-loop's steps. -/
theorem loopStep_frame (alive : ∀ conn, state.Owned conn → conn ∈ state.live) {loop : Fin thds}
    {label : Label thds works} (took : state.loopStep loop label = some next) :
    Frame state next ∨ ∃ other now key conn, label = .sweep other ∧
      state.Evicts loop now key conn ∧ next = state.evict loop now key := by
  rcases loopStep_cases took with ⟨sub, rfl, conns, _⟩ | ⟨conn, _, usable, rfl⟩ |
    ⟨_, conn, cbs, _, _, _, rfl⟩ | evicted
  · exact .inl (frame_setLoop alive conns)
  · refine .inl (frame_deliver alive usable.1 _ fun other member => ?_)
    split at member
    · rcases List.mem_append.mp member with earlier | now
      · exact .inl earlier
      · exact .inr (List.mem_singleton.mp now)
    · exact .inl member
  · exact .inl (frame_terminate alive _ _)
  · exact .inr evicted

/-- A worker's steps. -/
theorem workerStep_frame (alive : ∀ conn, state.Owned conn → conn ∈ state.live)
    {worker : Fin works} {label : Label thds works}
    (took : state.workerStep worker label = some next) : Frame state next := by
  rcases workerStep_cases took with ⟨conn, pool, idle, queued, rfl⟩ | ⟨pc, rfl, same, _⟩ |
    ⟨conn, passed, _, rfl⟩ | ⟨conn, finishing, rfl⟩
  · have waited : state.Owned conn := by
      refine .inr (.inr (.inr (.inl ?_)))
      rw [queued]
      exact List.mem_cons_self
    refine ⟨rfl, fun _ => rfl, fun _ => id, fun _ => rfl, fun _ => .inl,
      fun _ cbs setting => ⟨cbs, setting⟩, fun _ => id, fun other owned => ?_⟩
    refine alive other (owned_of owned (fun _ => id) (fun _ => rfl) fun held => ?_)
    rcases held with main | left | ⟨another, holds⟩
    · exact .inr (.inr (.inl main))
    · refine .inr (.inr (.inr (.inl ?_)))
      rw [queued]
      exact List.mem_cons_of_mem _ left
    · have holds : ((state.setWorker worker (.handling conn)).workers another).holds =
        some other := holds
      rcases setWorker_workers state worker (.handling conn) another with ⟨rfl, here⟩ | ⟨_, elsewhere⟩
      · rw [here] at holds
        cases holds
        exact waited
      · rw [elsewhere] at holds
        exact .inr (.inr (.inr (.inr ⟨another, holds⟩)))
  · exact frame_setWorker alive (.inr same)
  · have pushed : Frame state (state.setWorker worker (.added conn)) :=
      frame_setWorker alive (.inr (by rw [passed]; rfl))
    exact pushed.trans (frame_setLoop pushed.owned rfl)
  · exact (frame_setWorker alive (.inl rfl)).collect

/-- **What a step does**: it is a frame step, or it makes a connection, enlists one, or evicts one. -/
theorem step_cases (alive : ∀ conn, state.Owned conn → conn ∈ state.live)
    {label : Label thds works} (took : state.step label = some next) :
    Frame state next ∨
      (∃ fd, state.main = .idle ∧ (∀ conn ∈ state.live, (state.info conn).fd ≠ fd) ∧
        next = state.construct fd) ∨
      (∃ conn, state.main = .setting conn 4 ∧ next = state.newConn conn) ∨
      ∃ loop now key conn, label = .sweep loop ∧ state.Evicts loop now key conn ∧
        next = state.evict loop now key := by
  unfold step at took
  cases label with
  | tick seconds =>
      cases took
      exact .inl ⟨rfl, fun _ => rfl, fun _ => id, fun _ => rfl, fun _ => .inl,
        fun _ cbs setting => ⟨cbs, setting⟩, fun _ => id, alive⟩
  | accept fd | setCb | enlist | publish | ret =>
      rcases mainStep_frame alive took with frame | constructed | enlisted
      · exact .inl frame
      · exact .inr (.inl constructed)
      · exact .inr (.inr (.inl enlisted))
  | poll loop batch | dispatch loop | deliver loop | close loop | error loop | done loop
  | runTask loop | taskDone loop | drained loop =>
      rcases loopStep_frame alive took with frame | ⟨_, _, _, _, wrong, _⟩
      · exact .inl frame
      · cases wrong
  | sweep loop =>
      rcases loopStep_frame alive took with frame | ⟨_, now, key, conn, _, evicts, same⟩
      · exact .inl frame
      · exact .inr (.inr (.inr ⟨loop, now, key, conn, rfl, evicts, same⟩))
  | take worker | test worker | push worker | weakup worker | finish worker =>
      exact .inl (workerStep_frame alive took)

/-! ### Descriptors and keys -/

/-- What holds in every state: an owned connection is alive, connections that are alive have
different descriptors, and the tables have their connections under their descriptors, the sub-loops'
with the sub-loop of the descriptor. -/
structure Keyed (state : Server thds works) : Prop where
  fresh : ∀ conn ∈ state.live, conn < state.nextId
  alive : ∀ conn, state.Owned conn → conn ∈ state.live
  apart : ∀ conn ∈ state.live, ∀ other ∈ state.live,
    (state.info conn).fd = (state.info other).fd → conn = other
  keys : ∀ loop, ∀ entry ∈ (state.loops loop).conns,
    entry.1 = (state.info entry.2).fd ∧ state.home entry.2 = loop
  tcpKeys : ∀ entry ∈ state.tcpConns, entry.1 = (state.info entry.2).fd

theorem home_eq {conn : ConnId} (fd : (next.info conn).fd = (state.info conn).fd) :
    next.home conn = state.home conn := by
  unfold home
  rw [fd]

theorem keyed_start : Keyed (Server.start : Server thds works) := by
  have none_owned : ∀ conn, ¬ (Server.start : Server thds works).Owned conn := by
    rintro conn (⟨entry, member, _⟩ | ⟨loop, entry, member, _⟩ | main | queued | ⟨worker, holds⟩)
    · cases member
    · cases member
    · cases main
    · cases queued
    · cases holds
  refine ⟨fun conn member => ?_, fun conn owned => absurd owned (none_owned conn),
    fun conn member => ?_, fun loop entry member => ?_, fun entry member => ?_⟩
  · cases member
  · cases member
  · cases member
  · cases member

theorem Keyed.frame (keyed : Keyed state) (frame : Frame state next) : Keyed next where
  fresh conn member := by
    rw [frame.nextId]
    exact keyed.fresh conn (frame.live conn member)
  alive := frame.owned
  apart conn member other member' same := by
    rw [frame.fd, frame.fd] at same
    exact keyed.apart conn (frame.live conn member) other (frame.live other member') same
  keys loop entry member := by
    rw [frame.conns] at member
    rw [frame.fd, home_eq (frame.fd entry.2)]
    exact keyed.keys loop entry member
  tcpKeys entry member := by
    rw [frame.fd]
    rcases frame.tcp entry member with earlier | key
    · exact keyed.tcpKeys entry earlier
    · exact key

/-- The descriptor of a new connection belongs to no other. -/
theorem Keyed.construct_info (keyed : Keyed state) (fd : Nat) {conn : ConnId}
    (member : conn ∈ state.live) : (state.construct fd).info conn = state.info conn :=
  Function.update_of_ne (Nat.ne_of_lt (keyed.fresh conn member)) _ _

theorem Keyed.construct (keyed : Keyed state) {fd : Nat}
    (free : ∀ conn ∈ state.live, (state.info conn).fd ≠ fd) : Keyed (state.construct fd) := by
  have own : (state.construct fd).info state.nextId = { fd := fd, lastAtTime := state.now } :=
    Function.update_self ..
  have members : ∀ conn ∈ (state.construct fd).live, conn = state.nextId ∨ conn ∈ state.live :=
    fun conn member => List.mem_cons.mp member
  refine ⟨fun conn member => ?_, fun conn owned => ?_, fun conn member other member' same => ?_,
    fun loop entry member => ?_, fun entry member => ?_⟩
  · rcases members conn member with rfl | earlier
    · exact Nat.lt_succ_self _
    · exact Nat.lt_succ_of_lt (keyed.fresh conn earlier)
  · rcases owned with tcp | tables | main | rest
    · exact List.mem_cons_of_mem _ (keyed.alive conn (.inl tcp))
    · exact List.mem_cons_of_mem _ (keyed.alive conn (.inr (.inl tables)))
    · cases main
      exact List.mem_cons_self
    · exact List.mem_cons_of_mem _ (keyed.alive conn (.inr (.inr (.inr rest))))
  · rcases members conn member with rfl | earlier
    · rcases members other member' with rfl | earlier'
      · rfl
      · rw [own, keyed.construct_info fd earlier'] at same
        exact absurd same.symm (free other earlier')
    · rcases members other member' with rfl | earlier'
      · rw [own, keyed.construct_info fd earlier] at same
        exact absurd same (free conn earlier)
      · rw [keyed.construct_info fd earlier, keyed.construct_info fd earlier'] at same
        exact keyed.apart conn earlier other earlier' same
  · have known := keyed.construct_info fd
      (keyed.alive entry.2 (.inr (.inl ⟨loop, entry, member, rfl⟩)))
    rw [known, home_eq (congrArg ConnInfo.fd known)]
    exact keyed.keys loop entry member
  · rw [keyed.construct_info fd (keyed.alive entry.2 (.inl ⟨entry, member, rfl⟩))]
    exact keyed.tcpKeys entry member

/-- The tables of the sub-loops after `new_conn`: the new entry, and those with another key or in
another sub-loop. -/
theorem mem_newConn_conns {conn : ConnId} {loop : Fin thds} {entry : Nat × ConnId} :
    entry ∈ ((state.newConn conn).loops loop).conns ↔
      loop = state.home conn ∧ entry = ((state.info conn).fd, conn) ∨
      entry ∈ (state.loops loop).conns ∧
        (entry.1 ≠ (state.info conn).fd ∨ loop ≠ state.home conn) := by
  unfold Server.newConn setLoop Server.collect
  simp only
  by_cases here : loop = state.home conn
  · rw [here, Function.update_self]
    simp only [true_and, ne_eq, not_true_eq_false, or_false]
    exact Table.mem_set
  · rw [Function.update_of_ne here]
    simp [here]

theorem Keyed.newConn (keyed : Keyed state) {conn : ConnId}
    (setting : state.main = .setting conn 4) : Keyed (state.newConn conn) := by
  have held : state.Held conn := by
    left
    rw [setting]
    rfl
  have own : conn ∈ state.live := keyed.alive conn (.inr (.inr held))
  have live : ∀ other ∈ (state.newConn conn).live, other ∈ state.live :=
    fun other member => (mem_collect.mp member).1
  refine ⟨fun other member => keyed.fresh other (live other member), fun other owned => ?_,
    fun first member second member' same =>
      keyed.apart first (live first member) second (live second member') same,
    fun loop entry member => ?_, keyed.tcpKeys⟩
  · refine mem_collect.mpr ⟨?_, owned⟩
    rcases owned with tcp | ⟨loop, entry, member, same⟩ | main | rest
    · exact keyed.alive other (.inl tcp)
    · rcases mem_newConn_conns.mp member with ⟨_, rfl⟩ | ⟨old, _⟩
      · rw [← same]
        exact own
      · exact keyed.alive other (.inr (.inl ⟨loop, entry, old, same⟩))
    · cases main
      exact own
    · exact keyed.alive other (.inr (.inr (.inr rest)))
  · rcases mem_newConn_conns.mp member with ⟨here, rfl⟩ | ⟨old, _⟩
    · exact ⟨rfl, here.symm⟩
    · exact keyed.keys loop entry old

theorem Keyed.evict (keyed : Keyed state) (loop : Fin thds) (now : Int) (key : Nat) :
    Keyed (state.evict loop now key) := by
  have live : ∀ other ∈ (state.evict loop now key).live, other ∈ state.live :=
    fun other member => (mem_collect.mp member).1
  refine ⟨fun other member => keyed.fresh other (live other member), fun other owned => ?_,
    fun first member second member' same =>
      keyed.apart first (live first member) second (live second member') same,
    fun elsewhere other member => keyed.keys elsewhere other (mem_evict_conns.mp member).1,
    fun other member => keyed.tcpKeys other (Table.mem_erase.mp member).1⟩
  refine mem_collect.mpr ⟨?_, owned⟩
  rcases owned with ⟨item, member, same⟩ | ⟨elsewhere, item, member, same⟩ | held
  · exact keyed.alive other (.inl ⟨item, (Table.mem_erase.mp member).1, same⟩)
  · exact keyed.alive other (.inr (.inl ⟨elsewhere, item, (mem_evict_conns.mp member).1, same⟩))
  · exact keyed.alive other (.inr (.inr (held_evict.mp held)))

/-- **Every step keeps the keys.** -/
theorem keyed_step (keyed : Keyed state) {label : Label thds works}
    (took : state.step label = some next) : Keyed next := by
  rcases step_cases keyed.alive took with
    frame | ⟨fd, idle, free, rfl⟩ | ⟨conn, setting, rfl⟩ | ⟨loop, now, key, conn, rfl, evicts, rfl⟩
  · exact keyed.frame frame
  · exact keyed.construct free
  · exact keyed.newConn setting
  · exact keyed.evict loop now key

/-! ### The invariant -/

/-- What holds in every state of the runs below, `watched` being what some thread will use. -/
structure Sound (watched : Server thds works → ConnId → Prop) (state : Server thds works) :
    Prop where
  fresh : ∀ conn ∈ state.live, conn < state.nextId
  alive : ∀ conn, state.Owned conn → conn ∈ state.live
  apart : ∀ conn ∈ state.live, ∀ other ∈ state.live,
    (state.info conn).fd = (state.info other).fd → conn = other
  keys : ∀ loop, ∀ entry ∈ (state.loops loop).conns,
    entry.1 = (state.info entry.2).fd ∧ state.home entry.2 = loop
  tcpKeys : ∀ entry ∈ state.tcpConns, entry.1 = (state.info entry.2).fd
  rooted : ∀ conn, conn ∈ state.live ∧ (state.info conn).disconn = false ∨ watched state conn →
    state.Anchored conn

/-- An eviction takes only a connection that is disconnected, or has no owner besides the tables, and
that no thread will use. -/
def EvictOk (watched : Server thds works → ConnId → Prop) (state : Server thds works)
    (label : Label thds works) : Prop :=
  ∀ loop now key conn, label = .sweep loop → state.Evicts loop now key conn →
    ((state.info conn).disconn = true ∨ ¬ state.Held conn) ∧ ¬ watched state conn

section Invariant

variable {watched : Server thds works → ConnId → Prop}

theorem Sound.keyed (sound : Sound watched state) : Keyed state :=
  ⟨sound.fresh, sound.alive, sound.apart, sound.keys, sound.tcpKeys⟩

theorem Keyed.sound (keyed : Keyed state)
    (rooted : ∀ conn, conn ∈ state.live ∧ (state.info conn).disconn = false ∨ watched state conn →
      state.Anchored conn) : Sound watched state :=
  ⟨keyed.fresh, keyed.alive, keyed.apart, keyed.keys, keyed.tcpKeys, rooted⟩

theorem Frame.anchored (frame : Frame state next) {conn : ConnId}
    (anchored : state.Anchored conn) : next.Anchored conn := by
  rcases anchored with member | ⟨cbs, setting⟩
  · left
    rw [frame.fd, home_eq (frame.fd conn), frame.conns]
    exact member
  · exact .inr (frame.setting conn cbs setting)

/-- A frame step keeps the invariant, if it lets no thread use a connection but one that was watched
already, or alive and connected. -/
theorem Sound.frame (sound : Sound watched state) (frame : Frame state next)
    (new : ∀ conn, watched next conn →
      watched state conn ∨ conn ∈ state.live ∧ (state.info conn).disconn = false) :
    Sound watched next := by
  refine (sound.keyed.frame frame).sound fun conn reason => ?_
  refine frame.anchored (sound.rooted conn ?_)
  rcases reason with ⟨member, connected⟩ | watches
  · exact .inl ⟨frame.live conn member, frame.disconn conn connected⟩
  · exact (new conn watches).symm

/-- A new connection is anchored on the main thread. -/
theorem Sound.construct (sound : Sound watched state) (idle : state.main = .idle) {fd : Nat}
    (free : ∀ conn ∈ state.live, (state.info conn).fd ≠ fd)
    (new : ∀ conn, watched (state.construct fd) conn →
      watched state conn ∨ conn ∈ state.live ∧ (state.info conn).disconn = false) :
    Sound watched (state.construct fd) := by
  refine (sound.keyed.construct free).sound fun conn reason => ?_
  by_cases here : conn = state.nextId
  · exact .inr ⟨0, by rw [here]; rfl⟩
  · have before : state.Anchored conn := by
      refine sound.rooted conn ?_
      rcases reason with ⟨member, connected⟩ | watches
      · rcases List.mem_cons.mp member with same | earlier
        · exact absurd same here
        · rw [sound.keyed.construct_info fd earlier] at connected
          exact .inl ⟨earlier, connected⟩
      · exact (new conn watches).symm
    have known := sound.keyed.construct_info fd (sound.alive conn before.owned)
    rcases before with member | ⟨cbs, setting⟩
    · left
      rw [known, home_eq (congrArg ConnInfo.fd known)]
      exact member
    · rw [idle] at setting
      cases setting

/-- The sub-loop's table takes the connection over from the main thread. -/
theorem Sound.newConn (sound : Sound watched state) {conn : ConnId}
    (setting : state.main = .setting conn 4)
    (new : ∀ other, watched (state.newConn conn) other →
      watched state other ∨ other ∈ state.live ∧ (state.info other).disconn = false) :
    Sound watched (state.newConn conn) := by
  have held : state.Held conn := by
    left
    rw [setting]
    rfl
  have own : conn ∈ state.live := sound.alive conn (.inr (.inr held))
  refine (sound.keyed.newConn setting).sound fun other reason => .inl ?_
  have before : state.Anchored other := by
    refine sound.rooted other ?_
    rcases reason with ⟨member, connected⟩ | watches
    · exact .inl ⟨(mem_collect.mp member).1, connected⟩
    · exact (new other watches).symm
  by_cases same : other = conn
  · rw [same]
    exact mem_newConn_conns.mpr (.inl ⟨rfl, rfl⟩)
  · rcases before with member | ⟨cbs, main⟩
    · refine mem_newConn_conns.mpr (.inr ⟨member, .inl fun key => same ?_⟩)
      exact sound.apart other (sound.alive other (.inr (.inl ⟨_, _, member, rfl⟩))) conn own key
    · rw [setting] at main
      cases main
      exact absurd rfl same

/-- The tables were the only owners of an evicted connection, unless something holds it. -/
theorem Sound.evicted_owned (sound : Sound watched state) {loop : Fin thds} {now : Int} {key : Nat}
    {conn : ConnId} (evicts : state.Evicts loop now key conn)
    (owned : (state.evict loop now key).Owned conn) : state.Held conn := by
  have entry := Table.mem_of_get evicts.2.1
  obtain ⟨at_key, here⟩ := sound.keys loop _ entry
  simp only at at_key here
  rcases owned with ⟨other, member, rfl⟩ | ⟨elsewhere, other, member, rfl⟩ | held
  · obtain ⟨old, different⟩ := Table.mem_erase.mp member
    rw [sound.tcpKeys other old] at different
    exact absurd at_key.symm different
  · obtain ⟨old, different⟩ := mem_evict_conns.mp member
    obtain ⟨own_key, there⟩ := sound.keys elsewhere other old
    rw [here] at there
    rw [own_key] at different
    exact absurd at_key.symm (different there.symm)
  · exact held_evict.mp held

/-- An eviction takes the evicted connection only. -/
theorem Sound.evict (sound : Sound watched state) {loop : Fin thds} {now : Int} {key : Nat}
    {conn : ConnId} (evicts : state.Evicts loop now key conn)
    (clean : (state.info conn).disconn = true ∨ ¬ state.Held conn)
    (unwatched : ¬ watched state conn)
    (swept : ∀ other, watched (state.evict loop now key) other → watched state other) :
    Sound watched (state.evict loop now key) := by
  have entry := Table.mem_of_get evicts.2.1
  obtain ⟨at_key, here⟩ := sound.keys loop _ entry
  simp only at at_key here
  have own : conn ∈ state.live := sound.alive conn (.inr (.inl ⟨loop, _, entry, rfl⟩))
  refine (sound.keyed.evict loop now key).sound fun other reason => ?_
  by_cases same : other = conn
  · rw [same] at reason
    rcases reason with ⟨member, connected⟩ | watches
    · rcases clean with closed | free
      · have still : (state.info conn).disconn = false := connected
        rw [closed] at still
        cases still
      · exact absurd (sound.evicted_owned evicts (mem_collect.mp member).2) free
    · exact absurd (swept conn watches) unwatched
  · have before : state.Anchored other := by
      refine sound.rooted other ?_
      rcases reason with ⟨member, connected⟩ | watches
      · exact .inl ⟨(mem_collect.mp member).1, connected⟩
      · exact .inr (swept other watches)
    rcases before with member | setting
    · refine .inl (mem_evict_conns.mpr ⟨member, fun _ key => same ?_⟩)
      rw [at_key] at key
      exact sound.apart other (sound.alive other (.inr (.inl ⟨_, _, member, rfl⟩))) conn own key
    · exact .inr setting

/-! ### Runs -/

/-- A notion of what some thread will use: it starts empty, only connections that are alive and
connected enter it, and none by an eviction. -/
structure Watch (watched : Server thds works → ConnId → Prop) : Prop where
  start : ∀ conn, ¬ watched Server.start conn
  new : ∀ {state next : Server thds works} {label : Label thds works}, Sound watched state →
    state.step label = some next → ∀ conn, watched next conn →
      watched state conn ∨ conn ∈ state.live ∧ (state.info conn).disconn = false
  swept : ∀ {state : Server thds works} {loop : Fin thds} {now : Int} {key : Nat} (conn : ConnId),
    watched (state.evict loop now key) conn → watched state conn

theorem sound_start (watch : Watch watched) :
    Sound watched (Server.start : Server thds works) := by
  refine keyed_start.sound fun conn reason => ?_
  rcases reason with ⟨member, _⟩ | watches
  · cases member
  · exact absurd watches (watch.start conn)

/-- **One step keeps the invariant**, if it evicts only what no thread will use and nothing holds. -/
theorem sound_step (watch : Watch watched) (sound : Sound watched state) {label : Label thds works}
    (allowed : EvictOk watched state label) (took : state.step label = some next) :
    Sound watched next := by
  have new := watch.new sound took
  rcases step_cases sound.alive took with
    frame | ⟨fd, idle, free, rfl⟩ | ⟨conn, setting, rfl⟩ | ⟨loop, now, key, conn, rfl, evicts, rfl⟩
  · exact sound.frame frame new
  · exact sound.construct idle free new
  · exact sound.newConn setting new
  · obtain ⟨clean, unwatched⟩ := allowed loop now key conn rfl evicts
    exact sound.evict evicts clean unwatched watch.swept

/-- **In a run with such evictions, what some thread will use is alive.** -/
theorem watched_alive (watch : Watch watched) {labels : List (Label thds works)}
    (allowed : Along step (EvictOk watched) Server.start labels) :
    Always step (fun state => ∀ conn, watched state conn → conn ∈ state.live) Server.start
      labels := by
  have sound : Always step (Sound watched) Server.start labels :=
    always_of_along (fun _ _ _ sound allow took => sound_step watch sound allow took)
      (sound_start watch) allowed
  exact sound.mono fun _ sound conn watches =>
    sound.alive conn (sound.rooted conn (.inr watches)).owned

end Invariant

end Steps

end Server

end IkunSvr
