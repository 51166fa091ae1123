/-
**Whether `tcpsvr::_conns` and the sub-loops' `_conns` agree.**

An `Operation` is a list of steps of one thread that it completes: `_on_new_conn`, `on_close` ending
in `_on_conn_close`, `on_error` ending in `_on_conn_error`, `handle_timer` ending in `remove_conn`,
and what the threads do besides. `opStep` takes one from a state in which no thread is in the middle
of something to the next such state.

* `Agree` — a connection is in both tables or in none, and in none once it is closed;
* `mainStep_agreeing`, `otherStep_agreeing` — every step but the close and the error of a connection
  keeps the tables in agreement, up to the connection the main thread has in hand;
* `end_agree` — a close or an error keeps it exactly when the sub-loop has dropped the connection;
* `tables_agree_iff` — **the tables agree in every state of a run exactly when it closes only such
  connections**;
* `close_strands_entry` — a client connects and leaves.
-/

import IkunSvr.Server.Keys

namespace IkunSvr

namespace Server

open Run

variable {thds works : Nat} [NeZero thds]

/-! ### Operations -/

/-- What a thread does from one quiescent state to the next. -/
inductive Operation (thds works : Nat)
  | newConn (fd : Nat)
  | onClose (loop : Fin thds) (conn : ConnId)
  | onError (loop : Fin thds) (conn : ConnId)
  /-- `handle_timer`, with as many steps of its loop -/
  | handleTimer (loop : Fin thds) (steps : Nat)
  /-- `on_msg`, with as many messages -/
  | onMsg (loop : Fin thds) (conn : ConnId) (messages : Nat)
  /-- `handle_weakup`, with as many tasks -/
  | handleWeakup (loop : Fin thds) (tasks : Nat)
  /-- a step of a worker, or of the clock -/
  | elsewhere (label : Label thds works)

/-- The steps of an operation. -/
def Operation.labels : Operation thds works → List (Label thds works)
  | .newConn fd => [.accept fd, .setCb, .setCb, .setCb, .setCb, .enlist, .publish, .ret]
  | .onClose loop conn => [.poll loop [.conn conn], .dispatch loop, .close loop, .done loop]
  | .onError loop conn => [.poll loop [.conn conn], .dispatch loop, .error loop, .done loop]
  | .handleTimer loop steps =>
      [.poll loop [.timer], .dispatch loop] ++ List.replicate steps (.sweep loop)
  | .onMsg loop conn messages =>
      [.poll loop [.conn conn], .dispatch loop] ++ List.replicate messages (.deliver loop) ++
        [.done loop]
  | .handleWeakup loop tasks =>
      [.poll loop [.weak], .dispatch loop] ++
        (List.replicate tasks [.runTask loop, .taskDone loop]).flatten ++ [.drained loop]
  | .elsewhere label => [label]

/-- The main thread and the sub-loops wait for what comes next. -/
def Quiescent (state : Server thds works) : Prop :=
  state.main = .idle ∧
    ∀ loop, (state.loops loop).handler = .idle ∧ (state.loops loop).batch = []

instance (state : Server thds works) : Decidable state.Quiescent :=
  inferInstanceAs (Decidable (_ ∧ _))

/-- An operation that is completed. -/
def opStep (state : Server thds works) (operation : Operation thds works) :
    Option (Server thds works) :=
  (exec step state operation.labels).filter fun next => next.Quiescent

/-! ### The two tables -/

/-- `tcpsvr::_conns` has the connection under its descriptor. -/
def InServer (state : Server thds works) (conn : ConnId) : Prop :=
  ((state.info conn).fd, conn) ∈ state.tcpConns

/-- The `_conns` of sub-loop `fd % thd_count` has the connection under its descriptor. -/
def InLoop (state : Server thds works) (conn : ConnId) : Prop :=
  ((state.info conn).fd, conn) ∈ (state.loops (state.home conn)).conns

instance (state : Server thds works) (conn : ConnId) : Decidable (state.InServer conn) :=
  inferInstanceAs (Decidable (_ ∈ _))

instance (state : Server thds works) (conn : ConnId) : Decidable (state.InLoop conn) :=
  inferInstanceAs (Decidable (_ ∈ _))

/-- The tables agree, and neither has a connection that is closed. -/
structure Agree (state : Server thds works) : Prop where
  both : ∀ conn, state.InServer conn ↔ state.InLoop conn
  closed : ∀ conn, (state.info conn).disconn = true → ¬ state.InServer conn ∧ ¬ state.InLoop conn

/-- The operation does not close a connection that its sub-loop's `_conns` has. -/
def Spares (state : Server thds works) : Operation thds works → Prop
  | .onClose _ conn => ¬ state.InLoop conn
  | .onError _ conn => ¬ state.InLoop conn
  | _ => True

section Steps

variable {state next : Server thds works}

/-! ### The steps of the main thread -/

/-- The tables agree, up to a connection that the main thread has enlisted and not published. -/
structure Agreeing (state : Server thds works) : Prop where
  keyed : Keyed state
  both : ∀ conn, state.main ≠ .enlisted conn → (state.InServer conn ↔ state.InLoop conn)
  closed : ∀ conn, (state.info conn).disconn = true → ¬ state.InServer conn
  hand : ∀ conn, state.main.holds = some conn → (state.info conn).disconn = false
  enlisted : ∀ conn, state.main = .enlisted conn → state.InLoop conn

theorem InServer.alive (keyed : Keyed state) {conn : ConnId} (listed : state.InServer conn) :
    conn ∈ state.live :=
  keyed.alive conn (.inl ⟨_, listed, rfl⟩)

theorem InLoop.alive (keyed : Keyed state) {conn : ConnId} (listed : state.InLoop conn) :
    conn ∈ state.live :=
  keyed.alive conn (.inr (.inl ⟨_, _, listed, rfl⟩))

/-- A step that keeps the tables, the descriptors and who is closed. -/
theorem Agreeing.same (agreeing : Agreeing state) (keyed : Keyed next)
    (tcp : next.tcpConns = state.tcpConns)
    (conns : ∀ loop, (next.loops loop).conns = (state.loops loop).conns)
    (fd : ∀ conn, (next.info conn).fd = (state.info conn).fd)
    (disconn : ∀ conn, (next.info conn).disconn = (state.info conn).disconn)
    (holds : ∀ conn, next.main.holds = some conn → state.main.holds = some conn)
    (main : ∀ conn, next.main = .enlisted conn ↔ state.main = .enlisted conn) :
    Agreeing next := by
  have server : ∀ conn, next.InServer conn ↔ state.InServer conn := by
    intro conn
    unfold InServer
    rw [fd, tcp]
  have loop : ∀ conn, next.InLoop conn ↔ state.InLoop conn := by
    intro conn
    unfold InLoop
    rw [fd, home_eq (fd conn), conns]
  refine ⟨keyed, fun conn away => ?_, fun conn shut => ?_, fun conn held => ?_, fun conn at_it => ?_⟩
  · rw [server, loop]
    exact agreeing.both conn fun here => away ((main conn).mpr here)
  · rw [server]
    rw [disconn] at shut
    exact agreeing.closed conn shut
  · rw [disconn]
    exact agreeing.hand conn (holds conn held)
  · rw [loop]
    exact agreeing.enlisted conn ((main conn).mp at_it)

theorem agreeing_construct (agreeing : Agreeing state) (idle : state.main = .idle) {fd : Nat}
    (free : ∀ conn ∈ state.live, (state.info conn).fd ≠ fd) : Agreeing (state.construct fd) := by
  have keyed := agreeing.keyed.construct free
  have old : ∀ conn, conn ≠ state.nextId → (state.construct fd).info conn = state.info conn :=
    fun conn other => Function.update_of_ne other _ _
  have server : ∀ conn, (state.construct fd).InServer conn ↔ state.InServer conn := by
    intro conn
    by_cases same : conn = state.nextId
    · -- neither table has a connection that is made now
      constructor
      · intro listed
        have member := agreeing.keyed.alive conn (.inl ⟨_, listed, rfl⟩)
        exact absurd same (Nat.ne_of_lt (agreeing.keyed.fresh conn member))
      · intro listed
        exact absurd same (Nat.ne_of_lt (agreeing.keyed.fresh conn (listed.alive agreeing.keyed)))
    · unfold InServer
      rw [old conn same]
      exact Iff.rfl
  have loop : ∀ conn, (state.construct fd).InLoop conn ↔ state.InLoop conn := by
    intro conn
    by_cases same : conn = state.nextId
    · constructor
      · intro listed
        have member := agreeing.keyed.alive conn (.inr (.inl ⟨_, _, listed, rfl⟩))
        exact absurd same (Nat.ne_of_lt (agreeing.keyed.fresh conn member))
      · intro listed
        exact absurd same (Nat.ne_of_lt (agreeing.keyed.fresh conn (listed.alive agreeing.keyed)))
    · unfold InLoop
      rw [old conn same, home_eq (congrArg ConnInfo.fd (old conn same))]
      exact Iff.rfl
  refine ⟨keyed, fun conn _ => ?_, fun conn shut => ?_, fun conn held => ?_, nofun⟩
  · rw [server, loop]
    refine agreeing.both conn fun enlisted => ?_
    rw [idle] at enlisted
    cases enlisted
  · rw [server]
    by_cases same : conn = state.nextId
    · rw [same] at shut
      have own : (state.construct fd).info state.nextId = { fd := fd, lastAtTime := state.now } :=
        Function.update_self ..
      rw [own] at shut
      cases shut
    · rw [old conn same] at shut
      exact agreeing.closed conn shut
  · cases held
    have own : (state.construct fd).info state.nextId = { fd := fd, lastAtTime := state.now } :=
      Function.update_self ..
    rw [own]

theorem agreeing_newConn (agreeing : Agreeing state) {conn : ConnId}
    (setting : state.main = .setting conn 4) : Agreeing (state.newConn conn) := by
  have own : conn ∈ state.live := by
    refine agreeing.keyed.alive conn (.inr (.inr (.inl ?_)))
    rw [setting]
    rfl
  have kept : ∀ other, other ≠ conn → ((state.newConn conn).InLoop other ↔ state.InLoop other) := by
    intro other different
    unfold InLoop
    show (_, other) ∈ ((state.newConn conn).loops (state.home other)).conns ↔ _
    rw [mem_newConn_conns]
    constructor
    · rintro (⟨_, same⟩ | ⟨old, _⟩)
      · exact absurd (congrArg Prod.snd same) different
      · exact old
    · intro listed
      refine .inr ⟨listed, .inl fun key => different ?_⟩
      exact agreeing.keyed.apart other (InLoop.alive agreeing.keyed listed) conn own key
  refine ⟨agreeing.keyed.newConn setting, fun other away => ?_, agreeing.closed, fun other held => ?_,
    fun other enlisted => ?_⟩
  · have different : other ≠ conn := by
      rintro rfl
      exact away rfl
    rw [kept other different]
    refine agreeing.both other fun enlisted => ?_
    rw [setting] at enlisted
    cases enlisted
  · cases held
    refine agreeing.hand conn ?_
    rw [setting]
    rfl
  · cases enlisted
    exact mem_newConn_conns.mpr (.inl ⟨rfl, rfl⟩)

theorem agreeing_publish (agreeing : Agreeing state) (keyed : Keyed next) {conn : ConnId}
    (enlisted : state.main = .enlisted conn)
    (same : next = collect { state with
      tcpConns := state.tcpConns.set (state.info conn).fd conn
      main := .published conn }) : Agreeing next := by
  subst same
  have own : conn ∈ state.live := by
    refine agreeing.keyed.alive conn (.inr (.inr (.inl ?_)))
    rw [enlisted]
    rfl
  refine ⟨keyed, fun other _ => ?_, fun other shut => ?_, fun other held => ?_, nofun⟩
  · show ((state.info other).fd, other) ∈ state.tcpConns.set (state.info conn).fd conn ↔
      state.InLoop other
    rw [Table.mem_set]
    by_cases here : other = conn
    · rw [here]
      exact ⟨fun _ => agreeing.enlisted conn enlisted, fun _ => .inl rfl⟩
    · rw [← agreeing.both other fun at_it => here (by rw [enlisted] at at_it; cases at_it; rfl)]
      constructor
      · rintro (new | ⟨old, _⟩)
        · exact absurd (congrArg Prod.snd new) here
        · exact old
      · intro listed
        refine .inr ⟨listed, fun key => here ?_⟩
        exact agreeing.keyed.apart other (listed.alive agreeing.keyed) conn own key
  · intro listed
    rcases Table.mem_set.mp listed with new | ⟨old, _⟩
    · have here : other = conn := congrArg Prod.snd new
      have connected := agreeing.hand conn (by rw [enlisted]; rfl)
      change (state.info other).disconn = true at shut
      rw [here, connected] at shut
      cases shut
    · exact agreeing.closed other shut old
  · cases held
    refine agreeing.hand conn ?_
    rw [enlisted]
    rfl

/-- **The main thread keeps the tables in agreement**, but for the connection it has in hand. -/
theorem mainStep_agreeing (agreeing : Agreeing state) {label : Label thds works}
    (took : state.mainStep label = some next) (keyed : Keyed next) : Agreeing next := by
  rcases mainStep_cases took with ⟨fd, idle, free, rfl⟩ | ⟨conn, cbs, setting, _, rfl⟩ |
    ⟨conn, setting, rfl⟩ | ⟨conn, enlisted, rfl⟩ | ⟨conn, published, rfl⟩
  · exact agreeing_construct agreeing idle free
  · refine agreeing.same keyed rfl (fun _ => rfl) (fun _ => rfl) (fun _ => rfl) (fun other held => ?_)
      fun other => ?_
    · rw [setting]
      exact held
    · rw [setting]
      constructor <;> nofun
  · exact agreeing_newConn agreeing setting
  · exact agreeing_publish agreeing keyed enlisted rfl
  · refine agreeing.same keyed rfl (fun _ => rfl) (fun _ => rfl) (fun _ => rfl) nofun fun other => ?_
    rw [published]
    constructor <;> nofun

/-! ### The steps of the other threads -/

/-- An eviction takes the entry out of both tables. -/
theorem agreeing_evict (agreeing : Agreeing state) (idle : state.main = .idle) {loop : Fin thds}
    {now : Int} {key : Nat} {conn : ConnId} (evicts : state.Evicts loop now key conn) :
    Agreeing (state.evict loop now key) := by
  obtain ⟨at_key, here⟩ := agreeing.keyed.keys loop _ (Table.mem_of_get evicts.2.1)
  simp only at at_key here
  have server : ∀ other, (state.evict loop now key).InServer other ↔
      state.InServer other ∧ (state.info other).fd ≠ key := fun other => Table.mem_erase
  have table : ∀ other, (state.evict loop now key).InLoop other ↔
      state.InLoop other ∧ (state.info other).fd ≠ key := by
    intro other
    unfold InLoop
    show (_, other) ∈ ((state.evict loop now key).loops (state.home other)).conns ↔ _
    rw [mem_evict_conns]
    constructor
    · rintro ⟨listed, kept⟩
      refine ⟨listed, fun same => kept ?_ same⟩
      rw [← here]
      unfold home
      rw [← at_key, same]
    · rintro ⟨listed, different⟩
      exact ⟨listed, fun _ => different⟩
  refine ⟨agreeing.keyed.evict loop now key, fun other away => ?_, fun other shut listed => ?_,
    fun other held => agreeing.hand other held, fun other enlisted => ?_⟩
  · rw [server, table, agreeing.both other away]
  · exact agreeing.closed other shut ((server other).mp listed).1
  · change state.main = .enlisted other at enlisted
    rw [idle] at enlisted
    cases enlisted

/-- The step closes a connection, or is the main thread's. -/
def Special : Label thds works → Bool
  | .accept _ | .setCb | .enlist | .publish | .ret | .close _ | .error _ => true
  | _ => false

/-- **The other threads keep the tables in agreement**, unless they close a connection. -/
theorem otherStep_agreeing (agreeing : Agreeing state) (idle : state.main = .idle)
    {label : Label thds works} (other : Special label = false)
    (took : state.step label = some next) : Agreeing next ∧ next.main = .idle := by
  have keyed := keyed_step agreeing.keyed took
  have looped : ∀ loop, state.loopStep loop label = some next → Agreeing next ∧ next.main = .idle := by
    intro loop took
    rcases loopStep_cases took with ⟨sub, rfl, conns, _⟩ | ⟨conn, _, _, rfl⟩ |
      ⟨_, conn, cbs, ends | ends, _, _, rfl⟩ | ⟨_, now, key, conn, _, evicts, rfl⟩
    · exact ⟨agreeing.same keyed rfl (loops_setLoop_conns conns) (fun _ => rfl) (fun _ => rfl)
        (fun _ => id) fun _ => Iff.rfl, idle⟩
    · refine ⟨agreeing.same keyed rfl (fun _ => rfl) (fun other => ?_) (fun other => ?_)
        (fun _ => id) fun _ => Iff.rfl, idle⟩
      · exact info_update ConnInfo.fd (by rfl) other
      · exact info_update ConnInfo.disconn (by rfl) other
    · rw [ends] at other
      cases other
    · rw [ends] at other
      cases other
    · exact ⟨agreeing_evict agreeing idle evicts, idle⟩
  have worked : ∀ worker, state.workerStep worker label = some next →
      Agreeing next ∧ next.main = .idle := by
    intro worker took
    rcases workerStep_cases took with ⟨conn, pool, _, _, rfl⟩ | ⟨pc, rfl, _, _⟩ |
      ⟨conn, _, _, rfl⟩ | ⟨conn, _, rfl⟩
    · exact ⟨agreeing.same keyed rfl (fun _ => rfl) (fun _ => rfl) (fun _ => rfl) (fun _ => id)
        fun _ => Iff.rfl, idle⟩
    · exact ⟨agreeing.same keyed rfl (fun _ => rfl) (fun _ => rfl) (fun _ => rfl) (fun _ => id)
        fun _ => Iff.rfl, idle⟩
    · exact ⟨agreeing.same keyed rfl (loops_setLoop_conns rfl) (fun _ => rfl) (fun _ => rfl)
        (fun _ => id) fun _ => Iff.rfl, idle⟩
    · exact ⟨agreeing.same keyed rfl (fun _ => rfl) (fun _ => rfl) (fun _ => rfl) (fun _ => id)
        fun _ => Iff.rfl, idle⟩
  unfold step at took
  cases label with
  | tick seconds =>
      cases took
      exact ⟨agreeing.same keyed rfl (fun _ => rfl) (fun _ => rfl) (fun _ => rfl) (fun _ => id)
        fun _ => Iff.rfl, idle⟩
  | accept | setCb | enlist | publish | ret | close | error => cases other
  | poll loop batch => exact looped loop took
  | dispatch loop | deliver loop | done loop | runTask loop | taskDone loop | drained loop
  | sweep loop => exact looped loop took
  | take worker | test worker | push worker | weakup worker | finish worker =>
      exact worked worker took

/-! ### A close -/

theorem Agreeing.agree (agreeing : Agreeing state) (idle : state.main = .idle) : Agree state := by
  have both : ∀ conn, state.InServer conn ↔ state.InLoop conn := by
    intro conn
    refine agreeing.both conn fun enlisted => ?_
    rw [idle] at enlisted
    cases enlisted
  refine ⟨both, fun conn shut => ⟨agreeing.closed conn shut, fun listed => ?_⟩⟩
  exact agreeing.closed conn shut ((both conn).mpr listed)

/-- A close takes the entry out of `tcpsvr::_conns`, and leaves the sub-loop's. -/
theorem inServer_terminate (keyed : Keyed state) (idle : state.main = .idle) {conn : ConnId}
    (own : conn ∈ state.live) (cbs : Nat) (other : ConnId) :
    (state.terminate conn cbs).InServer other ↔ state.InServer other ∧ other ≠ conn := by
  have set : state.CbSet conn cbs := by
    unfold CbSet
    rw [idle]
    trivial
  have fd : ((state.terminate conn cbs).info other).fd = (state.info other).fd :=
    info_update ConnInfo.fd (by rfl) other
  unfold InServer
  rw [fd]
  show _ ∈ (if state.CbSet conn cbs then state.tcpConns.erase (state.info conn).fd
    else state.tcpConns) ↔ _
  rw [if_pos set, Table.mem_erase]
  constructor
  · rintro ⟨listed, different⟩
    refine ⟨listed, ?_⟩
    rintro rfl
    exact different rfl
  · rintro ⟨listed, different⟩
    refine ⟨listed, fun key => different ?_⟩
    exact keyed.apart other (InServer.alive keyed listed) conn own key

theorem inLoop_terminate (conn : ConnId) (cbs : Nat) (other : ConnId) :
    (state.terminate conn cbs).InLoop other ↔ state.InLoop other := by
  have fd : ((state.terminate conn cbs).info other).fd = (state.info other).fd :=
    info_update ConnInfo.fd (by rfl) other
  unfold InLoop
  rw [fd, home_eq fd]
  exact Iff.rfl

/-- **A close leaves the tables in agreement if the sub-loop has dropped the connection.** -/
theorem agreeing_terminate (agreeing : Agreeing state) (idle : state.main = .idle) {conn : ConnId}
    (own : conn ∈ state.live) (cbs : Nat) (dropped : ¬ state.InLoop conn) :
    Agreeing (state.terminate conn cbs) := by
  have both := (agreeing.agree idle).both
  refine ⟨agreeing.keyed.frame (frame_terminate agreeing.keyed.alive conn cbs),
    fun other _ => ?_, fun other shut listed => ?_, fun other held => ?_, fun other enlisted => ?_⟩
  · rw [inServer_terminate agreeing.keyed idle own, inLoop_terminate, both]
    constructor
    · exact And.left
    · intro listed
      refine ⟨listed, ?_⟩
      rintro rfl
      exact dropped listed
  · obtain ⟨listed, different⟩ := (inServer_terminate agreeing.keyed idle own cbs other).mp listed
    change (Function.update state.info conn _ other).disconn = true at shut
    rw [Function.update_of_ne different] at shut
    exact agreeing.closed other shut listed
  · change state.main.holds = some other at held
    rw [idle] at held
    cases held
  · change state.main = .enlisted other at enlisted
    rw [idle] at enlisted
    cases enlisted

/-- ... and otherwise leaves the closed connection in the sub-loop's. -/
theorem dropped_of_agree (keyed : Keyed state) (idle : state.main = .idle) {conn : ConnId}
    (own : conn ∈ state.live) (cbs : Nat) (agree : Agree (state.terminate conn cbs)) :
    ¬ state.InLoop conn := by
  intro listed
  have still := (inLoop_terminate conn cbs conn).mpr listed
  have gone := (inServer_terminate keyed idle own cbs conn).mp ((agree.both conn).mpr still)
  exact gone.2 rfl

/-! ### Operations -/

/-- The main thread, over several steps. -/
theorem exec_main {labels : List (Label thds works)}
    (main : ∀ label ∈ labels, ∀ state : Server thds works, state.step label = state.mainStep label)
    (agreeing : Agreeing state) (ran : exec step state labels = some next) : Agreeing next := by
  induction labels generalizing state with
  | nil =>
      cases ran
      exact agreeing
  | cons label labels ih =>
      rw [exec, Option.bind_eq_some_iff] at ran
      obtain ⟨middle, took, rest⟩ := ran
      have keyed := keyed_step agreeing.keyed took
      rw [main label List.mem_cons_self] at took
      exact ih (fun other member => main other (List.mem_cons_of_mem _ member))
        (mainStep_agreeing agreeing took keyed) rest

/-- The other threads, over several steps that close nothing. -/
theorem exec_other {labels : List (Label thds works)}
    (tame : ∀ label ∈ labels, Special label = false) (agreeing : Agreeing state)
    (idle : state.main = .idle) (ran : exec step state labels = some next) :
    Agreeing next ∧ next.main = .idle := by
  induction labels generalizing state with
  | nil =>
      cases ran
      exact ⟨agreeing, idle⟩
  | cons label labels ih =>
      rw [exec, Option.bind_eq_some_iff] at ran
      obtain ⟨middle, took, rest⟩ := ran
      obtain ⟨agrees, still⟩ :=
        otherStep_agreeing agreeing idle (tame label List.mem_cons_self) took
      exact ih (fun other member => tame other (List.mem_cons_of_mem _ member)) agrees still rest

theorem inLoop_setLoop (state : Server thds works) {loop : Fin thds} {sub : SubLoop}
    (same : sub.conns = (state.loops loop).conns) (conn : ConnId) :
    (state.setLoop loop sub).InLoop conn ↔ state.InLoop conn := by
  unfold InLoop
  show _ ∈ ((state.setLoop loop sub).loops (state.home conn)).conns ↔ _
  rw [loops_setLoop_conns same]
  exact Iff.rfl

theorem agree_setLoop {loop : Fin thds} {sub : SubLoop}
    (same : sub.conns = (state.loops loop).conns) (agree : Agree (state.setLoop loop sub)) :
    Agree state where
  both conn := (agree.both conn).trans (inLoop_setLoop state same conn)
  closed conn shut :=
    ⟨(agree.closed conn shut).1, fun listed =>
      (agree.closed conn shut).2 ((inLoop_setLoop state same conn).mpr listed)⟩

/-- The event of a connection is handed to its handler. -/
theorem handed_over {loop : Fin thds} {conn : ConnId}
    (ran : exec step state [.poll loop [.conn conn], .dispatch loop] = some next) :
    (next.loops loop).handler = .conn conn ∧ (next.InLoop conn ↔ state.InLoop conn) := by
  rw [exec, Option.bind_eq_some_iff] at ran
  obtain ⟨polled, took, rest⟩ := ran
  have waiting : polled = state.setLoop loop { state.loops loop with batch := [.conn conn] } := by
    simp only [step, loopStep] at took
    split at took
    · split at took
      · cases took
        rfl
      · cases took
    · cases took
  subst waiting
  rw [exec, Option.bind_eq_some_iff] at rest
  obtain ⟨handed, took, rest⟩ := rest
  cases rest
  have batch : ((state.setLoop loop { state.loops loop with batch := [.conn conn] }).loops
      loop).batch = [.conn conn] := by
    rw [setLoop_self]
  simp only [step, loopStep, batch] at took
  split at took
  next same =>
    cases took
    cases same
    refine ⟨?_, ?_⟩
    · rw [setLoop_self]
    · refine Iff.trans (inLoop_setLoop _ ?_ conn) (inLoop_setLoop state ?_ conn)
      · rfl
      · rfl
  next => cases took

/-- A close or an error is taken up by the handler, ends the connection, and returns. -/
theorem exec_end {loop : Fin thds} {conn : ConnId} {ending : Label thds works}
    (ends : ending = .close loop ∨ ending = .error loop) (agreeing : Agreeing state)
    (idle : state.main = .idle)
    (ran : exec step state [.poll loop [.conn conn], .dispatch loop, ending, .done loop] =
      some next) :
    ∃ middle cbs, Agreeing middle ∧ middle.main = .idle ∧ conn ∈ middle.live ∧
      (middle.InLoop conn ↔ state.InLoop conn) ∧
      exec step (middle.terminate conn cbs) [.done loop] = some next := by
  have parts := exec_append step state [.poll loop [.conn conn], .dispatch loop]
    [ending, .done loop]
  change exec step state [.poll loop [.conn conn], .dispatch loop, ending, .done loop] = _ at parts
  rw [parts, Option.bind_eq_some_iff] at ran
  obtain ⟨middle, first, second⟩ := ran
  obtain ⟨agrees, still⟩ := exec_other (by simp [Special]) agreeing idle first
  obtain ⟨handling, listed⟩ := handed_over first
  rw [exec, Option.bind_eq_some_iff] at second
  obtain ⟨closed, took, rest⟩ := second
  rcases ends with rfl | rfl
  · simp only [step, loopStep, handling] at took
    split at took
    · rename_i usable
      cases took
      exact ⟨middle, 1, agrees, still, usable.1, listed, rest⟩
    · cases took
  · simp only [step, loopStep, handling] at took
    split at took
    · rename_i usable
      cases took
      exact ⟨middle, 2, agrees, still, usable.1, listed, rest⟩
    · cases took

/-- The handler of a connection returns. -/
theorem done_eq {loop : Fin thds} (took : state.step (.done loop) = some next) :
    ∃ sub, next = state.setLoop loop sub ∧ sub.conns = (state.loops loop).conns := by
  simp only [step, loopStep] at took
  split at took
  · split at took
    · cases took
      exact ⟨_, rfl, rfl⟩
    · cases took
  · cases took

/-- **A close keeps the tables in agreement exactly when the sub-loop has dropped the connection.** -/
theorem end_agree {loop : Fin thds} {conn : ConnId} {ending : Label thds works}
    (ends : ending = .close loop ∨ ending = .error loop) (agreeing : Agreeing state)
    (idle : state.main = .idle)
    (ran : exec step state [.poll loop [.conn conn], .dispatch loop, ending, .done loop] =
      some next) :
    (¬ state.InLoop conn → Agreeing next) ∧ (Agree next → ¬ state.InLoop conn) := by
  obtain ⟨middle, cbs, agrees, still, own, listed, rest⟩ := exec_end ends agreeing idle ran
  rw [← listed]
  constructor
  · intro dropped
    have closed := agreeing_terminate agrees still own cbs dropped
    exact (exec_other (by simp [Special]) closed still rest).1
  · intro agree
    rw [exec, Option.bind_eq_some_iff] at rest
    obtain ⟨last, took, same⟩ := rest
    cases same
    obtain ⟨sub, rfl, conns⟩ := done_eq took
    exact dropped_of_agree agrees.keyed still own cbs (agree_setLoop conns agree)

/-- What an operation starts from and, if it spares what the sub-loops have, leaves. -/
def Settled (state : Server thds works) : Prop :=
  Agreeing state ∧ state.Quiescent

theorem opStep_eq_some {operation : Operation thds works}
    (took : state.opStep operation = some next) :
    exec step state operation.labels = some next ∧ next.Quiescent := by
  unfold opStep at took
  rw [Option.filter_eq_some_iff] at took
  exact ⟨took.1, of_decide_eq_true took.2⟩

/-- A single step between quiescent states is a worker's or the clock's. -/
theorem elsewhere_tame {label : Label thds works} (quiet : state.Quiescent)
    (ran : exec step state [label] = some next) (still : next.Quiescent) :
    Special label = false := by
  rw [exec, Option.bind_eq_some_iff] at ran
  obtain ⟨last, took, same⟩ := ran
  cases same
  cases label with
  | accept fd =>
      simp only [step, mainStep] at took
      split at took
      · cases took
        cases still.1
      · cases took
  | setCb | enlist | publish | ret =>
      simp only [step, mainStep, quiet.1] at took
      cases took
  | close loop | error loop =>
      simp only [step, loopStep, (quiet.2 loop).1] at took
      cases took
  | _ => rfl

/-- **An operation that spares what the sub-loops have keeps the tables in agreement, and only such
a one.** -/
theorem opStep_agreeing {operation : Operation thds works} (agreeing : Agreeing state)
    (quiet : state.Quiescent) (took : state.opStep operation = some next) :
    (state.Spares operation → Agreeing next) ∧ (Agree next → state.Spares operation) := by
  obtain ⟨ran, still⟩ := opStep_eq_some took
  cases operation with
  | newConn fd =>
      refine ⟨fun _ => exec_main ?_ agreeing ran, fun _ => trivial⟩
      intro label member other
      simp only [Operation.labels, List.mem_cons, List.not_mem_nil, or_false] at member
      rcases member with rfl | rfl | rfl | rfl | rfl | rfl | rfl | rfl <;> rfl
  | onClose loop conn => exact end_agree (.inl rfl) agreeing quiet.1 ran
  | onError loop conn => exact end_agree (.inr rfl) agreeing quiet.1 ran
  | handleTimer loop steps =>
      refine ⟨fun _ => (exec_other ?_ agreeing quiet.1 ran).1, fun _ => trivial⟩
      intro label member
      simp only [Operation.labels, List.mem_append, List.mem_cons, List.not_mem_nil, or_false,
        List.mem_replicate] at member
      rcases member with (rfl | rfl) | ⟨_, rfl⟩ <;> rfl
  | onMsg loop conn messages =>
      refine ⟨fun _ => (exec_other ?_ agreeing quiet.1 ran).1, fun _ => trivial⟩
      intro label member
      simp only [Operation.labels, List.mem_append, List.mem_cons, List.not_mem_nil, or_false,
        List.mem_replicate] at member
      rcases member with ((rfl | rfl) | ⟨_, rfl⟩) | rfl <;> rfl
  | handleWeakup loop tasks =>
      refine ⟨fun _ => (exec_other ?_ agreeing quiet.1 ran).1, fun _ => trivial⟩
      intro label member
      simp only [Operation.labels, List.mem_append, List.mem_flatten, List.mem_replicate,
        List.mem_cons, List.not_mem_nil, or_false] at member
      rcases member with ((rfl | rfl) | ⟨_, ⟨_, rfl⟩, member⟩) | rfl
      · rfl
      · rfl
      · simp only [List.mem_cons, List.not_mem_nil, or_false] at member
        rcases member with rfl | rfl <;> rfl
      · rfl
  | elsewhere label =>
      refine ⟨fun _ => (exec_other ?_ agreeing quiet.1 ran).1, fun _ => trivial⟩
      intro other member
      rw [List.mem_singleton.mp member]
      exact elsewhere_tame quiet ran still

/-- **When the tables agree.** In every run of completed operations the two tables agree, and have
no closed connection, exactly when no operation closes a connection that its sub-loop's `_conns`
still has. -/
theorem tables_agree_iff (operations : List (Operation thds works)) :
    Always opStep Agree start operations ↔ Along opStep Spares start operations := by
  refine always_iff_along_through (?_ : ∀ state, Settled state → Agree state) ?_ ?_ ?_
  · rintro state ⟨agreeing, quiet⟩
    exact agreeing.agree quiet.1
  · rintro state operation next ⟨agreeing, quiet⟩ spares took
    exact ⟨(opStep_agreeing agreeing quiet took).1 spares, (opStep_eq_some took).2⟩
  · rintro state operation next ⟨agreeing, quiet⟩ took agree
    exact (opStep_agreeing agreeing quiet took).2 agree
  · refine ⟨⟨keyed_start, fun conn _ => ?_, nofun, nofun, nofun⟩, rfl, fun _ => ⟨rfl, rfl⟩⟩
    constructor <;> nofun

end Steps

/-- Two connections are set up, and the first of them times out and is evicted. -/
theorem tables_agree_iff_evicted :
    let operations : List (Operation 1 0) :=
      [.newConn 7, .newConn 8, .elsewhere (.tick 11), .handleTimer 0 2]
    (exec opStep start operations).isSome = true ∧
      (Always opStep Agree start operations ↔ Along opStep Spares start operations) :=
  ⟨by decide, tables_agree_iff _⟩

/-- **A client connects and leaves**: `_on_conn_close` erases its entry from `tcpsvr::_conns`, and
the sub-loop keeps the other. -/
theorem close_strands_entry :
    ¬ Always opStep Agree (start : Server 1 0) [.newConn 7, .onClose 0 0] := by
  have run : (exec opStep (start : Server 1 0) [.newConn 7, .onClose 0 0]).map
      (fun final => (decide (final.InServer 0), decide (final.InLoop 0))) = some (false, true) := by
    decide
  obtain ⟨final, ran, facts⟩ := Option.map_eq_some_iff.mp run
  obtain ⟨server, loop⟩ := Prod.mk.inj facts
  intro agrees
  have listed := ((agrees.last ran).both 0).mpr (of_decide_eq_true loop)
  exact of_decide_eq_false server listed

end Server

end IkunSvr
