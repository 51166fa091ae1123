/-
**The clients that wait to be accepted.**

The kernel queues the clients that connect; epoll reports the listening socket to the main loop, and
`acceptor::new_conn` accepts one of them for each event. `Listening` is a `tcpsvr` with its main loop
and that queue. The main loop's thread sets a connection up step by step; in between, the sub-loops
change the tables as they like, and the connection too, so it may be closed by the time that it is
announced. A client that leaves the queue before it is accepted is not part of this, for that ends the
process (`Tcpsvr.newConn_failed`).

* `makeLchnl_registered` — the listening socket is registered level-triggered;
* `onNewConn_eq` — with nobody in between, the steps are `_on_new_conn`;
* `Batch.accepts` — **`accept4` is called only while a client waits**;
* `sound_step` — the clients announced, the one that is being set up, and then the queue, are those
  that connected, in order;
* `every_client_announced` — **the main loop comes to rest, and then every client that has connected
  has been announced, with its own address**.
-/

import IkunSvr.Loop.Serving
import IkunSvr.Race.Setup
import IkunSvr.Server.Accept

namespace IkunSvr

open Run

/-- `_lchnl` in the constructor of `acceptor`. -/
def makeLchnl (fd : Nat) (interest : InterestList) : Except Stop Watch :=
  Watch.enableRead { chnl := { fd := fd }, interest := interest }

/-- **The listening socket is registered level-triggered**: there is no `use_et`. -/
theorem makeLchnl_registered {fd : Nat} {interest : InterestList} {watch : Watch}
    (made : makeLchnl fd interest = .ok watch) : watch.registered = some epollIn := by
  unfold makeLchnl Watch.enableRead at made
  cases found : interest fd with
  | none =>
      have synced : Watch.Synced { chnl := { fd := fd }, interest := interest } := by
        unfold Watch.Synced Watch.registered
        simp [found]
      rw [Watch.update_synced (Watch.setEvs_synced.mpr synced)] at made
      cases made
      exact Watch.enlisted_registered (Watch.setEvs _ (0 ||| epollIn))
  | some events =>
      simp [Poller.update, epollCtl, Watch.setEvs, found] at made

/-- The channels that the loop's thread has yet to handle. -/
def WakeLoop.RunPc.chnls : WakeLoop.RunPc → List (WakeLoop.Chnl × Mask)
  | .dispatching chnls | .reading chnls | .locking chnls | .draining chnls => chnls
  | .top | .waiting | .returned => []

/-! ### The steps of `_on_new_conn` -/

/-- How many steps there are to the end of `_on_new_conn`. -/
def SetupPc.left : SetupPc → ℕ
  | .setting cbs => 3 + (4 - cbs)
  | .enlisted => 2
  | .published => 1
  | .returned => 0

theorem SetupPc.left_next {pc next : SetupPc} (goes : pc.next = some next) : next.left < pc.left := by
  cases pc with
  | setting cbs =>
      cases goes
      split
      · simp only [left]
        omega
      · simp only [left]
        omega
  | enlisted | published =>
      cases goes
      simp [left]
  | returned => cases goes

namespace Tcpsvr

variable {thds : ℕ}

/-- The construction of the connection, which registers it with the sub-loop it is for. -/
def construct (server : Tcpsvr thds) (csock : Socket) (now : Int) :
    Except Halt (Client × Tcpsvr thds) :=
  if serves : 0 < thds then
    let loop := loopOf serves csock.fd
    (AnyFd.connect csock.fd (server.subLoops loop).interest now).map fun conn =>
      ({ conn with csock := csock }, { server with
        subLoops := Function.update server.subLoops loop
          { server.subLoops loop with interest := conn.cchnl.interest } })
  else .error .divide

/-- The step that leads up to `pc`; setting a callback touches no table. -/
def setUp (server : Tcpsvr thds) (conn : Client) : SetupPc → Tcpsvr thds
  | .setting _ => server
  | .enlisted => { server with
      subLoops := fun loop =>
        if loop = conn.csock.fd % thds then
          { server.subLoops loop with conns := (server.subLoops loop).conns.insert conn }
        else server.subLoops loop }
  | .published => { server with conns := server.conns.insert conn }
  | .returned => { server with
      announced := if server.newConnCb then server.announced ++ [conn] else server.announced }

/-- **With nobody in between, the steps are `_on_new_conn`.** -/
theorem onNewConn_eq (server : Tcpsvr thds) (csock : Socket) (now : Int) :
    server.onNewConn csock now = (server.construct csock now).map fun made =>
      ((made.2.setUp made.1 .enlisted).setUp made.1 .published).setUp made.1 .returned := by
  unfold onNewConn construct
  split
  next serves =>
    dsimp only
    cases AnyFd.connect csock.fd (server.subLoops (loopOf serves csock.fd)).interest now with
    | error halt => rfl
    | ok conn =>
        simp only [Except.map, enter, setUp, Except.ok.injEq, mk.injEq, true_and, and_true]
        funext loop
        by_cases here : loop = loopOf serves csock.fd
        · subst here
          simp [loopOf]
        · have elsewhere : (loop : ℕ) ≠ csock.fd % thds := fun same => here (Fin.ext same)
          simp [here, elsewhere]
  next => rfl

/-- **A descriptor that is not watched** can be registered. -/
theorem construct_open {server : Tcpsvr thds} {cfd : Int} {caddr : InetAddr} (now : Int)
    (serves : 0 < thds) (nonneg : 0 ≤ cfd) (small : cfd ≤ intMax)
    (absent : ∀ loop, (server.subLoops loop).interest (toUint32 cfd) = none) :
    ∃ conn subLoops, conn.csock = clientSocket cfd caddr ∧
      server.construct (clientSocket cfd caddr) now =
        .ok (conn, { server with subLoops := subLoops }) := by
  have made := Connect.make_eq (absent (loopOf serves (toUint32 cfd))) now
  unfold construct
  rw [dif_pos serves]
  simp only [clientSocket]
  rw [AnyFd.connect_open (isFd_accepted nonneg small), made]
  exact ⟨_, _, rfl, rfl⟩

end Tcpsvr

/-! ### The server -/

/-- A `tcpsvr` with its main loop, the clients in the kernel's queue, and those that ever connected. -/
structure Listening (thds : ℕ) (Caller Task : Type*) where
  tcp : Tcpsvr thds
  /-- `_lchnl`, with the interest list of the main loop's epoll instance -/
  watch : Watch
  loop : WakeLoop Caller Task := WakeLoop.create
  backlog : List InetAddr := []
  /-- a client has connected since epoll last reported the listening socket -/
  edge : Bool := false
  /-- the connection that `_on_new_conn` is setting up, and where it is -/
  setting : Option (Client × SetupPc) := none
  arrived : List InetAddr := []

namespace Listening

/-- A step of some thread, or of the kernel. -/
inductive Label (thds : ℕ) (Caller Task : Type*)
  | arrive (caddr : InetAddr)
  /-- `accept4` returns `cfd`, and the connection is constructed -/
  | newConn (cfd now : Int)
  /-- the next step of `_on_new_conn` -/
  | setUp
  /-- what the sub-loops make of their tables, of the server's and of the connection being set up -/
  | others (conns : Conns) (subLoops : Fin thds → LoopTables) (conn : Connect)
  | add (caller : Caller) (task : Task)
  | shutDown (caller : Caller)
  | weakup (caller : Caller)
  | fetch (reported : List (WakeLoop.Chnl × Mask))
  /-- the next step of the loop's thread, where it is not in `new_conn` -/
  | run

variable {thds : ℕ} {Caller Task : Type*}

/-- The channel of the listening socket. -/
def lchnl (state : Listening thds Caller Task) : WakeLoop.Chnl :=
  .other state.tcp.lsock.fd

/-- epoll has the listening socket to report. -/
def Readable (state : Listening thds Caller Task) : Prop :=
  state.backlog ≠ [] ∧ match state.watch.registered with
    | some mask => Has mask epollIn ∧ (Has mask epollEt → state.edge = true)
    | none => False

instance (state : Listening thds Caller Task) : Decidable state.Readable := by
  unfold Readable
  split <;> infer_instance

/-- What `epoll_wait` returns of the listening socket and the timer: nothing but input, and the
listening socket if a client waits and there is room. -/
def Returns (state : Listening thds Caller Task) (reported : List (WakeLoop.Chnl × Mask)) : Prop :=
  (∀ ev ∈ reported, ev.2 = epollIn) ∧ (state.lchnl ∈ reported.map Prod.fst → state.Readable) ∧
    (state.Readable → reported.length < maxEvs → state.lchnl ∈ reported.map Prod.fst)

instance (state : Listening thds Caller Task) (reported : List (WakeLoop.Chnl × Mask)) :
    Decidable (state.Returns reported) :=
  inferInstanceAs (Decidable (_ ∧ _ ∧ _))

/-- The loop's thread is in `new_conn`, or enters it next. -/
def Accepts (state : Listening thds Caller Task) : Prop :=
  match state.loop.loop with
  | .dispatching ((chnl, revs) :: _) => chnl = state.lchnl ∧ handleEvent revs = .read
  | _ => False

instance (state : Listening thds Caller Task) : Decidable state.Accepts := by
  unfold Accepts
  split <;> infer_instance

/-- A descriptor that is not open. -/
def Fresh (state : Listening thds Caller Task) (cfd : Int) : Prop :=
  0 ≤ cfd ∧ cfd ≤ intMax ∧ ∀ loop, (state.tcp.subLoops loop).interest (toUint32 cfd) = none

instance (state : Listening thds Caller Task) (cfd : Int) : Decidable (state.Fresh cfd) :=
  inferInstanceAs (Decidable (_ ∧ _ ∧ _))

/-- As constructed by an `echosvr`, `watch` being what `makeLchnl` has made. -/
def create (lsock : Socket) (watch : Watch) : Listening thds Caller Task where
  tcp := { lsock := lsock, newConnCb := true }
  watch := watch

section Step

variable [DecidableEq Caller]

/-- `acceptor::new_conn` for the listening socket's event, where `accept4` returns `cfd`, up to the
construction of the connection; with nobody to accept `accept4` would return -1, which ends the
process. -/
def newConn (state : Listening thds Caller Task) (cfd now : Int) :
    Option (Listening thds Caller Task) :=
  match state.backlog with
  | [] => none
  | caddr :: backlog =>
      if state.tcp.acceptorCb then
        match (state.tcp.accepted caddr).construct (Tcpsvr.clientSocket cfd caddr) now with
        | .error _ => none
        | .ok (conn, tcp) => some { state with
            tcp := tcp
            backlog := backlog
            setting := some (conn, .setting 0) }
      else state.loop.run.map fun loop =>
        { state with tcp := state.tcp.accepted caddr, loop := loop, backlog := backlog }

/-- The next step of `_on_new_conn`; with the last one the handler of the event returns. -/
def setUp (state : Listening thds Caller Task) : Option (Listening thds Caller Task) :=
  match state.setting with
  | none => none
  | some (conn, pc) =>
      match pc.next with
      | none => none
      | some .returned => state.loop.run.map fun loop =>
          { state with tcp := state.tcp.setUp conn .returned, loop := loop, setting := none }
      | some next => some { state with
          tcp := state.tcp.setUp conn next
          setting := some (conn, next) }

/-- A step. -/
def step (state : Listening thds Caller Task) :
    Label thds Caller Task → Option (Listening thds Caller Task)
  | .arrive caddr =>
      some { state with
        backlog := state.backlog ++ [caddr]
        edge := true
        arrived := state.arrived ++ [caddr] }
  | .newConn cfd now =>
      if state.Accepts ∧ state.setting.isNone ∧ state.Fresh cfd then state.newConn cfd now else none
  | .setUp => state.setUp
  | .others conns subLoops conn =>
      some { state with
        tcp := { state.tcp with conns := conns, subLoops := subLoops }
        setting := state.setting.map fun setting =>
          ({ setting.1 with toConnect := conn }, setting.2) }
  | .add caller task => (state.loop.step (.add caller task)).map fun loop => { state with loop := loop }
  | .shutDown caller => (state.loop.step (.shutDown caller)).map fun loop => { state with loop := loop }
  | .weakup caller => (state.loop.step (.weakup caller)).map fun loop => { state with loop := loop }
  | .fetch reported =>
      if state.Returns reported then
        (state.loop.step (.fetch reported)).map fun loop =>
          { state with
            loop := loop
            edge := state.edge && state.lchnl ∉ reported.map Prod.fst }
      else none
  | .run =>
      if state.Accepts then none else state.loop.run.map fun loop => { state with loop := loop }

end Step

/-- The address that `set_ip_port` has given a connection. -/
def address (conn : Client) : InetAddr where
  ip := conn.csock.ip
  port := conn.csock.port

/-- The client that is being set up. -/
def inHand (state : Listening thds Caller Task) : List InetAddr :=
  state.setting.toList.map fun setting => address setting.1

/-- The clients announced, the one that is being set up, and then those that wait, are those that
connected, in order. -/
def InOrder (state : Listening thds Caller Task) : Prop :=
  state.tcp.announced.map address ++ state.inHand ++ state.backlog = state.arrived

/-- The clients that wait and for whom no event of the batch at hand stands. -/
def unheard (state : Listening thds Caller Task) : ℕ :=
  if state.lchnl ∈ state.loop.loop.chnls.map Prod.fst ∧ state.setting.isNone then
    state.backlog.length - 1
  else state.backlog.length

/-- The steps of `_on_new_conn` that the event at hand stands for. -/
def stepsLeft (state : Listening thds Caller Task) : ℕ :=
  match state.setting with
  | some (_, pc) => pc.left
  | none => if state.lchnl ∈ state.loop.loop.chnls.map Prod.fst then 8 else 0

/-- A step of the loop's thread, a `weakup` that is to come, or `epoll_wait` that returns the eventfd,
the listening socket or both. -/
def Label.goes (lfd : ℕ) : Label thds Caller Task → Bool
  | .newConn _ _ | .setUp | .weakup _ | .run => true
  | .fetch reported => reported.all fun ev => ev.1 = .weak ∨ ev.1 = .other lfd
  | .arrive _ | .others _ _ _ | .add _ _ | .shutDown _ => false

/-- The batch at hand reports input and nothing else, each channel once, and the listening socket only
if a client waits or is being set up. -/
structure Batch (state : Listening thds Caller Task) : Prop where
  masks : ∀ ev ∈ state.loop.loop.chnls, ev.2 = epollIn
  once : (state.loop.loop.chnls.map Prod.fst).Nodup
  waiting : state.lchnl ∈ state.loop.loop.chnls.map Prod.fst → state.setting = none →
    state.backlog ≠ []

section Step

variable [DecidableEq Caller]

/-- What holds in every state. -/
structure Sound (lfd : ℕ) (state : Listening thds Caller Task) : Prop where
  loop : Reachable WakeLoop.step WakeLoop.create state.loop
  batch : state.Batch
  registered : state.watch.registered = some epollIn
  lsock : state.tcp.lsock.fd = lfd
  acceptorCb : state.tcp.acceptorCb = true
  newConnCb : state.tcp.newConnCb = true
  setting : ∀ conn pc, state.setting = some (conn, pc) → state.Accepts ∧ pc ≠ .returned
  inOrder : state.InOrder

theorem sound_create {lsock : Socket} {interest : InterestList} {watch : Watch}
    (made : makeLchnl lsock.fd interest = .ok watch) :
    (create lsock watch : Listening thds Caller Task).Sound lsock.fd where
  loop := ⟨[], rfl⟩
  batch := ⟨by simp [create, WakeLoop.create, WakeLoop.RunPc.chnls],
    by simp [create, WakeLoop.create, WakeLoop.RunPc.chnls],
    by simp [create, WakeLoop.create, WakeLoop.RunPc.chnls]⟩
  registered := makeLchnl_registered made
  lsock := rfl
  acceptorCb := rfl
  newConnCb := rfl
  setting := nofun
  inOrder := rfl

variable {state next : Listening thds Caller Task} {lfd : ℕ}

/-! ### The batch -/

omit [DecidableEq Caller] in
/-- A step of the loop's thread handles the first channel of the batch, or none. -/
theorem chnls_run {loop after : WakeLoop Caller Task} (took : loop.run = some after) :
    after.loop.chnls = loop.loop.chnls ∨ ∃ ev, loop.loop = .dispatching (ev :: after.loop.chnls) := by
  unfold WakeLoop.run at took
  split at took
  next here =>
    cases took
    left
    rw [here]
    split <;> rfl
  next => cases took
  next here =>
    cases took
    exact .inl (by rw [here]; rfl)
  next chnl revs rest here =>
    cases took
    refine .inr ⟨(chnl, revs), here.trans ?_⟩
    split <;> rfl
  next here =>
    cases took
    exact .inl (by rw [here]; rfl)
  next here =>
    cases took
    exact .inl (by rw [here]; rfl)
  next rest here =>
    split at took
    next =>
      cases took
      exact .inl (by rw [here]; rfl)
    next =>
      cases took
      exact .inl rfl
  next => cases took

omit [DecidableEq Caller] in
/-- Where the first channel is none of the loop's own, the loop itself does nothing about it. -/
theorem run_other {loop : WakeLoop Caller Task} {fd : ℕ} {revs : Mask}
    {rest : List (WakeLoop.Chnl × Mask)} (here : loop.loop = .dispatching ((.other fd, revs) :: rest)) :
    loop.run = some { loop with loop := .dispatching rest } := by
  simp [WakeLoop.run, here]

omit [DecidableEq Caller] in
/-- Fewer channels make a batch too. -/
theorem Batch.fewer (batch : state.Batch) (fewer : next.loop.loop.chnls <:+ state.loop.loop.chnls)
    (lchnl : next.lchnl = state.lchnl)
    (waiting : (state.setting = none → state.backlog ≠ []) → next.setting = none →
      next.backlog ≠ []) : next.Batch where
  masks ev member := batch.masks ev (fewer.subset member)
  once := batch.once.sublist (fewer.sublist.map Prod.fst)
  waiting member := by
    rw [lchnl] at member
    exact waiting (batch.waiting (List.map_subset _ fewer.subset member))

omit [DecidableEq Caller] in
/-- Where all channels report input, each gets its own mask. -/
theorem loop_input {reported : List (WakeLoop.Chnl × Mask)} (masks : ∀ ev ∈ reported, ev.2 = epollIn) :
    Poller.loop reported = reported := by
  unfold Poller.loop
  split
  next => rfl
  next chnl events rest =>
    have first : events = epollIn := masks (chnl, events) List.mem_cons_self
    refine (List.map_congr_left fun ev member => ?_).trans (List.map_id _)
    rw [first, ← masks ev member]
    rfl

omit [DecidableEq Caller] in
/-- A batch that epoll returns. -/
theorem Batch.fetched {reported : List (WakeLoop.Chnl × Mask)} (returns : state.Returns reported)
    (once : (reported.map Prod.fst).Nodup)
    (here : next.loop.loop = .dispatching (Poller.loop reported))
    (lchnl : next.lchnl = state.lchnl) (backlog : next.backlog = state.backlog) : next.Batch := by
  have chnls : next.loop.loop.chnls = reported := by
    rw [here]
    exact loop_input returns.1
  refine ⟨?_, ?_, fun member => ?_⟩
  · rw [chnls]
    exact returns.1
  · rw [chnls]
    exact once
  · rw [chnls, lchnl] at member
    rw [backlog]
    exact fun _ => (returns.2.1 member).1

/-! ### `new_conn` -/

omit [DecidableEq Caller] in
theorem accepts_iff : state.Accepts ↔ ∃ revs rest,
    state.loop.loop = .dispatching ((state.lchnl, revs) :: rest) ∧ handleEvent revs = .read := by
  unfold Accepts
  constructor
  · intro accepts
    split at accepts
    next chnl revs rest here =>
      obtain ⟨rfl, reads⟩ := accepts
      exact ⟨revs, rest, here, reads⟩
    next => exact accepts.elim
  · rintro ⟨revs, rest, here, reads⟩
    rw [here]
    exact ⟨rfl, reads⟩

omit [DecidableEq Caller] in
/-- **`accept4` is called only while a client waits.** -/
theorem Batch.accepts (batch : state.Batch) (accepts : state.Accepts) (free : state.setting = none) :
    state.backlog ≠ [] := by
  obtain ⟨revs, rest, here, -⟩ := accepts_iff.mp accepts
  refine batch.waiting ?_ free
  rw [here]
  exact List.mem_cons_self

/-- **What `new_conn` begins**: a connection to the first client that waits, with its own address. -/
theorem Sound.newConn (sound : state.Sound lfd) (serves : 0 < thds) {cfd : Int} (now : Int)
    (accepts : state.Accepts) (free : state.setting = none) (fresh : state.Fresh cfd) :
    ∃ caddr backlog conn subLoops, state.backlog = caddr :: backlog ∧ address conn = caddr ∧
      state.newConn cfd now = some { state with
        tcp := { state.tcp.accepted caddr with subLoops := subLoops }
        backlog := backlog
        setting := some (conn, .setting 0) } := by
  obtain ⟨caddr, backlog, queue⟩ := List.exists_cons_of_ne_nil (sound.batch.accepts accepts free)
  obtain ⟨nonneg, small, absent⟩ := fresh
  obtain ⟨conn, subLoops, csock, made⟩ := @Tcpsvr.construct_open _ (state.tcp.accepted caddr) cfd caddr
    now serves nonneg small absent
  refine ⟨caddr, backlog, conn, subLoops, queue, ?_, ?_⟩
  · unfold address
    rw [csock]
    rfl
  · unfold Listening.newConn
    rw [queue]
    simp only [sound.acceptorCb, if_true, made]

/-- What a step of `_on_new_conn` does: it moves on, or announces the connection and is done with the
event. -/
inductive SetsUp (state : Listening thds Caller Task) : Listening thds Caller Task → Prop
  | moves (conn : Client) (pc next : SetupPc) (here : state.setting = some (conn, pc))
      (goes : pc.next = some next) (stays : next ≠ .returned) :
      SetsUp state { state with
        tcp := state.tcp.setUp conn next
        setting := some (conn, next) }
  | announces (conn : Client) (pc : SetupPc) (loop : WakeLoop Caller Task)
      (here : state.setting = some (conn, pc)) (goes : pc.next = some .returned)
      (ran : state.loop.run = some loop) :
      SetsUp state { state with
        tcp := state.tcp.setUp conn .returned
        loop := loop
        setting := none }

omit [DecidableEq Caller] in
theorem setUp_cases (took : state.setUp = some next) : SetsUp state next := by
  unfold setUp at took
  split at took
  next => cases took
  next conn pc here =>
    split at took
    next => cases took
    next goes =>
      obtain ⟨loop, ran, rfl⟩ := Option.map_eq_some_iff.mp took
      exact .announces conn pc loop here goes ran
    next after stays goes =>
      cases took
      exact .moves conn pc after here goes stays

omit [DecidableEq Caller] in
/-- A step on the tables leaves the listening socket, the callbacks and the clients announced. -/
theorem setUp_kept (server : Tcpsvr thds) (conn : Client) {pc : SetupPc} (stays : pc ≠ .returned) :
    (server.setUp conn pc).lsock = server.lsock ∧
      (server.setUp conn pc).acceptorCb = server.acceptorCb ∧
      (server.setUp conn pc).newConnCb = server.newConnCb ∧
      (server.setUp conn pc).announced = server.announced := by
  cases pc with
  | returned => exact absurd rfl stays
  | _ => exact ⟨rfl, rfl, rfl, rfl⟩

/-! ### Every step -/

omit [DecidableEq Caller] in
/-- The thread is where it was, so it is in `new_conn` if it was. -/
theorem accepts_of_same (accepts : state.Accepts) (loop : next.loop.loop = state.loop.loop)
    (lchnl : next.lchnl = state.lchnl) : next.Accepts := by
  unfold Accepts at accepts ⊢
  rwa [loop, lchnl]

/-- A thread that waits for events sets nothing up. -/
theorem Sound.free (sound : state.Sound lfd) (waiting : state.loop.loop = .waiting) :
    state.setting = none := by
  refine Option.eq_none_iff_forall_ne_some.mpr fun entry here => ?_
  obtain ⟨revs, rest, stands, -⟩ := accepts_iff.mp (sound.setting entry.1 entry.2 here).1
  rw [waiting] at stands
  cases stands

/-- Where the loop's thread stays, and so do the queue and the server. -/
theorem Sound.call (sound : state.Sound lfd) {loop : WakeLoop Caller Task}
    {label : WakeLoop.Label Caller Task} (took : state.loop.step label = some loop)
    (calls : label.caller ≠ none) : Sound lfd { state with loop := loop } := by
  have same : loop.loop = state.loop.loop := WakeLoop.loop_apart took calls
  refine { sound with
    loop := sound.loop.next took
    batch := sound.batch.fewer ?_ rfl id
    setting := fun conn pc here => ?_ }
  · show loop.loop.chnls <:+ state.loop.loop.chnls
    rw [same]
  · obtain ⟨accepts, stays⟩ := sound.setting conn pc here
    exact ⟨accepts_of_same accepts same rfl, stays⟩

/-- The loop's thread leaves the handler of the event. -/
theorem Sound.handled (sound : state.Sound lfd) (accepts : state.Accepts)
    {loop : WakeLoop Caller Task} (ran : state.loop.run = some loop) :
    Reachable WakeLoop.step WakeLoop.create loop ∧ loop.loop.chnls <:+ state.loop.loop.chnls ∧
      state.lchnl ∉ loop.loop.chnls.map Prod.fst ∧
      state.lchnl ∈ state.loop.loop.chnls.map Prod.fst := by
  obtain ⟨revs, rest, here, -⟩ := accepts_iff.mp accepts
  rw [run_other here] at ran
  cases ran
  have moved : state.loop.step .run = some { state.loop with loop := .dispatching rest } :=
    run_other here
  have once := sound.batch.once
  rw [here] at once ⊢
  exact ⟨sound.loop.next moved, List.suffix_cons _ rest, (List.nodup_cons.mp once).1,
    List.mem_cons_self⟩

/-- **A step of `_on_new_conn`** keeps the order of the clients. -/
theorem sound_setUp (sound : state.Sound lfd) (took : state.setUp = some next) : next.Sound lfd := by
  cases setUp_cases took with
  | moves conn pc after here goes stays =>
      obtain ⟨accepts, -⟩ := sound.setting conn pc here
      obtain ⟨lsock, acceptorCb, newConnCb, announced⟩ := setUp_kept state.tcp conn stays
      have lchnl : WakeLoop.Chnl.other (state.tcp.setUp conn after).lsock.fd = state.lchnl := by
        rw [lsock]
        rfl
      refine { sound with
        batch := sound.batch.fewer List.suffix_rfl lchnl fun _ => nofun
        lsock := (congrArg Socket.fd lsock).trans sound.lsock
        acceptorCb := acceptorCb.trans sound.acceptorCb
        newConnCb := newConnCb.trans sound.newConnCb
        setting := fun other pc same => ?_
        inOrder := ?_ }
      · cases same
        exact ⟨accepts_of_same accepts rfl lchnl, stays⟩
      · have inOrder := sound.inOrder
        unfold InOrder inHand at inOrder ⊢
        rw [here] at inOrder
        rw [announced]
        exact inOrder
  | announces conn pc loop here goes ran =>
      obtain ⟨accepts, -⟩ := sound.setting conn pc here
      obtain ⟨reached, fewer, absent, -⟩ := sound.handled accepts ran
      refine { sound with
        loop := reached
        batch := ⟨fun ev member => sound.batch.masks ev (fewer.subset member),
          sound.batch.once.sublist (fewer.sublist.map Prod.fst), fun member => absurd member absent⟩
        setting := nofun
        inOrder := ?_ }
      have inOrder := sound.inOrder
      unfold InOrder inHand at inOrder ⊢
      rw [here] at inOrder
      simp only [Tcpsvr.setUp, sound.newConnCb, if_true, List.map_append, List.map_singleton]
      simpa using inOrder

/-- **What holds in every state.** -/
theorem sound_step (serves : 0 < thds) {label : Label thds Caller Task} (sound : state.Sound lfd)
    (took : state.step label = some next) : next.Sound lfd := by
  cases label with
  | arrive caddr =>
      cases took
      refine { sound with batch := ?_, setting := sound.setting, inOrder := ?_ }
      · exact sound.batch.fewer List.suffix_rfl rfl fun _ _ => by simp
      · show state.tcp.announced.map address ++ state.inHand ++ (state.backlog ++ [caddr]) =
          state.arrived ++ [caddr]
        rw [← List.append_assoc, sound.inOrder]
  | newConn cfd now =>
      obtain ⟨⟨accepts, free, fresh⟩, took⟩ := Option.ite_none_right_eq_some.mp took
      have free := Option.isNone_iff_eq_none.mp free
      obtain ⟨caddr, backlog, conn, subLoops, queue, own, after⟩ :=
        sound.newConn serves now accepts free fresh
      rw [after] at took
      cases took
      refine { sound with
        batch := sound.batch.fewer List.suffix_rfl rfl fun _ => nofun
        setting := fun other pc same => ?_
        inOrder := ?_ }
      · cases same
        exact ⟨accepts, nofun⟩
      · have inOrder := sound.inOrder
        unfold InOrder inHand at inOrder ⊢
        rw [free, queue] at inOrder
        simpa [own, Tcpsvr.accepted] using inOrder
  | setUp => exact sound_setUp sound took
  | others conns subLoops conn =>
      cases took
      refine { sound with
        batch := sound.batch.fewer List.suffix_rfl rfl fun waiting free =>
          waiting (Option.map_eq_none_iff.mp free)
        setting := fun other pc same => ?_
        inOrder := ?_ }
      · obtain ⟨⟨before, pc⟩, here, both⟩ := Option.map_eq_some_iff.mp same
        cases both
        exact sound.setting before _ here
      · have inOrder := sound.inOrder
        unfold InOrder inHand at inOrder ⊢
        rw [← inOrder]
        cases state.setting <;> rfl
  | add caller task =>
      obtain ⟨loop, added, rfl⟩ := Option.map_eq_some_iff.mp took
      exact sound.call added nofun
  | shutDown caller =>
      obtain ⟨loop, stored, rfl⟩ := Option.map_eq_some_iff.mp took
      exact sound.call stored nofun
  | weakup caller =>
      obtain ⟨loop, rung, rfl⟩ := Option.map_eq_some_iff.mp took
      exact sound.call rung nofun
  | fetch reported =>
      obtain ⟨returns, took⟩ := Option.ite_none_right_eq_some.mp took
      obtain ⟨loop, fetched, rfl⟩ := Option.map_eq_some_iff.mp took
      obtain ⟨⟨waiting, once⟩, same⟩ := Option.ite_none_right_eq_some.mp fetched
      refine { sound with
        loop := sound.loop.next fetched
        batch := ?_
        setting := fun conn pc here => ?_ }
      · cases same
        exact Batch.fetched returns once.2.2.1 rfl rfl rfl
      · cases (sound.free waiting).symm.trans here
  | run =>
      obtain ⟨elsewhere, took⟩ := Option.ite_none_left_eq_some.mp took
      obtain ⟨loop, ran, rfl⟩ := Option.map_eq_some_iff.mp took
      have moved : state.loop.step .run = some loop := ran
      refine { sound with
        loop := sound.loop.next moved
        batch := sound.batch.fewer ?_ rfl id
        setting := fun conn pc here => absurd (sound.setting conn pc here).1 elsewhere }
      show loop.loop.chnls <:+ state.loop.loop.chnls
      rcases chnls_run ran with same | ⟨ev, first⟩
      · rw [same]
      · rw [first]
        exact List.suffix_cons ev _

/-! ### What is still to do -/

section Measure

variable [Fintype Caller]

/-- What is still to do: a client that waits pays for the batch that reports it, and for its
`_on_new_conn`. -/
def measure (state : Listening thds Caller Task) : ℕ :=
  state.loop.measure + 17 * state.unheard + state.stepsLeft

omit [Fintype Caller] [DecidableEq Caller] in
/-- Channels that are each one of two are two at most. -/
theorem length_le_two {chnls : List WakeLoop.Chnl} {first second : WakeLoop.Chnl}
    (once : chnls.Nodup) (either : ∀ chnl ∈ chnls, chnl = first ∨ chnl = second) :
    chnls.length ≤ (if first ∈ chnls then 1 else 0) + if second ∈ chnls then 1 else 0 := by
  have counts : ∀ chnl : WakeLoop.Chnl, chnls.count chnl = if chnl ∈ chnls then 1 else 0 := by
    intro chnl
    split
    next member => exact List.count_eq_one_of_mem once member
    next absent => exact List.count_eq_zero_of_not_mem absent
  rw [← counts, ← counts]
  clear counts once
  induction chnls with
  | nil => exact Nat.zero_le _
  | cons chnl chnls ih =>
      have fewer := ih fun other member => either other (List.mem_cons_of_mem _ member)
      rw [List.length_cons, List.count_cons, List.count_cons]
      rcases either chnl List.mem_cons_self with rfl | rfl
      · simp only [beq_self_eq_true, if_true]
        omega
      · simp only [beq_self_eq_true, if_true]
        omega

/-- **What a batch costs**: with the eventfd in it, its write has paid. -/
theorem measure_fetch {loop after : WakeLoop Caller Task} {reported : List (WakeLoop.Chnl × Mask)}
    (masks : ∀ ev ∈ reported, ev.2 = epollIn) (took : loop.step (.fetch reported) = some after) :
    after.measure + (if WakeLoop.Chnl.weak ∈ reported.map Prod.fst then 7 else 0) ≤
      loop.measure + 2 + 4 * reported.length := by
  obtain ⟨⟨waiting, returns⟩, same⟩ := Option.ite_none_right_eq_some.mp took
  cases same
  rw [loop_input masks]
  show WakeLoop.RunPc.steps (.dispatching reported) + loop.tasks.length +
    (if 0 < loop.counter ∧ WakeLoop.RunPc.reads (.dispatching reported) = false then 7 else 0) +
      8 * (∑ caller, (loop.callers caller).calls) +
        (if WakeLoop.Chnl.weak ∈ reported.map Prod.fst then 7 else 0) ≤ _
  unfold WakeLoop.measure
  have alarm : (if 0 < loop.counter ∧ WakeLoop.RunPc.reads (.dispatching reported) = false
      then 7 else 0) + (if WakeLoop.Chnl.weak ∈ reported.map Prod.fst then 7 else 0) ≤
      if loop.Alarmed then 7 else 0 := by
    have calm : loop.loop.reads = false := by
      rw [waiting]
      rfl
    by_cases member : WakeLoop.Chnl.weak ∈ reported.map Prod.fst
    · obtain ⟨ev, present, weak⟩ := List.mem_map.mp member
      have written : 0 < loop.counter := (returns.2.2.2.1 ev present weak).2.2.1
      have reading : WakeLoop.RunPc.reads (.dispatching reported) = true := by
        refine List.any_eq_true.mpr ⟨ev, present, decide_eq_true ⟨weak, ?_⟩⟩
        rw [masks ev present]
        decide
      have alarmed : loop.Alarmed := ⟨written, calm⟩
      rw [if_pos member, if_pos alarmed, reading, if_neg (by simp)]
    · rw [if_neg member]
      split
      next unread =>
        have alarmed : loop.Alarmed := ⟨unread.1, calm⟩
        rw [if_pos alarmed]
      next => exact Nat.zero_le _
  simp only [WakeLoop.RunPc.steps] at alarm ⊢
  omega

omit [DecidableEq Caller] in
/-- A step of the loop pays for itself where no client is left unheard by it, and none set up. -/
theorem measure_lt (less : next.loop.measure < state.loop.measure) (heard : next.unheard = state.unheard)
    (left : next.stepsLeft ≤ state.stepsLeft) : next.measure < state.measure := by
  unfold measure
  omega

omit [Fintype Caller] [DecidableEq Caller] in
/-- Where the event of the listening socket stays as it is, so does what it pays for. -/
theorem unheard_of_same (setting : next.setting = state.setting) (backlog : next.backlog = state.backlog)
    (reports : next.lchnl ∈ next.loop.loop.chnls.map Prod.fst ↔
      state.lchnl ∈ state.loop.loop.chnls.map Prod.fst) :
    next.unheard = state.unheard ∧ next.stepsLeft = state.stepsLeft := by
  unfold unheard stepsLeft
  rw [setting, backlog]
  simp only [reports, and_self]

omit [Fintype Caller] [DecidableEq Caller] in
/-- The client that is being set up has paid for the event. -/
theorem unheard_of_setting {entry : Client × SetupPc} (here : state.setting = some entry) :
    state.unheard = state.backlog.length ∧ state.stepsLeft = entry.2.left := by
  unfold unheard stepsLeft
  rw [here]
  exact ⟨if_neg fun both => absurd both.2 (by simp), rfl⟩

/-- **A batch pays for itself**: a client that it reports has paid, or else the eventfd's write. -/
theorem measure_reports {reported : List (WakeLoop.Chnl × Mask)} (sound : state.Sound lfd)
    (goes : (Label.fetch reported : Label thds Caller Task).goes lfd = true)
    (took : state.step (.fetch reported) = some next) : next.measure < state.measure := by
  obtain ⟨returns, took⟩ := Option.ite_none_right_eq_some.mp took
  obtain ⟨loop, fetched, rfl⟩ := Option.map_eq_some_iff.mp took
  have costs := measure_fetch returns.1 fetched
  obtain ⟨⟨waiting, some_ev, -, once, -⟩, same⟩ := Option.ite_none_right_eq_some.mp fetched
  have few : (reported.map Prod.fst).length ≤
      (if WakeLoop.Chnl.weak ∈ reported.map Prod.fst then 1 else 0) +
        if state.lchnl ∈ reported.map Prod.fst then 1 else 0 := by
    refine length_le_two once fun chnl member => ?_
    obtain ⟨ev, present, rfl⟩ := List.mem_map.mp member
    have either := of_decide_eq_true (List.all_eq_true.mp goes ev present)
    rwa [← sound.lsock] at either
  have calm : state.lchnl ∉ state.loop.loop.chnls.map Prod.fst := by
    rw [waiting]
    exact List.not_mem_nil
  have free : state.setting = none := sound.free waiting
  have chnls : loop.loop.chnls = reported := by
    rw [← Option.some.inj same]
    exact loop_input returns.1
  have pos := List.length_pos_of_ne_nil some_ev
  rw [List.length_map] at few
  have spent : loop.measure <
      state.loop.measure + 7 * if state.lchnl ∈ reported.map Prod.fst then 1 else 0 := by
    split at costs
    next weak =>
      rw [if_pos weak] at few
      omega
    next silent =>
      rw [if_neg silent] at few
      omega
  show loop.measure +
      17 * (if state.lchnl ∈ loop.loop.chnls.map Prod.fst ∧ state.setting.isNone then
        state.backlog.length - 1 else state.backlog.length) +
      (match state.setting with
        | some (_, pc) => pc.left
        | none => if state.lchnl ∈ loop.loop.chnls.map Prod.fst then 8 else 0) < state.measure
  unfold measure unheard stepsLeft
  rw [chnls, free]
  simp only [calm, if_false, Option.isNone_none, and_true]
  by_cases reports : state.lchnl ∈ reported.map Prod.fst
  · have waits := List.length_pos_of_ne_nil (returns.2.1 reports).1
    simp only [reports, if_true] at spent ⊢
    omega
  · simp only [reports, if_false] at spent ⊢
    omega

/-- **A step of `_on_new_conn` pays for itself.** -/
theorem measure_setUp (sound : state.Sound lfd) (took : state.setUp = some next) :
    next.measure < state.measure := by
  cases setUp_cases took with
  | moves conn pc after here goes stays =>
      obtain ⟨heard, left⟩ := unheard_of_setting here
      have fewer := SetupPc.left_next goes
      show state.loop.measure + 17 * _ + after.left < state.measure
      unfold measure
      rw [heard, left]
      have same : unheard { state with
          tcp := state.tcp.setUp conn after
          setting := some (conn, after) } = state.backlog.length :=
        (unheard_of_setting rfl).1
      rw [same]
      exact Nat.add_lt_add_left fewer _
  | announces conn pc loop here goes ran =>
      obtain ⟨heard, left⟩ := unheard_of_setting here
      obtain ⟨-, -, absent, -⟩ := sound.handled (sound.setting conn pc here).1 ran
      refine measure_lt (WakeLoop.measure_run ran) ?_ ?_
      · rw [heard]
        exact if_neg fun both => absent both.1
      · exact (if_neg absent).le.trans (Nat.zero_le _)

/-- **Every step of those that go on lowers what is still to do.** -/
theorem measure_step (serves : 0 < thds) {label : Label thds Caller Task} (sound : state.Sound lfd)
    (goes : label.goes lfd = true) (took : state.step label = some next) :
    next.measure < state.measure := by
  cases label with
  | newConn cfd now =>
      obtain ⟨⟨accepts, free, fresh⟩, took⟩ := Option.ite_none_right_eq_some.mp took
      have free := Option.isNone_iff_eq_none.mp free
      obtain ⟨caddr, backlog, conn, subLoops, queue, -, after⟩ :=
        sound.newConn serves now accepts free fresh
      rw [after] at took
      cases took
      obtain ⟨revs, rest, here, -⟩ := accepts_iff.mp accepts
      have reports : state.lchnl ∈ state.loop.loop.chnls.map Prod.fst := by
        rw [here]
        exact List.mem_cons_self
      have after := @unheard_of_setting _ _ _ { state with
        tcp := { state.tcp.accepted caddr with subLoops := subLoops }
        backlog := backlog
        setting := some (conn, .setting 0) } _ rfl
      have before : state.unheard = backlog.length ∧ state.stepsLeft = 8 := by
        unfold unheard stepsLeft
        rw [free, queue]
        simp [reports]
      unfold measure
      rw [after.1, after.2, before.1, before.2]
      exact Nat.lt_succ_self _
  | setUp => exact measure_setUp sound took
  | weakup caller =>
      obtain ⟨loop, rung, rfl⟩ := Option.map_eq_some_iff.mp took
      obtain ⟨heard, left⟩ := @unheard_of_same _ _ _ state { state with loop := loop } rfl rfl (by
        show state.lchnl ∈ loop.loop.chnls.map Prod.fst ↔ _
        rw [WakeLoop.loop_apart rung nofun])
      exact measure_lt (WakeLoop.measure_step rfl rung) heard left.le
  | fetch reported => exact measure_reports sound goes took
  | run =>
      obtain ⟨elsewhere, took⟩ := Option.ite_none_left_eq_some.mp took
      obtain ⟨loop, ran, rfl⟩ := Option.map_eq_some_iff.mp took
      obtain ⟨heard, left⟩ := @unheard_of_same _ _ _ state { state with loop := loop } rfl rfl (by
        show state.lchnl ∈ loop.loop.chnls.map Prod.fst ↔
          state.lchnl ∈ state.loop.loop.chnls.map Prod.fst
        rcases chnls_run ran with same | ⟨ev, first⟩
        · rw [same]
        · have other : state.lchnl ≠ ev.1 := by
            intro same
            refine elsewhere (accepts_iff.mpr ⟨ev.2, loop.loop.chnls, ?_, ?_⟩)
            · rw [same]
              exact first
            · have mask : ev.2 = epollIn :=
                sound.batch.masks ev (by rw [first]; exact List.mem_cons_self)
              rw [mask]
              decide
          have chnls : state.loop.loop.chnls = ev :: loop.loop.chnls := by
            rw [first]
            rfl
          rw [chnls, List.map_cons, List.mem_cons, or_iff_right other])
      exact measure_lt (WakeLoop.measure_run ran) heard left.le
  | arrive | others | add | shutDown => cases goes

end Measure

/-! ### Rest -/

/-- Nobody can go on. -/
def Rests (lfd : ℕ) (state : Listening thds Caller Task) : Prop :=
  Run.Rests step (Label.goes lfd) state

/-- Who goes on brings no client, and does not stop the loop. -/
theorem goes_keeps {label : Label thds Caller Task} (goes : label.goes lfd = true)
    (took : state.step label = some next) :
    next.arrived = state.arrived ∧ next.loop.shutDown = state.loop.shutDown := by
  cases label with
  | newConn cfd now =>
      obtain ⟨-, took⟩ := Option.ite_none_right_eq_some.mp took
      unfold Listening.newConn at took
      split at took
      next => cases took
      next caddr backlog queue =>
        split at took
        next =>
          split at took
          next => cases took
          next conn tcp made =>
            cases took
            exact ⟨rfl, rfl⟩
        next =>
          obtain ⟨loop, ran, rfl⟩ := Option.map_eq_some_iff.mp took
          have ran : state.loop.step .run = some loop := ran
          exact ⟨rfl, WakeLoop.shutDown_step ran⟩
  | setUp =>
      cases setUp_cases took with
      | moves conn pc after here goes stays => exact ⟨rfl, rfl⟩
      | announces conn pc loop here goes ran =>
          have ran : state.loop.step .run = some loop := ran
          exact ⟨rfl, WakeLoop.shutDown_step ran⟩
  | weakup caller =>
      obtain ⟨loop, rung, rfl⟩ := Option.map_eq_some_iff.mp took
      exact ⟨rfl, WakeLoop.shutDown_step rung⟩
  | fetch reported =>
      obtain ⟨-, took⟩ := Option.ite_none_right_eq_some.mp took
      obtain ⟨loop, fetched, rfl⟩ := Option.map_eq_some_iff.mp took
      exact ⟨rfl, WakeLoop.shutDown_step fetched⟩
  | run =>
      obtain ⟨-, took⟩ := Option.ite_none_left_eq_some.mp took
      obtain ⟨loop, ran, rfl⟩ := Option.map_eq_some_iff.mp took
      have ran : state.loop.step .run = some loop := ran
      exact ⟨rfl, WakeLoop.shutDown_step ran⟩
  | arrive | others | add | shutDown => cases goes

omit [DecidableEq Caller] in
/-- epoll can return what there is to report. -/
theorem returns_both (state : Listening thds Caller Task) (readable : state.Readable) :
    ∃ reported, state.Returns reported ∧ state.loop.Returns reported ∧
      (Label.fetch reported : Label thds Caller Task).goes state.tcp.lsock.fd = true := by
  by_cases woken : state.loop.Readable
  · refine ⟨[(.weak, epollIn), (state.lchnl, epollIn)], ?_, ?_, ?_⟩
    · exact ⟨by simp, fun _ => readable, fun _ _ => by simp⟩
    · exact ⟨by simp, by simp [maxEvs], by simp [lchnl],
        fun ev member _ => ⟨by simp at member; rcases member with rfl | rfl <;> rfl, woken⟩,
        fun _ _ => by simp⟩
    · simp [Label.goes, lchnl]
  · refine ⟨[(state.lchnl, epollIn)], ?_, ?_, ?_⟩
    · exact ⟨by simp, fun _ => readable, fun _ _ => by simp⟩
    · refine ⟨by simp, by simp [maxEvs], by simp, fun ev member weak => ?_, fun awake => absurd awake woken⟩
      obtain rfl := List.mem_singleton.mp member
      cases weak
    · simp [Label.goes, lchnl]

/-- **Where nobody can go on, no client waits, nor is one being set up**: there is a descriptor for it,
and the listening socket is reported until the queue is empty. -/
theorem Sound.empty_of_rest (sound : state.Sound lfd) (serves : 0 < thds)
    (runs : state.loop.shutDown = false) (open_more : ∃ cfd, state.Fresh cfd)
    (rests : state.Rests lfd) : state.setting = none ∧ state.backlog = [] := by
  have loops := WakeLoop.sound_reachable sound.loop
  have free : state.setting = none := by
    refine Option.eq_none_iff_forall_ne_some.mpr fun entry here => ?_
    obtain ⟨accepts, stays⟩ := sound.setting entry.1 entry.2 here
    obtain ⟨revs, rest, stands, -⟩ := accepts_iff.mp accepts
    have stuck : state.setUp = none := rests .setUp rfl
    obtain ⟨conn, pc⟩ := entry
    have ran := run_other stands
    cases pc with
    | setting cbs =>
        by_cases more : cbs < 4 <;> simp [Listening.setUp, here, SetupPc.next, more] at stuck
    | enlisted => simp [Listening.setUp, here, SetupPc.next] at stuck
    | published => simp [Listening.setUp, here, SetupPc.next, ran] at stuck
    | returned => exact stays rfl
  have elsewhere : ¬ state.Accepts := by
    intro accepts
    obtain ⟨cfd, fresh⟩ := open_more
    obtain ⟨_, _, _, _, -, -, after⟩ := sound.newConn serves 0 accepts free fresh
    have stuck := rests (.newConn cfd 0) rfl
    simp [step, accepts, free, fresh, after] at stuck
  have stuck : state.loop.run = none := by
    have still := rests .run rfl
    simp only [step, if_neg elsewhere] at still
    exact Option.map_eq_none_iff.mp still
  have waiting : state.loop.loop = .waiting :=
    (WakeLoop.stands_of_run stuck).resolve_right fun returned => by
      rw [loops.stopped returned] at runs
      cases runs
  refine ⟨free, ?_⟩
  by_contra waits
  have readable : state.Readable := by
    refine ⟨waits, ?_⟩
    rw [sound.registered]
    exact ⟨by decide, fun edge => absurd edge (by decide)⟩
  obtain ⟨reported, returns, wakes, goes⟩ := returns_both state readable
  rw [sound.lsock] at goes
  have asleep := rests (.fetch reported) goes
  simp [step, returns, WakeLoop.step, waiting, wakes] at asleep

/-- **Every client is announced.** In every reachable state, the clients announced, the one that is
being set up, and then those in the queue are those that connected, in order, and `accept4` is called
only while one waits. From there the main loop takes a bounded number of steps, if nobody connects,
adds a task or shuts it down, and epoll reports the eventfd and the listening socket only; and where
it can take no more, the loop was not shut down and there are descriptors left, every client that
connected has been announced, under its own address, whatever the sub-loops have done meanwhile. -/
theorem every_client_announced [Fintype Caller] (serves : 0 < thds) {lsock : Socket}
    {interest : InterestList} {watch : Watch} (made : makeLchnl lsock.fd interest = .ok watch)
    {final : Listening thds Caller Task} (reach : Reachable step (create lsock watch) state)
    {labels : List (Label thds Caller Task)}
    (ran : exec (only step (Label.goes lsock.fd)) state labels = some final) :
    (state.InOrder ∧ (state.Accepts → state.setting = none → state.backlog ≠ [])) ∧
      labels.length ≤ state.measure ∧ final.arrived = state.arrived ∧
      (state.loop.shutDown = false → (∃ cfd, final.Fresh cfd) → final.Rests lsock.fd →
        final.backlog = [] ∧ final.tcp.announced.map address = final.arrived) := by
  have always : ∀ {later : Listening thds Caller Task}, Reachable step (create lsock watch) later →
      later.Sound lsock.fd := fun reached =>
    reached.invariant (fun _ _ _ sound took => sound_step serves sound took) (sound_create made)
  have sound := always reach
  refine ⟨⟨sound.inOrder, sound.batch.accepts⟩, ?_, ?_⟩
  · have kept : ∀ (now : Listening thds Caller Task) label later, now.Sound lsock.fd →
        now.step label = some later → later.Sound lsock.fd :=
      fun _ _ _ sound took => sound_step serves sound took
    exact only_ends_within kept (fun _ _ _ sound goes took => measure_step serves sound goes took)
      sound ran
  · obtain ⟨arrived, shutDown⟩ := only_kept
      (fun later => later.arrived = state.arrived ∧ later.loop.shutDown = state.loop.shutDown)
      (by
        rintro now label later goes ⟨arrived, shutDown⟩ took
        obtain ⟨same, still⟩ := goes_keeps goes took
        exact ⟨same.trans arrived, still.trans shutDown⟩)
      ⟨rfl, rfl⟩ ran
    refine ⟨arrived, fun runs open_more rests => ?_⟩
    have last := always (reach.only ran)
    obtain ⟨free, empty⟩ := last.empty_of_rest serves (shutDown.trans runs) open_more rests
    have inOrder := last.inOrder
    unfold InOrder inHand at inOrder
    rw [free, empty] at inOrder
    exact ⟨empty, by simpa using inOrder⟩

/-- Two clients connect, and are announced in two batches; the first one is closed while it is being
set up. -/
theorem every_client_announced_two :
    ∃ final : Listening 1 Unit Unit, final.backlog = [] ∧ final.tcp.announced.map address =
      [{ ip := "10.0.0.1", port := 4001 }, { ip := "10.0.0.2", port := 4002 }] := by
  have run : ∃ (watch : Watch) (state final : Listening 1 Unit Unit),
      makeLchnl 3 (fun _ => none) = .ok watch ∧
      exec step (create { fd := 3, ip := "0.0.0.0", port := 8765 } watch)
        [.run, .arrive { ip := "10.0.0.1", port := 4001 }, .arrive { ip := "10.0.0.2", port := 4002 },
          .fetch [(.other 3, epollIn)], .newConn 8 0, .setUp,
          .others (fun _ => none) (fun _ => {})
            { cchnl := { chnl := { fd := 8, inEp := true }, interest := fun _ => none }
              disconn := true, lastAtTime := 0 }] = some state ∧
      exec (only step (Label.goes 3)) state
        (List.replicate 6 .setUp ++ [.run, .run, .fetch [(.other 3, epollIn)], .newConn 9 0] ++
          List.replicate 7 .setUp ++ [.run, .run]) = some final ∧
      state.loop.shutDown = false ∧
      state.arrived = [{ ip := "10.0.0.1", port := 4001 }, { ip := "10.0.0.2", port := 4002 }] ∧
      (final.tcp.subLoops 0).interest (toUint32 10) = none ∧ final.setting = none ∧
      final.loop.loop = .waiting ∧ final.loop.callers () = .idle ∧ final.loop.counter = 0 ∧
      final.backlog = [] ∧ final.tcp.lsock.fd = 3 :=
    ⟨_, _, _, rfl, rfl, rfl, rfl, rfl, rfl, rfl, rfl, rfl, rfl, rfl, rfl⟩
  obtain ⟨watch, state, final, made, ran, went, runs, arrived, absent, free, waiting, idle, unwritten,
    empty, lsock⟩ := run
  have rests : final.Rests 3 := by
    intro label goes
    cases label with
    | newConn cfd now => simp [step, Accepts, waiting]
    | setUp => simp [step, Listening.setUp, free]
    | weakup caller => simp [step, WakeLoop.step, idle]
    | run => simp [step, Accepts, waiting, WakeLoop.run]
    | fetch reported =>
        refine Option.eq_none_iff_forall_ne_some.mpr fun next took => ?_
        obtain ⟨returns, took⟩ := Option.ite_none_right_eq_some.mp took
        obtain ⟨loop, fetched, -⟩ := Option.map_eq_some_iff.mp took
        obtain ⟨⟨-, some_ev, -, -, weaks, -⟩, -⟩ := Option.ite_none_right_eq_some.mp fetched
        obtain ⟨ev, rest, rfl⟩ := List.exists_cons_of_ne_nil some_ev
        have here : ev ∈ ev :: rest := List.mem_cons_self
        rcases of_decide_eq_true (List.all_eq_true.mp goes ev here) with weak | listening
        · exact absurd unwritten (weaks ev here weak).2.2.1.ne'
        · rw [← lsock] at listening
          exact (returns.2.1 (List.mem_map.mpr ⟨ev, here, listening⟩)).1 empty
    | arrive | others | add | shutDown => cases goes
  obtain ⟨-, -, same, announced⟩ := every_client_announced (by decide) made ⟨_, ran⟩ went
  obtain ⟨none_left, all⟩ := announced runs ⟨10, by decide, by decide, fun loop => by
    obtain rfl : loop = 0 := Subsingleton.elim _ _
    exact absent⟩ rests
  exact ⟨final, none_left, all.trans (same.trans arrived)⟩

end Step

end Listening

end IkunSvr
