/-
**`acceptor::new_conn`: a client is accepted, or not.**

`socket::accept` hands on what `::accept4` returned as a `uint32_t`. The constructor of `socket`
checks it for being negative, which it cannot be, and `tcpsvr::_on_new_conn` sets the connection up on
the sub-loop the number selects. `Tcpsvr` is what `new_conn` reads and writes: the listening socket,
the tables of the server and of its sub-loops, and the epoll registrations.

* `make_ok` — **the check of `socket::socket` never fires**;
* `connect_closed` — `poller::update` exits on a number that is no descriptor;
* `newConn_open` — a descriptor the sub-loop does not watch is registered, entered in both tables and
  announced;
* `newConn_failed` — **after a failed `accept4` a server that has a sub-loop exits in
  `poller::update`**;
* `new_conn_leaves_iff` — when `new_conn` leaves the tables as they were.
-/

import IkunSvr.Net.Connect

namespace IkunSvr

/-! ### Descriptors as the code passes them -/

/-- An `int` converted to `uint32_t`. -/
def toUint32 (value : Int) : Nat :=
  (value % 2 ^ 32).toNat

/-- Where the process ends. -/
inductive Halt
  /-- `::exit(-1)` in `socket::socket` -/
  | socket
  /-- `::exit(-1)` in `poller::update` -/
  | update
  /-- undefined behaviour: `% 0` -/
  | divide
  deriving DecidableEq, Repr

/-- A number `epoll_ctl` takes for a descriptor: as an `int` it is not negative. -/
def IsFd (fd : Nat) : Prop :=
  0 ≤ toInt fd

instance (fd : Nat) : Decidable (IsFd fd) :=
  inferInstanceAs (Decidable (0 ≤ toInt fd))

theorem not_isFd_failed : ¬ IsFd (toUint32 (-1)) := by
  decide

/-- What `accept4` returns when it succeeds comes through the conversion unchanged. -/
theorem toUint32_of_small {cfd : Int} (nonneg : 0 ≤ cfd) (small : cfd ≤ intMax) :
    (toUint32 cfd : Int) = cfd := by
  unfold intMax at small
  unfold toUint32
  omega

theorem isFd_accepted {cfd : Int} (nonneg : 0 ≤ cfd) (small : cfd ≤ intMax) :
    IsFd (toUint32 cfd) := by
  unfold IsFd
  rw [toUint32_of_small nonneg small, toInt_of_small nonneg small]
  exact nonneg

/-! ### The socket -/

/-- `class inetaddr`: what `ip()` and `port()` say. -/
structure InetAddr where
  ip : String
  port : Nat
  deriving DecidableEq, Repr

/-- `class socket`; `_fd` is a `uint32_t`. -/
structure Socket where
  fd : Nat
  ip : String := ""
  port : Nat := 0
  deriving DecidableEq, Repr

namespace Socket

/-- `socket::socket`. -/
def make (fd : Nat) : Except Halt Socket :=
  if fd < 0 then .error .socket else .ok { fd := fd }

/-- `socket::set_ip_port`. -/
def setIpPort (sock : Socket) (ip : String) (port : Nat) : Socket :=
  { sock with ip := ip, port := port }

/-- `socket::accept`, where `accept4` has returned `cfd` and written `caddr`, whether or not it
failed; what it returns, and the listening socket after it. -/
def accept (lsock : Socket) (cfd : Int) (caddr : InetAddr) : Nat × Socket :=
  (toUint32 cfd, lsock.setIpPort caddr.ip caddr.port)

/-- **The check of the constructor never fires**: no unsigned number is negative. -/
theorem make_ok (fd : Nat) : make fd = .ok { fd := fd } :=
  if_neg (Nat.not_lt_zero fd)

end Socket

/-! ### The connection -/

namespace AnyFd

/-- `::epoll_ctl` on any number: `EBADF` on one that is no descriptor. -/
def epollCtl (list : InterestList) (op : CtlOp) (fd : Nat) (events : Mask) : Option InterestList :=
  if IsFd fd then IkunSvr.epollCtl list op fd events else none

/-- `poller::update`, on any number. -/
def update (watch : Watch) : Except Halt Watch :=
  if watch.chnl.inEp then
    match epollCtl watch.interest .mod watch.chnl.fd watch.chnl.evs with
    | none => .error .update
    | some interest => .ok { watch with interest := interest }
  else
    match epollCtl watch.interest .add watch.chnl.fd watch.chnl.evs with
    | none => .error .update
    | some interest => .ok { chnl := { watch.chnl with inEp := true }, interest := interest }

/-- `channel::enable_read`, on any number. -/
def enableRead (watch : Watch) : Except Halt Watch :=
  update (watch.setEvs (watch.chnl.evs ||| epollIn))

/-- `connect::connect`, on any number. -/
def connect (fd : Nat) (interest : InterestList) (now : Int) : Except Halt Connect :=
  (enableRead (Watch.useEt { chnl := { fd := fd }, interest := interest })).map fun cchnl =>
    { cchnl := cchnl, lastAtTime := now }

variable {fd : Nat} {watch : Watch} {interest : InterestList}

theorem epollCtl_open (isFd : IsFd fd) (op : CtlOp) (events : Mask) :
    epollCtl interest op fd events = IkunSvr.epollCtl interest op fd events :=
  if_pos isFd

theorem epollCtl_closed (closed : ¬ IsFd fd) (op : CtlOp) (events : Mask) :
    epollCtl interest op fd events = none :=
  if_neg closed

/-- On a descriptor this is `Poller.update`. -/
theorem update_open {watch : Watch} (isFd : IsFd watch.chnl.fd) :
    update watch = (Poller.update watch).mapError fun _ => .update := by
  unfold update Poller.update
  rw [epollCtl_open isFd, epollCtl_open isFd]
  split
  · cases IkunSvr.epollCtl watch.interest .mod watch.chnl.fd watch.chnl.evs <;> rfl
  · cases IkunSvr.epollCtl watch.interest .add watch.chnl.fd watch.chnl.evs <;> rfl

/-- **`poller::update` exits on a number that is no descriptor**, whatever `_in_ep` says. -/
theorem update_closed (closed : ¬ IsFd watch.chnl.fd) : update watch = .error .update := by
  unfold update
  rw [epollCtl_closed closed, epollCtl_closed closed]
  split <;> rfl

/-- On a descriptor this is `Watch.enableRead`. -/
theorem enableRead_open (watch : Watch) (isFd : IsFd watch.chnl.fd) :
    enableRead watch = watch.enableRead.mapError fun _ => .update :=
  update_open isFd

/-- **The constructor on a descriptor** is that of a connection. -/
theorem connect_open (isFd : IsFd fd) (interest : InterestList) (now : Int) :
    connect fd interest now = (Connect.make fd interest now).mapError fun _ => .update := by
  unfold connect Connect.make
  rw [enableRead_open (Watch.useEt { chnl := { fd := fd }, interest := interest }) isFd]
  simp only [bind, Except.bind]
  cases Watch.enableRead (Watch.useEt { chnl := { fd := fd }, interest := interest }) <;> rfl

/-- The constructor exits on a number that is no descriptor. -/
theorem connect_closed (closed : ¬ IsFd fd) (interest : InterestList) (now : Int) :
    connect fd interest now = .error .update := by
  have rejected : enableRead (Watch.useEt { chnl := { fd := fd }, interest := interest }) =
      .error .update := update_closed closed
  unfold connect
  rw [rejected]
  rfl

end AnyFd

/-! ### The server -/

/-- A `connect` with its `_csock`. -/
structure Client extends Connect where
  csock : Socket

/-- `std::map<int, std::shared_ptr<connect>>`. -/
abbrev Conns := Int → Option Client

/-- `_conns[conn->fd()] = conn`, the `uint32_t` converted to the key. -/
def Conns.insert (conns : Conns) (conn : Client) : Conns :=
  Function.update conns (toInt conn.csock.fd) (some conn)

/-- What `new_conn` has to do with of a sub-loop. -/
structure LoopTables where
  conns : Conns := fun _ => none
  interest : InterestList := fun _ => none

/-- `class tcpsvr` with its acceptor, and the connections it has announced. -/
structure Tcpsvr (thds : Nat) where
  lsock : Socket
  /-- `acceptor::new_conn_cb` is set, to `_on_new_conn` -/
  acceptorCb : Bool := true
  conns : Conns := fun _ => none
  subLoops : Fin thds → LoopTables := fun _ => {}
  /-- `_new_conn_cb` is set -/
  newConnCb : Bool
  /-- what `_new_conn_cb` was called with -/
  announced : List Client := []

namespace Tcpsvr

variable {thds : Nat}

/-- The end of `_on_new_conn`: the sub-loop's table, the server's, and `_new_conn_cb`. -/
def enter (server : Tcpsvr thds) (loop : Fin thds) (conn : Client) : Tcpsvr thds :=
  { server with
    subLoops := Function.update server.subLoops loop
      { conns := (server.subLoops loop).conns.insert conn, interest := conn.cchnl.interest }
    conns := server.conns.insert conn
    announced := if server.newConnCb then server.announced ++ [conn] else server.announced }

/-- The sub-loop that a descriptor selects. -/
def loopOf (serves : 0 < thds) (fd : Nat) : Fin thds :=
  ⟨fd % thds, Nat.mod_lt _ serves⟩

/-- `tcpsvr::_on_new_conn`. -/
def onNewConn (server : Tcpsvr thds) (csock : Socket) (now : Int) : Except Halt (Tcpsvr thds) :=
  if serves : 0 < thds then
    let loop := loopOf serves csock.fd
    (AnyFd.connect csock.fd (server.subLoops loop).interest now).map fun conn =>
      server.enter loop { conn with csock := csock }
  else .error .divide

/-- `acceptor::new_conn`, where `accept4` has returned `cfd` and written `caddr`; `now` is the time
of the call. -/
def newConn (server : Tcpsvr thds) (cfd : Int) (caddr : InetAddr) (now : Int) :
    Except Halt (Tcpsvr thds) := do
  let (fd, lsock) := server.lsock.accept cfd caddr
  let csock ← Socket.make fd
  let csock := csock.setIpPort caddr.ip caddr.port
  if server.acceptorCb then onNewConn { server with lsock := lsock } csock now
  else return { server with lsock := lsock }

/-- The client socket that `new_conn` passes on. -/
def clientSocket (cfd : Int) (caddr : InetAddr) : Socket where
  fd := toUint32 cfd
  ip := caddr.ip
  port := caddr.port

/-- The server once `accept4` has returned. -/
def accepted (server : Tcpsvr thds) (caddr : InetAddr) : Tcpsvr thds :=
  { server with lsock := server.lsock.setIpPort caddr.ip caddr.port }

/-! ### A failure of `accept4` -/

/-- No table, no registration and no announcement differs. -/
structure SameTables (server after : Tcpsvr thds) : Prop where
  conns : after.conns = server.conns
  subLoops : after.subLoops = server.subLoops
  announced : after.announced = server.announced

/-- When `accept4` fails, `new_conn` returns and leaves the tables. -/
def LeavesOnFailure (server : Tcpsvr thds) (cfd : Int) (caddr : InetAddr) (now : Int) : Prop :=
  cfd = -1 → ∃ after, server.newConn cfd caddr now = .ok after ∧ server.SameTables after

/-! ### What `new_conn` does -/

variable {server : Tcpsvr thds} {cfd : Int} {caddr : InetAddr} {now : Int}

/-- **What `accept4` returned goes through the check of `socket::socket`** as it is. -/
theorem newConn_eq (server : Tcpsvr thds) (cfd : Int) (caddr : InetAddr) (now : Int) :
    server.newConn cfd caddr now =
      if server.acceptorCb then
        (server.accepted caddr).onNewConn (clientSocket cfd caddr) now
      else .ok (server.accepted caddr) := by
  unfold newConn Socket.accept
  simp only [Socket.make_ok, bind, Except.bind]
  rfl

/-- Without the callback the client is dropped. -/
theorem newConn_dropped (unset : server.acceptorCb = false) :
    server.newConn cfd caddr now = .ok (server.accepted caddr) := by
  rw [newConn_eq, unset]
  rfl

/-- With a sub-loop, `new_conn` sets the connection up on the one selected. -/
theorem newConn_set (set : server.acceptorCb = true) (serves : 0 < thds) :
    server.newConn cfd caddr now =
      (AnyFd.connect (toUint32 cfd) (server.subLoops (loopOf serves (toUint32 cfd))).interest now).map
        fun conn => (server.accepted caddr).enter (loopOf serves (toUint32 cfd))
          { conn with csock := clientSocket cfd caddr } := by
  rw [newConn_eq, if_pos set]
  unfold onNewConn
  rw [dif_pos serves]
  rfl

/-- **A client that connects is served**: a descriptor that its sub-loop does not watch is
registered there, entered in the tables and announced. -/
theorem newConn_open (set : server.acceptorCb = true) (serves : 0 < thds) (nonneg : 0 ≤ cfd)
    (small : cfd ≤ intMax)
    (absent : (server.subLoops (loopOf serves (toUint32 cfd))).interest (toUint32 cfd) = none) :
    ∃ conn : Client, conn.Live ∧ conn.csock = clientSocket cfd caddr ∧
      server.newConn cfd caddr now =
        .ok ((server.accepted caddr).enter (loopOf serves (toUint32 cfd)) conn) := by
  have made := Connect.make_eq absent now
  refine ⟨{ toConnect := _, csock := clientSocket cfd caddr }, Connect.made_live made, rfl, ?_⟩
  rw [newConn_set set serves, AnyFd.connect_open (isFd_accepted nonneg small), made]
  rfl

/-- **A failed `accept4` ends the process**: in `poller::update`, or without a sub-loop in the choice
of one. -/
theorem newConn_failed (set : server.acceptorCb = true) :
    server.newConn (-1) caddr now = .error (if 0 < thds then .update else .divide) := by
  by_cases serves : 0 < thds
  · rw [newConn_set set serves, AnyFd.connect_closed not_isFd_failed, if_pos serves]
    rfl
  · rw [newConn_eq, if_pos set, if_neg serves]
    unfold onNewConn
    rw [dif_neg serves]

/-- **`new_conn` leaves the server as it was on a failed `accept4` exactly when it has no callback to
hand the client to**; with one, the check of `socket::socket` lets the failure through, and the
process ends. -/
theorem new_conn_leaves_iff (server : Tcpsvr thds) (cfd : Int) (caddr : InetAddr) (now : Int) :
    (server.LeavesOnFailure cfd caddr now ↔ (cfd = -1 → server.acceptorCb = false)) ∧
      (cfd = -1 → server.acceptorCb = true → server.newConn cfd caddr now =
        .error (if 0 < thds then .update else .divide)) := by
  refine ⟨⟨fun leaves failed => ?_, fun unset failed => ?_⟩, ?_⟩
  · rw [← Bool.not_eq_true]
    intro set
    obtain ⟨after, returned, -⟩ := leaves failed
    rw [failed, newConn_failed set] at returned
    cases returned
  · exact ⟨_, newConn_dropped (unset failed), rfl, rfl, rfl⟩
  · rintro rfl set
    exact newConn_failed set

/-- A server with one sub-loop, which serves nobody yet. -/
def listening : Tcpsvr 1 where
  lsock := { fd := 3, ip := "0.0.0.0", port := 8765 }
  newConnCb := true

theorem new_conn_leaves_iff_listening :
    listening.newConn (-1) { ip := "0.0.0.0", port := 0 } 0 = .error .update :=
  (new_conn_leaves_iff listening (-1) _ 0).2 rfl rfl

/-- **A client that is gone before it is accepted ends the server.** -/
theorem aborted_client_ends_server :
    ¬ listening.LeavesOnFailure (-1) { ip := "0.0.0.0", port := 0 } 0 := by
  intro leaves
  obtain ⟨after, returned, -⟩ := leaves rfl
  rw [newConn_failed rfl] at returned
  cases returned

end Tcpsvr

end IkunSvr
