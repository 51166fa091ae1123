/-
**`net/connect`: one connection.**

`Connect` is the class `connect`: its channel with the epoll instance of its loop, its two buffers,
`_disconn` and the time of the last message. The member functions are those of `connect.cc`; logging
is left out, and what the callbacks of the server do is not part of the connection.

* reading: `readChunk` is one turn of the read loop of `on_msg` with `nread > 0`, `readLoop` the
  loop up to end of file or `EAGAIN`, `onMsg` the whole call;
* writing: `sendInLoop`, `writecb`, and `send` with the queue of the event loop (`eventloop::add`,
  `handleWeakup`);
* closing: `onClose`, `onError`.

A connection is `Live` from its construction on (`made_live`) until `onClose` or `onError` has run,
and `Removed` from then on (`disconnect_live`). On a live one no `epoll_ctl` is rejected
(`sendInLoop_live`, `writecb_live`); on a removed one `send_in_loop` always exits
(`sendInLoop_removed`).
-/

import IkunSvr.Net.Channel
import IkunSvr.Net.PickLoop

namespace IkunSvr

/-! ### Results of `read` -/

/-- The size of the array `buf` of `on_msg`. -/
def bufSize : Nat := 1024

/-- The bytes one `::read` with a positive result has put into `buf`. -/
structure Chunk where
  bytes : Bytes
  nonempty : bytes ≠ []
  fits : bytes.length ≤ bufSize

/-- A result of `::read` after which `on_msg` reads again. -/
inductive ReadResult
  /-- `nread > 0` -/
  | data (chunk : Chunk)
  /-- `nread == -1`, `errno == EINTR` -/
  | eintr
  /-- `nread == -1` with an `errno` that no branch names -/
  | other

/-- A result of `::read` that ends the read loop. -/
inductive ReadEnd
  /-- `nread == -1`, `errno == EAGAIN` or `EWOULDBLOCK` -/
  | eagain
  /-- `nread == 0` -/
  | eof
  deriving DecidableEq, Repr

/-- The results of `::read` in one call of `on_msg`. -/
structure Reads where
  interim : List ReadResult
  ending : ReadEnd

/-- The chunks among the results. -/
def chunks : List ReadResult → List Chunk
  | [] => []
  | .data chunk :: results => chunk :: chunks results
  | .eintr :: results => chunks results
  | .other :: results => chunks results

/-! ### The class -/

/-- `class connect`. -/
structure Connect where
  cchnl : Watch
  inputBuf : Buffer := {}
  outputBuf : Buffer := {}
  disconn : Bool := false
  lastAtTime : Int

/-- An `append` that `on_msg` made: what `::read` returned, and the count appended. -/
structure Copy where
  nread : Nat
  count : Nat
  deriving DecidableEq, Repr

/-- `buf` after a read: zeros, with the chunk in front. -/
def localBuf (chunk : Chunk) : Bytes :=
  chunk.bytes ++ List.replicate (bufSize - chunk.bytes.length) 0

/-- The `int` that `on_msg` takes for the length of what it has read. -/
def chunkHeader (chunk : Chunk) : Int := readInt (localBuf chunk)

/-- The branch `nread > 0` of `on_msg`. -/
def readChunk (chunk : Chunk) (buffer : Buffer) : Except Stop (Buffer × Copy) := do
  let len := chunkHeader chunk
  let count ← addInt len 4
  let next ← buffer.append (localBuf chunk) (toSize count)
  return (next, { nread := chunk.bytes.length, count := toSize count })

/-- The read loop of `on_msg`, up to the result that ends it. -/
def readLoop : List ReadResult → Buffer → Except Stop (Buffer × List Copy)
  | [], buffer => .ok (buffer, [])
  | .data chunk :: results, buffer => do
      let (next, copy) ← readChunk chunk buffer
      let (final, copies) ← readLoop results next
      return (final, copy :: copies)
  | .eintr :: results, buffer => readLoop results buffer
  | .other :: results, buffer => readLoop results buffer

theorem readChunk_bind (chunk : Chunk) (buffer : Buffer) :
    readChunk chunk buffer = (addInt (chunkHeader chunk) 4).bind fun count =>
      (buffer.append (localBuf chunk) (toSize count)).map fun next =>
        (next, { nread := chunk.bytes.length, count := toSize count }) :=
  rfl

theorem readLoop_data (chunk : Chunk) (results : List ReadResult) (buffer : Buffer) :
    readLoop (.data chunk :: results) buffer = (readChunk chunk buffer).bind fun once =>
      (readLoop results once.1).map fun rest => (rest.1, once.2 :: rest.2) :=
  rfl

/-- A task that runs `send_in_loop` with the pointer and the size it is bound to. -/
structure SendTask where
  block : Bytes
  size : Nat
  deriving DecidableEq, Repr

namespace Connect

/-- `connect::connect`: the channel is edge-triggered and watched for input. -/
def make (fd : Nat) (interest : InterestList) (now : Int) : Except Stop Connect := do
  let cchnl := Watch.useEt { chnl := { fd := fd }, interest := interest }
  let cchnl ← cchnl.enableRead
  return { cchnl := cchnl, lastAtTime := now }

/-- The common part of `on_close` and `on_error`, which differ in the callback they end with. -/
def disconnect (conn : Connect) : Except Stop Connect := do
  let cchnl ← conn.cchnl.remove
  return { conn with disconn := true, cchnl := cchnl }

/-- `connect::on_close`. -/
def onClose (conn : Connect) : Except Stop Connect := conn.disconnect

/-- `connect::on_error`. -/
def onError (conn : Connect) : Except Stop Connect := conn.disconnect

/-- What a call of `on_msg` leaves, and the messages it hands to `_msg_cb`. -/
structure Received where
  conn : Connect
  msgs : List Bytes

/-- `connect::on_msg`, within `fuel` calls of `pick_msg`; `now` is the time of the call. -/
def onMsg (fuel : Nat) (past : Nat → UInt8 × UInt8) (now : Int) (reads : Reads) (conn : Connect) :
    Option (Except Stop Received) :=
  match readLoop reads.interim conn.inputBuf with
  | .error stop => some (.error stop)
  | .ok (buffer, _) =>
      match reads.ending with
      | .eof => some ((onClose { conn with inputBuf := buffer }).map fun closed => ⟨closed, []⟩)
      | .eagain =>
          match pickLoop fuel past [] buffer with
          | none => none
          | some (.error stop) => some (.error stop)
          | some (.ok (msgs, rest)) =>
              some (.ok ⟨{ conn with
                inputBuf := rest
                lastAtTime := if msgs = [] then conn.lastAtTime else now }, msgs⟩)

/-- `connect::send_in_loop`. -/
def sendInLoop (data : Bytes) (size : Nat) (conn : Connect) : Except Stop Connect := do
  let outputBuf ← conn.outputBuf.append data size
  let cchnl ← conn.cchnl.enableWrite
  return { conn with outputBuf := outputBuf, cchnl := cchnl }

/-- `connect::send`, and the tasks of the event loop after it. Off the loop's thread the task is
bound to a copy of 30 bytes. -/
def send (inLoopThd : Bool) (data : Block) (conn : Connect) (tasks : List SendTask) :
    Except Stop (Connect × List SendTask) :=
  if conn.disconn then .ok (conn, tasks)
  else if inLoopThd then
    (conn.sendInLoop data.bytes data.bytes.length).map fun sent => (sent, tasks)
  else do
    let a ← memcpy data.bytes 30
    return (conn, tasks ++ [{ block := a, size := data.bytes.length }])

/-- What a callback of the connection passes to `send`, on the loop's thread. -/
def sendAll : List Block → Connect → Except Stop Connect
  | [], conn => .ok conn
  | data :: rest, conn => do
      let (next, _) ← conn.send true data []
      sendAll rest next

/-- `eventloop::handle_weakup`, on tasks of one connection. -/
def handleWeakup : List SendTask → Connect → Except Stop Connect
  | [], conn => .ok conn
  | task :: tasks, conn => do
      let next ← conn.sendInLoop task.block task.size
      handleWeakup tasks next

/-- The first `if` of `writecb`. -/
def eraseSent (writen : Int) (outputBuf : Buffer) : Except Stop Buffer :=
  if 0 < writen then outputBuf.erase 0 outputBuf.size else .ok outputBuf

/-- `connect::writecb`, `sent` being the result of `::send`; whether `_send_cb` is called. -/
def writecb (sent : Int) (conn : Connect) : Except Stop (Connect × Bool) := do
  let writen := toInt sent
  let outputBuf ← eraseSent writen conn.outputBuf
  if outputBuf.size = 0 then
    let cchnl ← conn.cchnl.disenableWrite
    return ({ conn with outputBuf := outputBuf, cchnl := cchnl }, true)
  else
    return ({ conn with outputBuf := outputBuf }, false)

/-! ### Receiving -/

section Receiving

variable {conn : Connect} {fuel : Nat} {past : Nat → UInt8 × UInt8} {now : Int} {reads : Reads}
  {buffer : Buffer} {copies : List Copy}

theorem onMsg_stops {stop : Stop} (read : readLoop reads.interim conn.inputBuf = .error stop) :
    conn.onMsg fuel past now reads = some (.error stop) := by
  rw [onMsg, read]

/-- **`on_msg` up to end of file** closes the connection, with what it has read in `_input_buf`. -/
theorem onMsg_eof (read : readLoop reads.interim conn.inputBuf = .ok (buffer, copies))
    (ending : reads.ending = .eof) :
    conn.onMsg fuel past now reads =
      some ((onClose { conn with inputBuf := buffer }).map fun closed => ⟨closed, []⟩) := by
  rw [onMsg, read, ending]

/-- **`on_msg` up to `EAGAIN`** hands over the messages the inner loop picks. -/
theorem onMsg_eagain (read : readLoop reads.interim conn.inputBuf = .ok (buffer, copies))
    (ending : reads.ending = .eagain) :
    conn.onMsg fuel past now reads = (pickLoop fuel past [] buffer).map
      (Except.map fun out => ⟨{ conn with
        inputBuf := out.2
        lastAtTime := if out.1 = [] then conn.lastAtTime else now }, out.1⟩) := by
  rw [onMsg, read, ending]
  simp only
  cases pickLoop fuel past [] buffer with
  | none => rfl
  | some result =>
      cases result with
      | error stop => rfl
      | ok out => rfl

/-- **What a call of `on_msg` leaves**: `_input_buf` and the time of the last message have changed,
and at end of file `on_close` has run besides. -/
theorem onMsg_leaves {received : Received}
    (ended : conn.onMsg fuel past now reads = some (.ok received)) :
    (∃ inputBuf lastAtTime, received.conn =
      { conn with inputBuf := inputBuf, lastAtTime := lastAtTime }) ∨
    ∃ inputBuf, onClose { conn with inputBuf := inputBuf } = .ok received.conn ∧
      received.msgs = [] := by
  cases read : readLoop reads.interim conn.inputBuf with
  | error stop =>
      rw [onMsg_stops read] at ended
      cases ended
  | ok out =>
      obtain ⟨buffer, copies⟩ := out
      cases ending : reads.ending with
      | eof =>
          rw [onMsg_eof read ending] at ended
          obtain ⟨closed, closes, rfl⟩ := map_eq_ok.mp (Option.some.inj ended)
          exact .inr ⟨buffer, closes, rfl⟩
      | eagain =>
          rw [onMsg_eagain read ending, Option.map_eq_some_iff] at ended
          obtain ⟨inner, _, mapped⟩ := ended
          obtain ⟨out, _, rfl⟩ := map_eq_ok.mp mapped
          exact .inl ⟨_, _, rfl⟩

end Receiving

/-! ### Sending -/

/-- **`send_in_loop`** appends the data and arms output. -/
theorem sendInLoop_eq (conn : Connect) (data : Block) :
    conn.sendInLoop data.bytes data.bytes.length =
      conn.cchnl.enableWrite.map fun cchnl => { conn with
        outputBuf := { conn.outputBuf with buf := conn.outputBuf.buf ++ data.bytes }
        cchnl := cchnl } := by
  unfold sendInLoop
  rw [Buffer.append_block]
  cases conn.cchnl.enableWrite with
  | error stop => rfl
  | ok cchnl => rfl

/-- What `writecb` leaves in `_output_buf`. -/
def unsent (sent : Int) (outputBuf : Buffer) : Buffer :=
  if 0 < toInt sent then outputBuf.clear else outputBuf

theorem eraseSent_eq (sent : Int) (outputBuf : Buffer) :
    eraseSent (toInt sent) outputBuf = .ok (unsent sent outputBuf) := by
  unfold eraseSent unsent
  split
  · unfold Buffer.erase eraseString Buffer.size
    rw [if_neg (Nat.not_lt_zero _), List.take_zero, List.drop_zero, List.drop_length]
    rfl
  · rfl

/-- **`writecb`**: a positive result of `::send` drops all that was queued, and an empty buffer
disarms output and calls `_send_cb`. -/
theorem writecb_eq (conn : Connect) (sent : Int) :
    conn.writecb sent =
      if (unsent sent conn.outputBuf).size = 0 then
        conn.cchnl.disenableWrite.map fun cchnl =>
          ({ conn with outputBuf := unsent sent conn.outputBuf, cchnl := cchnl }, true)
      else .ok ({ conn with outputBuf := unsent sent conn.outputBuf }, false) := by
  unfold writecb
  simp only [bind, Except.bind]
  rw [eraseSent_eq]
  simp only
  split
  · cases conn.cchnl.disenableWrite with
    | error stop => rfl
    | ok cchnl => rfl
  · rfl

/-- `writecb` leaves what was not sent, and keeps `_disconn`. -/
theorem writecb_leaves {conn next : Connect} {sent : Int} {post : Bool}
    (wrote : conn.writecb sent = .ok (next, post)) :
    next.outputBuf = unsent sent conn.outputBuf ∧ next.disconn = conn.disconn := by
  rw [writecb_eq] at wrote
  split at wrote
  · obtain ⟨cchnl, _, same⟩ := map_eq_ok.mp wrote
    cases same
    exact ⟨rfl, rfl⟩
  · cases wrote
    exact ⟨rfl, rfl⟩

/-- A connection that has been closed says so. -/
theorem disconnect_disconn {conn next : Connect} (closed : conn.disconnect = .ok next) :
    next.disconn = true := by
  unfold disconnect at closed
  obtain ⟨cchnl, _, made⟩ := bind_eq_ok.mp closed
  cases made
  rfl

/-! ### Live and removed connections -/

/-- A connection that has been set up and not closed: its channel is registered with its mask. -/
structure Live (conn : Connect) : Prop where
  connected : conn.disconn = false
  flagged : conn.cchnl.chnl.inEp = true
  registered : conn.cchnl.registered = some conn.cchnl.chnl.evs

/-- A connection after `on_close` or `on_error`: not registered, with `_in_ep` still set. -/
structure Removed (conn : Connect) : Prop where
  disconnected : conn.disconn = true
  flagged : conn.cchnl.chnl.inEp = true
  absent : conn.cchnl.registered = none

variable {conn : Connect}

theorem Removed.not_connected (removed : conn.Removed) : ¬ conn.disconn = false := by
  rw [removed.disconnected]
  nofun

theorem Removed.not_live (removed : conn.Removed) : ¬ conn.Live :=
  fun live => removed.not_connected live.connected

theorem Live.synced (live : conn.Live) : conn.cchnl.Synced := by
  unfold Watch.Synced
  rw [live.flagged, live.registered]
  exact ⟨fun _ => rfl, fun _ => rfl⟩

/-- **The constructor** registers the channel for input, edge-triggered. -/
theorem make_eq {fd : Nat} {interest : InterestList} (absent : interest fd = none) (now : Int) :
    make fd interest now = .ok {
      cchnl := Watch.enlisted {
        chnl := { fd := fd, evs := 0 ||| epollEt ||| epollIn }, interest := interest }
      lastAtTime := now } := by
  have synced : (Watch.useEt { chnl := { fd := fd }, interest := interest }).Synced := by
    unfold Watch.Synced Watch.registered
    simp only [Watch.useEt, Watch.setEvs, absent]
    simp
  unfold make Watch.enableRead
  simp only [bind, Except.bind]
  rw [Watch.update_synced (Watch.setEvs_synced.mpr synced)]
  rfl

/-- **The constructor exits on a descriptor that is registered**: its `ADD` is rejected. -/
theorem make_registered {fd : Nat} {interest : InterestList} {events : Mask}
    (present : interest fd = some events) (now : Int) :
    make fd interest now = .error .exit := by
  have rejected : Watch.enableRead (Watch.useEt { chnl := { fd := fd }, interest := interest }) =
      .error .exit := by
    unfold Watch.enableRead Poller.update epollCtl
    simp only [Watch.setEvs, Watch.useEt, present]
    rfl
  unfold make
  simp only [bind, Except.bind]
  rw [rejected]

/-- What a constructor that returns has made. -/
theorem made_eq {fd : Nat} {interest : InterestList} {now : Int} {conn : Connect}
    (made : make fd interest now = .ok conn) :
    conn = {
      cchnl := Watch.enlisted {
        chnl := { fd := fd, evs := 0 ||| epollEt ||| epollIn }, interest := interest }
      lastAtTime := now } := by
  cases found : interest fd with
  | none =>
      rw [make_eq found now] at made
      exact (Except.ok.inj made).symm
  | some events =>
      rw [make_registered found now] at made
      cases made

/-- **The constructor sets up a live connection.** -/
theorem made_live {fd : Nat} {interest : InterestList} {now : Int} {conn : Connect}
    (made : make fd interest now = .ok conn) : conn.Live := by
  rw [made_eq made]
  exact ⟨rfl, rfl, Watch.enlisted_registered _⟩

/-- **Closing a live connection** takes its descriptor out of epoll. -/
theorem disconnect_live (live : conn.Live) :
    conn.disconnect = .ok { conn with disconn := true, cchnl := conn.cchnl.struck } := by
  unfold disconnect
  rw [Watch.remove_synced live.synced]
  rfl

/-- **Closing a removed connection exits.** -/
theorem disconnect_removed (removed : conn.Removed) : conn.disconnect = .error .exit := by
  have lost : Poller.update (conn.cchnl.setEvs 0) = .error .exit :=
    Watch.update_lost removed.flagged removed.absent
  unfold disconnect Watch.remove Watch.disableAll
  rw [lost]
  rfl

theorem removed_of_struck (conn : Connect) :
    Removed { conn with disconn := true, cchnl := conn.cchnl.struck } :=
  ⟨rfl, rfl, Watch.struck_registered _⟩

/-- What it has buffered, and when its last message came, does not matter. -/
theorem Live.of_eq {next : Connect} (live : conn.Live) (disconn : next.disconn = conn.disconn)
    (cchnl : next.cchnl = conn.cchnl) : next.Live := by
  refine ⟨?_, ?_, ?_⟩
  · rw [disconn]
    exact live.connected
  · rw [cchnl]
    exact live.flagged
  · rw [cchnl]
    exact live.registered

/-- Registering a live connection's channel with another mask keeps it live. -/
theorem Live.enlist (live : conn.Live) (outputBuf : Buffer) (evs : Mask) :
    Live { conn with outputBuf := outputBuf, cchnl := (conn.cchnl.setEvs evs).enlisted } :=
  ⟨live.connected, rfl, Watch.enlisted_registered _⟩

/-- **`send_in_loop` on a live connection** appends the data and arms output. -/
theorem sendInLoop_live (live : conn.Live) (data : Block) :
    conn.sendInLoop data.bytes data.bytes.length = .ok { conn with
      outputBuf := { conn.outputBuf with buf := conn.outputBuf.buf ++ data.bytes }
      cchnl := (conn.cchnl.setEvs (conn.cchnl.chnl.evs ||| epollOut)).enlisted } := by
  rw [sendInLoop_eq, Watch.enableWrite, Watch.update_synced (Watch.setEvs_synced.mpr live.synced)]
  rfl

/-- **`send_in_loop` on a removed connection exits**, whatever is sent. -/
theorem sendInLoop_removed (removed : conn.Removed) (data : Block) :
    conn.sendInLoop data.bytes data.bytes.length = .error .exit := by
  have lost : Poller.update (conn.cchnl.setEvs (conn.cchnl.chnl.evs ||| epollOut)) = .error .exit :=
    Watch.update_lost removed.flagged removed.absent
  rw [sendInLoop_eq, Watch.enableWrite, lost]
  rfl

/-- **`writecb` on a live connection** returns. -/
theorem writecb_live (live : conn.Live) (sent : Int) :
    conn.writecb sent = .ok (
      if (unsent sent conn.outputBuf).size = 0 then
        ({ conn with
          outputBuf := unsent sent conn.outputBuf
          cchnl := (conn.cchnl.setEvs (conn.cchnl.chnl.evs &&& ~~~epollOut)).enlisted }, true)
      else ({ conn with outputBuf := unsent sent conn.outputBuf }, false)) := by
  have disarm : conn.cchnl.disenableWrite =
      .ok (conn.cchnl.setEvs (conn.cchnl.chnl.evs &&& ~~~epollOut)).enlisted :=
    Watch.update_synced (Watch.setEvs_synced.mpr live.synced)
  rw [writecb_eq, disarm]
  split
  · rfl
  · rfl

theorem readChunk_noExit (chunk : Chunk) (buffer : Buffer) : NoExit (readChunk chunk buffer) := by
  rw [readChunk_bind]
  exact (addInt_noExit _ _).bind fun count => (Buffer.append_noExit _ _ _).map

theorem readLoop_noExit (results : List ReadResult) (buffer : Buffer) :
    NoExit (readLoop results buffer) := by
  induction results generalizing buffer with
  | nil => exact noExit_ok _
  | cons result results ih =>
      cases result with
      | data chunk =>
          rw [readLoop_data]
          exact (readChunk_noExit chunk buffer).bind fun once => (ih once.1).map
      | eintr => exact ih buffer
      | other => exact ih buffer

/-- **`on_msg` on a live connection** does not exit; it leaves the connection live, or, at end of
file, removed. -/
theorem onMsg_live (live : conn.Live) {fuel : Nat} {past : Nat → UInt8 × UInt8} {now : Int}
    {reads : Reads} {result : Except Stop Received}
    (ended : conn.onMsg fuel past now reads = some result) :
    NoExit result ∧ ∀ received, result = .ok received →
      received.conn.Live ∨ received.conn.Removed := by
  cases read : readLoop reads.interim conn.inputBuf with
  | error stop =>
      rw [onMsg_stops read] at ended
      cases ended
      refine ⟨fun exits => ?_, fun received done => by cases done⟩
      cases exits
      exact readLoop_noExit _ _ read
  | ok out =>
      obtain ⟨buffer, copies⟩ := out
      cases ending : reads.ending with
      | eof =>
          have closing : Live { conn with inputBuf := buffer } :=
            live.of_eq rfl rfl
          rw [onMsg_eof read ending, onClose, disconnect_live closing] at ended
          cases ended
          refine ⟨noExit_ok _, fun received done => ?_⟩
          cases done
          exact .inr (removed_of_struck { conn with inputBuf := buffer })
      | eagain =>
          rw [onMsg_eagain read ending, Option.map_eq_some_iff] at ended
          obtain ⟨inner, picked, rfl⟩ := ended
          refine ⟨(pickLoop_noExit picked).map, fun received done => ?_⟩
          obtain ⟨_, _, rfl⟩ := map_eq_ok.mp done
          exact .inl (live.of_eq rfl rfl)

end Connect

end IkunSvr
