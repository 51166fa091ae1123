/-
**Which edges output waits for.**

epoll is edge-triggered: an `EPOLLOUT` edge is queued when a `MOD` arms output on a writable socket,
and when the socket becomes writable with output armed; a report of `EPOLLOUT` consumes it. `Edges`
is a connection with the state of its socket and of that edge. In a batch the connection's channel
is given some `_revs` and its `handle_event` called once; the tasks and callbacks of the batch may
send. `due` says that an edge is still to come: the last `::send` since output was armed did not take
the data, or output was armed while the socket was not writable.

* `NoStall` — between batches, pending output has an edge queued or due;
* `Swallows` — `handle_event` answers an event with `on_msg` when the edge of pending output is gone,
  or `::send` takes the data with a count that is no positive `int`;
* `edges_step` — no other step loses the edge;
* `output_waits_iff` — **a run without such a step never stalls, and after such a step that leaves
  the connection open the batch ends in a stall**;
* `out_with_in_stalls` — output and input ready in one mask.
-/

import IkunSvr.Output.Arming
import IkunSvr.Output.Conservation

namespace IkunSvr

open Run

/-! ### A connection and its edge -/

/-- Where the loop's thread is. -/
inductive BatchPc
  | between
  /-- handling a batch, with the `_revs` the connection's channel has yet to handle -/
  | inBatch (revs : Option Mask)
  deriving DecidableEq, Repr

structure Edges where
  conn : Connect
  /-- an `EPOLLOUT` edge is queued -/
  queued : Bool := false
  /-- the socket is writable -/
  writable : Bool := true
  /-- an `EPOLLOUT` edge is to come -/
  due : Bool := false
  pc : BatchPc := .between

inductive EdgeLabel
  /-- `epoll_wait` returns; for the connection, if it is among the events, the mask it reports and
  the `_revs` its channel is given -/
  | poll (event : Option (Mask × Mask))
  /-- `handle_event` of the connection's channel: what `on_msg` reads or the result of `::send`, and
  whether the socket has room left -/
  | handle (fuel : Nat) (call : Call) (sent : Int) (room : Bool)
  /-- `send_in_loop`, in a task or a callback -/
  | send (data : Block)
  | endBatch
  /-- the peer has made room -/
  | becomeWritable
  /-- a call on another channel of the loop -/
  | elsewhere (interest : InterestList)

namespace Edges

/-- Output is armed with epoll. -/
def armed (state : Edges) : Bool :=
  match state.conn.cchnl.registered with
  | none => false
  | some events => decide (Has events epollOut)

/-- The connection after a `MOD` that arms output. -/
def arm (state : Edges) (conn : Connect) : Edges :=
  { state with conn := conn, queued := state.queued || state.writable, due := !state.writable }

/-- The connection after a `writecb`: `post` says that output is disarmed. -/
def written (state : Edges) (conn : Connect) (post : Bool) (sent : Int) (room : Bool) : Edges :=
  { state with
    conn := conn
    queued := state.queued && !post
    writable := state.writable && room
    due := !post && decide (sent ≤ 0) }

/-- `handle_event` with the given `_revs`. -/
def handleRevs (state : Edges) (revs : Mask) (fuel : Nat) (call : Call) (sent : Int) (room : Bool) :
    Option Edges :=
  match handleEvent revs with
  | .close => (state.conn.onClose.toOption).map fun conn => { state with conn := conn }
  | .error => (state.conn.onError.toOption).map fun conn => { state with conn := conn }
  | .read =>
      match state.conn.onMsg fuel call.past call.now call.reads with
      | some (.ok received) => some { state with conn := received.conn }
      | _ => none
  | .write =>
      if Offered state.conn.outputBuf.size sent then
        match state.conn.writecb sent with
        | .error _ => none
        | .ok (conn, post) => some (state.written conn post sent room)
      else none

/-- A step. -/
def step (state : Edges) : EdgeLabel → Option Edges
  | .poll event =>
      match state.pc, event with
      | .between, none => some { state with pc := .inBatch none }
      | .between, some (events, revs) => some { state with
          queued := state.queued && !decide (Has events epollOut)
          pc := .inBatch (some revs) }
      | _, _ => none
  | .handle fuel call sent room =>
      match state.pc with
      | .inBatch (some revs) =>
          handleRevs { state with pc := .inBatch none } revs fuel call sent room
      | _ => none
  | .send data =>
      match state.pc with
      | .inBatch _ =>
          (state.conn.sendInLoop data.bytes data.bytes.length).toOption.map state.arm
      | .between => none
  | .endBatch =>
      match state.pc with
      | .inBatch none => some { state with pc := .between }
      | _ => none
  | .becomeWritable =>
      if state.writable then none
      else some { state with
        writable := true
        queued := state.queued || state.armed
        due := state.due && !state.armed }
  | .elsewhere interest =>
      if interest state.conn.cchnl.chnl.fd = state.conn.cchnl.registered then
        some { state with conn :=
          { state.conn with cchnl := { state.conn.cchnl with interest := interest } } }
      else none

/-! ### Output that waits for an edge -/

/-- Output is pending on a connection that is not closed. -/
def Pending (state : Edges) : Prop :=
  state.conn.disconn = false ∧ 0 < state.conn.outputBuf.size

/-- Between batches, pending output has an edge queued or due. -/
def NoStall (state : Edges) : Prop :=
  state.pc = .between → state.Pending → state.queued = true ∨ state.due = true

/-- Output is pending with no edge queued, and `handle_event` calls `on_msg` with none due, or
`writecb` whose `::send` takes data with a count that is no positive `int`. -/
def Swallows (state : Edges) (label : EdgeLabel) : Prop :=
  ∃ fuel call sent room revs, label = .handle fuel call sent room ∧
    state.pc = .inBatch (some revs) ∧ state.Pending ∧ state.queued = false ∧
    (handleEvent revs = .read ∧ state.due = false ∨
      handleEvent revs = .write ∧ 0 < sent ∧ toInt sent ≤ 0)

/-! ### One step -/

/-- The connection is watched until it is removed; pending output has an edge queued or due, or its
event has been reported and not yet handled. -/
structure Keeps (state : Edges) : Prop where
  conn : state.conn.Sending ∨ state.conn.Removed
  edge : state.Pending → state.queued = true ∨ state.due = true ∨
    ∃ revs, state.pc = .inBatch (some revs)

variable {state next : Edges}

theorem sending_of_connected (kept : state.conn.Sending ∨ state.conn.Removed)
    (connected : state.conn.disconn = false) : state.conn.Sending := by
  rcases kept with sending | removed
  · exact sending
  · exact absurd connected removed.not_connected

/-- Once the event is handled, pending output has an edge queued or due. -/
theorem Keeps.settled (keeps : Keeps state) (handled : ∀ revs, state.pc ≠ .inBatch (some revs))
    (pending : state.Pending) : state.queued = true ∨ state.due = true := by
  rcases keeps.edge pending with queued | due | ⟨revs, inBatch⟩
  · exact .inl queued
  · exact .inr due
  · exact absurd inBatch (handled revs)

theorem armed_of_sending (sending : state.conn.Sending) (some_output : 0 < state.conn.outputBuf.size) :
    state.armed = true := by
  unfold armed
  rw [sending.live.registered]
  exact decide_eq_true (sending.output some_output)

/-- A closed connection has no output to wait for. -/
theorem closed_edge {conn : Connect} (kept : state.conn.Sending ∨ state.conn.Removed)
    (closed : state.conn.disconnect.toOption = some conn) :
    (conn.Sending ∨ conn.Removed) ∧ ¬ conn.disconn = false := by
  have took : connStep state.conn .onClose = some conn := closed
  refine ⟨Connect.kept_step kept took, ?_⟩
  cases ended : state.conn.disconnect with
  | error stop =>
      rw [ended] at closed
      cases closed
  | ok other =>
      rw [ended] at closed
      cases closed
      rw [Connect.disconnect_disconn ended]
      nofun

/-- After a `::send` that did not take the data an edge is due, unless it took it unnoticed. -/
theorem written_edge (keeps : Keeps state) {revs : Mask} {fuel : Nat} {call : Call} {sent : Int}
    {room post : Bool} {conn : Connect} (waiting : state.pc = .inBatch (some revs))
    (called : handleEvent revs = .write)
    (allowed : ¬ state.Swallows (.handle fuel call sent room))
    (wrote : state.conn.writecb sent = .ok (conn, post))
    (pending : conn.disconn = false ∧ 0 < conn.outputBuf.size) :
    (state.queued && !post) = true ∨ (!post && decide (sent ≤ 0)) = true := by
  obtain ⟨left, sameDisconn⟩ := Connect.writecb_leaves wrote
  have connected : state.conn.disconn = false := sameDisconn.symm.trans pending.1
  have sending : state.conn.Sending := sending_of_connected keeps.conn connected
  have unposted : post = false := by
    obtain ⟨other, posted, same, _, _, empty⟩ := Connect.sending_writecb sending sent
    rw [wrote] at same
    cases same
    cases post with
    | false => rfl
    | true =>
        have none_left := empty.mp rfl
        omega
  rw [unposted]
  by_cases failed : sent ≤ 0
  · exact .inr (by simpa using failed)
  · -- the data was taken, and `_output_buf` has it still
    have unnoticed : ¬ 0 < toInt sent := by
      intro noticed
      have gone : conn.outputBuf.size = 0 := by
        rw [left, Connect.unsent, if_pos noticed]
        rfl
      omega
    have same : conn.outputBuf = state.conn.outputBuf := by
      rw [left, Connect.unsent, if_neg unnoticed]
    have before : state.Pending := ⟨connected, same ▸ pending.2⟩
    left
    cases queued : state.queued with
    | true => rfl
    | false =>
        exact absurd ⟨fuel, call, sent, room, revs, rfl, waiting, before, queued,
          .inr ⟨called, by omega, by omega⟩⟩ allowed

/-- Once a channel has handled its event, pending output has an edge, unless this step loses it. -/
theorem handled_edge (keeps : Keeps state) {revs : Mask} {fuel : Nat} {call : Call} {sent : Int}
    {room : Bool} (waiting : state.pc = .inBatch (some revs))
    (allowed : ¬ state.Swallows (.handle fuel call sent room))
    (took : handleRevs { state with pc := .inBatch none } revs fuel call sent room = some next) :
    (next.conn.Sending ∨ next.conn.Removed) ∧
      (next.Pending → next.queued = true ∨ next.due = true) := by
  unfold handleRevs at took
  cases called : handleEvent revs with
  | close =>
      simp only [called, Option.map_eq_some_iff] at took
      obtain ⟨conn, closed, rfl⟩ := took
      obtain ⟨kept, unpending⟩ := closed_edge keeps.conn closed
      exact ⟨kept, fun pending => absurd pending.1 unpending⟩
  | error =>
      simp only [called, Option.map_eq_some_iff] at took
      obtain ⟨conn, closed, rfl⟩ := took
      obtain ⟨kept, unpending⟩ := closed_edge keeps.conn closed
      exact ⟨kept, fun pending => absurd pending.1 unpending⟩
  | read =>
      simp only [called] at took
      split at took
      · rename_i received ended
        cases took
        have stepped : connStep state.conn (.onMsg fuel call) = some received.conn := by
          rw [connStep, ended]
        refine ⟨Connect.kept_step keeps.conn stepped, fun pending => ?_⟩
        rcases Connect.onMsg_leaves ended with ⟨inputBuf, lastAtTime, same⟩ | ⟨inputBuf, closed, _⟩
        · rw [same] at pending
          -- the edge that has come is gone, unless this is the step that is not allowed
          by_contra lost
          rw [not_or, Bool.not_eq_true, Bool.not_eq_true] at lost
          exact allowed ⟨fuel, call, sent, room, revs, rfl, waiting, pending, lost.1,
            .inl ⟨called, lost.2⟩⟩
        · have disconnected := Connect.disconnect_disconn closed
          have connected := pending.1
          rw [disconnected] at connected
          cases connected
      · cases took
  | write =>
      simp only [called] at took
      split at took
      · rename_i offered
        split at took
        · cases took
        · rename_i conn post wrote
          cases took
          have stepped : connStep state.conn (.writecb sent []) = some conn := by
            rw [connStep, wrote]
            cases post <;> rfl
          refine ⟨Connect.kept_step keeps.conn stepped, fun pending => ?_⟩
          exact written_edge keeps waiting called allowed wrote pending
      · cases took

/-- Arming output queues an edge, or makes one due. -/
theorem arm_edge (state : Edges) (conn : Connect) :
    (state.arm conn).queued = true ∨ (state.arm conn).due = true := by
  unfold arm
  cases state.writable with
  | true => exact .inl (Bool.or_true _)
  | false => exact .inr rfl

/-- **No step but the one excepted loses the edge that pending output waits for.** -/
theorem edges_step (keeps : Keeps state) {label : EdgeLabel} (allowed : ¬ state.Swallows label)
    (took : state.step label = some next) : Keeps next := by
  cases label with
  | poll event =>
      simp only [step] at took
      split at took
      · rename_i between
        cases took
        refine ⟨keeps.conn, fun pending => ?_⟩
        have edge := keeps.settled (by rw [between]; nofun) pending
        exact edge.imp_right .inl
      · rename_i events revs between
        cases took
        exact ⟨keeps.conn, fun _ => .inr (.inr ⟨revs, rfl⟩)⟩
      · cases took
  | handle fuel call sent room =>
      simp only [step] at took
      split at took
      · rename_i revs waiting
        obtain ⟨kept, edge⟩ := handled_edge keeps waiting allowed took
        exact ⟨kept, fun pending => (edge pending).imp_right .inl⟩
      · cases took
  | send data =>
      simp only [step] at took
      split at took
      · rw [Option.map_eq_some_iff] at took
        obtain ⟨conn, sends, rfl⟩ := took
        have stepped : connStep state.conn (.sendInLoop data) = some conn := sends
        exact ⟨Connect.kept_step keeps.conn stepped, fun _ => (arm_edge state conn).imp_right .inl⟩
      · cases took
  | endBatch =>
      simp only [step] at took
      split at took
      · rename_i handled
        cases took
        refine ⟨keeps.conn, fun pending => ?_⟩
        have edge := keeps.settled (by rw [handled]; nofun) pending
        exact edge.imp_right .inl
      · cases took
  | becomeWritable =>
      simp only [step] at took
      split at took
      · cases took
      · cases took
        refine ⟨keeps.conn, fun pending => .inl ?_⟩
        have sending : state.conn.Sending := sending_of_connected keeps.conn pending.1
        show (state.queued || state.armed) = true
        rw [armed_of_sending sending pending.2, Bool.or_true]
  | elsewhere interest =>
      simp only [step] at took
      split at took
      · rename_i same
        cases took
        have stepped : connStep state.conn (.elsewhere interest) =
            some { state.conn with cchnl := { state.conn.cchnl with interest := interest } } := by
          rw [connStep, if_pos same]
        exact ⟨Connect.kept_step keeps.conn stepped, keeps.edge⟩
      · cases took

theorem Keeps.noStall (keeps : Keeps state) : NoStall state := by
  intro between pending
  exact keeps.settled (by rw [between]; nofun) pending

/-- The step that loses the edge leaves pending output without one. -/
theorem swallowed {label : EdgeLabel} (swallows : state.Swallows label)
    (took : state.step label = some next) (stays : next.conn.disconn = false) :
    next.pc = .inBatch none ∧ next.Pending ∧ next.queued = false ∧ next.due = false := by
  obtain ⟨fuel, call, sent, room, revs, rfl, waiting, pending, unqueued, ends⟩ := swallows
  simp only [step, waiting] at took
  unfold handleRevs at took
  rcases ends with ⟨called, undue⟩ | ⟨called, sends, unnoticed⟩
  · simp only [called] at took
    split at took
    · rename_i received ended
      cases took
      rcases Connect.onMsg_leaves ended with ⟨inputBuf, lastAtTime, same⟩ | ⟨inputBuf, closed, _⟩
      · refine ⟨rfl, ⟨stays, ?_⟩, unqueued, undue⟩
        show 0 < received.conn.outputBuf.size
        rw [same]
        exact pending.2
      · have disconnected := Connect.disconnect_disconn closed
        change received.conn.disconn = false at stays
        rw [disconnected] at stays
        cases stays
    · cases took
  · simp only [called] at took
    split at took
    · split at took
      · cases took
      · rename_i conn post wrote
        cases took
        obtain ⟨left, _⟩ := Connect.writecb_leaves wrote
        refine ⟨rfl, ⟨stays, ?_⟩, ?_, ?_⟩
        · show 0 < conn.outputBuf.size
          rw [left, Connect.unsent, if_neg (by omega)]
          exact pending.2
        · show (state.queued && !post) = false
          rw [unqueued, Bool.false_and]
        · show (!post && decide (sent ≤ 0)) = false
          rw [decide_eq_false (by omega), Bool.and_false]
    · cases took

/-- **... and the batch ends in a stall.** -/
theorem swallowed_stalls {label : EdgeLabel} (swallows : state.Swallows label)
    (took : state.step label = some next) (stays : next.conn.disconn = false) :
    ¬ Always step NoStall next [.endBatch] := by
  obtain ⟨handled, pending, unqueued, undue⟩ := swallowed swallows took stays
  have ended : next.step .endBatch = some { next with pc := .between } := by
    simp only [step, handled]
  intro always
  rcases (always.2 _ ended).head rfl pending with queued | due
  · rw [unqueued] at queued
    cases queued
  · rw [undue] at due
    cases due

/-- **When pending output is waited for.** From a connection as constructed, in every state between
batches of a run none of whose steps is of the kind excepted, pending output has an edge queued or
due. And after a step of that kind, reached in any run, that leaves the connection open, the batch
ends with pending output and no edge. -/
theorem output_waits_iff {fd : Nat} {interest : InterestList} {now : Int} {conn : Connect}
    (made : Connect.make fd interest now = .ok conn) (writable : Bool) :
    (∀ labels, Along step (fun state label => ¬ state.Swallows label)
        { conn := conn, writable := writable } labels →
      Always step NoStall { conn := conn, writable := writable } labels) ∧
    (∀ state next, Reachable step { conn := conn, writable := writable } state →
      ∀ label, state.step label = some next → state.Swallows label →
        next.conn.disconn = false → ¬ Always step NoStall next [.endBatch]) := by
  have start : Keeps { conn := conn, writable := writable } := by
    refine ⟨.inl (Connect.make_sending made), fun pending => ?_⟩
    have some_output : 0 < conn.outputBuf.size := pending.2
    rw [Connect.made_eq made] at some_output
    cases some_output
  refine ⟨fun labels along => ?_, fun state next _ label took swallows stays =>
    swallowed_stalls swallows took stays⟩
  have keeps := always_of_along
    (fun _ _ _ keeps allowed took => edges_step keeps allowed took) start along
  exact keeps.mono fun _ keeps => keeps.noStall

/-- A channel that is reported has its event to handle. -/
theorem poll_pc {events revs : Mask} (took : state.step (.poll (some (events, revs))) = some next) :
    next.pc = .inBatch (some revs) := by
  cases here : state.pc with
  | between =>
      simp only [step, here] at took
      cases took
      rfl
  | inBatch waiting =>
      simp only [step, here] at took
      cases took

/-- Two bytes are queued, and taken when the socket is reported writable. -/
theorem output_waits_iff_written :
    Always step NoStall { conn := quietConnect } [.poll none, .send ⟨[104, 105], by decide⟩,
      .endBatch, .poll (some (epollOut, epollOut)), .handle 0 (callOf []) 2 true, .endBatch] := by
  have other : ∀ (state : Edges) label,
      (∀ fuel call sent room, label ≠ .handle fuel call sent room) → ¬ state.Swallows label := by
    rintro state label elsewhere ⟨fuel, call, sent, room, _, same, _⟩
    exact elsewhere fuel call sent room same
  refine (output_waits_iff Connect.quietConnect_made true).1 _ ?_
  refine fun _ _ => ⟨other _ _ nofun, fun _ _ => ⟨other _ _ nofun, fun _ _ => ⟨other _ _ nofun,
    fun polled took => ⟨other _ _ nofun, fun _ _ => ⟨?_, fun _ _ => ⟨other _ _ nofun, trivial⟩⟩⟩⟩⟩⟩
  -- the event is answered with `writecb`
  rintro ⟨_, _, sent, _, revs, same, waiting, _, _, ends⟩
  cases same
  rw [poll_pc took] at waiting
  cases waiting
  rcases ends with ⟨read, _⟩ | ⟨_, _, unnoticed⟩
  · cases read
  · exact absurd unnoticed (by decide)

/-- **Output and input ready in one mask**: two bytes are queued on a writable socket, epoll reports
`EPOLLIN | EPOLLOUT`, and `on_msg` runs. The edge is gone and the bytes stay. -/
theorem out_with_in_stalls :
    ¬ Always step NoStall { conn := quietConnect } [.poll none, .send ⟨[104, 105], by decide⟩,
      .endBatch, .poll (some (epollIn ||| epollOut, epollIn ||| epollOut)),
      .handle 4 (callOf [frameA]) 0 true, .endBatch] := by
  have run : (exec step { conn := quietConnect } [.poll none, .send ⟨[104, 105], by decide⟩,
      .endBatch, .poll (some (epollIn ||| epollOut, epollIn ||| epollOut)),
      .handle 4 (callOf [frameA]) 0 true, .endBatch]).map (fun final =>
        (final.pc, final.queued, final.due, final.conn.disconn, final.conn.outputBuf.buf)) =
      some (.between, false, false, false, [104, 105]) := by
    decide +kernel
  obtain ⟨final, ran, facts⟩ := Option.map_eq_some_iff.mp run
  simp only [Prod.mk.injEq] at facts
  obtain ⟨between, unqueued, undue, connected, left⟩ := facts
  intro always
  have some_output : 0 < final.conn.outputBuf.size := by
    rw [Buffer.size, left]
    decide
  rcases always.last ran between ⟨connected, some_output⟩ with queued | due
  · rw [unqueued] at queued
    cases queued
  · rw [undue] at due
    cases due

end Edges

end IkunSvr
