/-
**Output that is pending is armed.**

A run is any list of calls on a connection on its loop's thread: `send_in_loop`, `writecb` with what
its `_send_cb` passes to `send`, `on_msg`, `on_close` and `on_error`; other channels of the loop
change the interest list elsewhere.

* `Sending` — what a connection that is not closed keeps: it is registered for input, edge-triggered,
  and for output while `_output_buf` is not empty;
* `sending_writecb`, `sending_sendAll`, `sending_onMsg` — the calls keep it;
* `pending_output_armed` — **so in every state of a run pending output is armed, and after a
  `writecb` whose `_send_cb` sends nothing output is armed exactly when some is pending.**
-/

import IkunSvr.Net.Dispatch
import IkunSvr.Receive.Reassembly

namespace IkunSvr

open Run

/-! ### Calls -/

/-- A call on a connection, on its loop's thread. -/
inductive ConnCall
  | sendInLoop (data : Block)
  /-- `writecb`, with the result of `::send` and what `_send_cb` passes to `send` -/
  | writecb (sent : Int) (replies : List Block)
  | onMsg (fuel : Nat) (call : Call)
  | onClose
  | onError
  /-- a call on another channel of the loop -/
  | elsewhere (interest : InterestList)

/-- The connection after a call, if the call returns. -/
def connStep (conn : Connect) : ConnCall → Option Connect
  | .sendInLoop data => (conn.sendInLoop data.bytes data.bytes.length).toOption
  | .writecb sent replies =>
      match conn.writecb sent with
      | .error _ => none
      | .ok (next, post) => if post then (next.sendAll replies).toOption else some next
  | .onMsg fuel call =>
      match conn.onMsg fuel call.past call.now call.reads with
      | some (.ok received) => some received.conn
      | _ => none
  | .onClose => conn.onClose.toOption
  | .onError => conn.onError.toOption
  | .elsewhere interest =>
      if interest conn.cchnl.chnl.fd = conn.cchnl.registered then
        some { conn with cchnl := { conn.cchnl with interest := interest } }
      else none

/-! ### Pending output -/

/-- The events are in the channel's mask, and in the mask registered with epoll. -/
def Watch.Watches (watch : Watch) (events : Mask) : Prop :=
  Has watch.chnl.evs events ∧ ∃ mask, watch.registered = some mask ∧ Has mask events

/-- A connection that is not closed is watched for input, edge-triggered, and for output if some is
pending. -/
def PendingArmed (conn : Connect) : Prop :=
  conn.disconn = false →
    (0 < conn.outputBuf.size → conn.cchnl.Watches epollOut) ∧
      conn.cchnl.Watches epollIn ∧ conn.cchnl.Watches epollEt

/-- A `writecb` whose `_send_cb` sends nothing leaves output armed exactly when some is pending. -/
def WriteArms (conn : Connect) (call : ConnCall) : Prop :=
  ∀ sent next, call = .writecb sent [] → connStep conn call = some next → next.disconn = false →
    (next.cchnl.Watches epollOut ↔ 0 < next.outputBuf.size)

namespace Connect

/-- A live connection, watched for input, edge-triggered, and for output if some is pending. -/
structure Sending (conn : Connect) : Prop where
  live : conn.Live
  input : Has conn.cchnl.chnl.evs epollIn
  edge : Has conn.cchnl.chnl.evs epollEt
  output : 0 < conn.outputBuf.size → Has conn.cchnl.chnl.evs epollOut

variable {conn next : Connect}

theorem Live.watches_iff (live : conn.Live) (events : Mask) :
    conn.cchnl.Watches events ↔ Has conn.cchnl.chnl.evs events := by
  constructor
  · exact And.left
  · intro has
    exact ⟨has, conn.cchnl.chnl.evs, live.registered, has⟩

/-! ### The calls keep it -/

/-- The channel and `_output_buf` are all that matters. -/
theorem Sending.of_eq (sending : conn.Sending) (disconn : next.disconn = conn.disconn)
    (cchnl : next.cchnl = conn.cchnl) (outputBuf : next.outputBuf = conn.outputBuf) :
    next.Sending := by
  refine ⟨sending.live.of_eq disconn cchnl, ?_, ?_, ?_⟩
  · rw [cchnl]
    exact sending.input
  · rw [cchnl]
    exact sending.edge
  · rw [cchnl, outputBuf]
    exact sending.output

/-- Arming output. -/
theorem Sending.arm (sending : conn.Sending) (outputBuf : Buffer) :
    Sending { conn with
      outputBuf := outputBuf
      cchnl := (conn.cchnl.setEvs (conn.cchnl.chnl.evs ||| epollOut)).enlisted } :=
  ⟨sending.live.enlist _ _, sending.input.or _, sending.edge.or _, fun _ => has_or_self _ _⟩

/-- Disarming output, when none is pending. -/
theorem Sending.disarm (sending : conn.Sending) {outputBuf : Buffer} (empty : outputBuf.size = 0) :
    Sending { conn with
      outputBuf := outputBuf
      cchnl := (conn.cchnl.setEvs (conn.cchnl.chnl.evs &&& ~~~epollOut)).enlisted } := by
  refine ⟨sending.live.enlist _ _, sending.input.clear (by decide), sending.edge.clear (by decide),
    fun pending => ?_⟩
  change 0 < outputBuf.size at pending
  omega

theorem sending_sendInLoop (sending : conn.Sending) (data : Block) :
    ∃ next, conn.sendInLoop data.bytes data.bytes.length = .ok next ∧ next.Sending := by
  rw [sendInLoop_live sending.live]
  exact ⟨_, rfl, sending.arm _⟩

theorem sending_sendAll (sending : conn.Sending) (replies : List Block) :
    ∃ next, conn.sendAll replies = .ok next ∧ next.Sending := by
  induction replies generalizing conn with
  | nil => exact ⟨conn, rfl, sending⟩
  | cons data replies ih =>
      obtain ⟨middle, done, still⟩ := sending_sendInLoop sending data
      obtain ⟨next, rest, last⟩ := ih still
      refine ⟨next, ?_, last⟩
      have sends : conn.send true data [] = .ok (middle, []) := by
        unfold send
        rw [sending.live.connected, done]
        rfl
      unfold sendAll
      rw [sends]
      exact rest

/-- What `writecb` leaves before its `_send_cb` runs. -/
theorem sending_writecb (sending : conn.Sending) (sent : Int) :
    ∃ next post, conn.writecb sent = .ok (next, post) ∧ next.Sending ∧
      (Has next.cchnl.chnl.evs epollOut ↔ 0 < next.outputBuf.size) ∧
      (post = true ↔ next.outputBuf.size = 0) := by
  rw [writecb_live sending.live]
  by_cases empty : (unsent sent conn.outputBuf).size = 0
  · rw [if_pos empty]
    refine ⟨_, _, rfl, sending.disarm empty, ?_, ?_⟩
    · constructor
      · intro armed
        exact absurd armed (not_has_clear (by decide) _)
      · intro pending
        change 0 < (unsent sent conn.outputBuf).size at pending
        omega
    · exact ⟨fun _ => empty, fun _ => rfl⟩
  · rw [if_neg empty]
    -- nothing was sent, and what was pending is armed
    have kept : unsent sent conn.outputBuf = conn.outputBuf := by
      unfold unsent at empty ⊢
      split at empty
      · exact absurd rfl empty
      · rename_i failed
        rw [if_neg failed]
    have pending : 0 < conn.outputBuf.size := by
      rw [← kept]
      exact Nat.pos_of_ne_zero empty
    refine ⟨_, _, rfl, sending.of_eq rfl rfl kept, ?_, ?_⟩
    · constructor
      · exact fun _ => Nat.pos_of_ne_zero empty
      · exact fun _ => sending.output pending
    · exact ⟨nofun, fun same => absurd same empty⟩

/-- **`on_msg`** leaves the connection as it was, or removed. -/
theorem sending_onMsg (sending : conn.Sending) {fuel : Nat} {past : Nat → UInt8 × UInt8}
    {now : Int} {reads : Reads} {received : Received}
    (ended : conn.onMsg fuel past now reads = some (.ok received)) :
    received.conn.Sending ∨ received.conn.Removed := by
  rcases onMsg_leaves ended with ⟨inputBuf, lastAtTime, same⟩ | ⟨inputBuf, closes, _⟩
  · rw [same]
    exact .inl (sending.of_eq rfl rfl rfl)
  · have closing : Live { conn with inputBuf := inputBuf } := sending.live.of_eq rfl rfl
    rw [onClose, disconnect_live closing] at closes
    rw [← Except.ok.inj closes]
    exact .inr (removed_of_struck { conn with inputBuf := inputBuf })

/-- On a removed connection a call that returns has changed no registration. -/
theorem removed_step (removed : conn.Removed) {call : ConnCall}
    (took : connStep conn call = some next) : next.Removed := by
  have lost : ∀ evs, Poller.update (conn.cchnl.setEvs evs) = .error .exit :=
    fun evs => Watch.update_lost removed.flagged removed.absent
  cases call with
  | sendInLoop data =>
      rw [connStep, sendInLoop_removed removed] at took
      cases took
  | writecb sent replies =>
      rw [connStep, writecb_eq] at took
      split at took
      · cases took
      · rename_i next post wrote
        split at wrote
        · rw [Watch.disenableWrite, lost] at wrote
          cases wrote
        · cases wrote
          cases took
          exact ⟨removed.disconnected, removed.flagged, removed.absent⟩
  | onMsg fuel call =>
      rw [connStep] at took
      split at took
      · rename_i received ended
        cases took
        rcases onMsg_leaves ended with ⟨inputBuf, lastAtTime, same⟩ | ⟨inputBuf, closes, _⟩
        · rw [same]
          exact ⟨removed.disconnected, removed.flagged, removed.absent⟩
        · have closing : Removed { conn with inputBuf := inputBuf } :=
            ⟨removed.disconnected, removed.flagged, removed.absent⟩
          rw [onClose, disconnect_removed closing] at closes
          cases closes
      · cases took
  | onClose =>
      rw [connStep, onClose, disconnect_removed removed] at took
      cases took
  | onError =>
      rw [connStep, onError, disconnect_removed removed] at took
      cases took
  | elsewhere interest =>
      rw [connStep] at took
      split at took
      · rename_i same
        cases took
        exact ⟨removed.disconnected, removed.flagged, same.trans removed.absent⟩
      · cases took

/-- **Every call keeps a connection that is not closed watched**, or closes it. -/
theorem sending_step (sending : conn.Sending) {call : ConnCall}
    (took : connStep conn call = some next) : next.Sending ∨ next.Removed := by
  cases call with
  | sendInLoop data =>
      obtain ⟨last, done, still⟩ := sending_sendInLoop sending data
      rw [connStep, done] at took
      cases took
      exact .inl still
  | writecb sent replies =>
      obtain ⟨middle, post, wrote, still, _, _⟩ := sending_writecb sending sent
      rw [connStep, wrote] at took
      simp only at took
      split at took
      · obtain ⟨last, done, after⟩ := sending_sendAll still replies
        rw [done] at took
        cases took
        exact .inl after
      · cases took
        exact .inl still
  | onMsg fuel call =>
      rw [connStep] at took
      split at took
      · rename_i received ended
        cases took
        exact sending_onMsg sending ended
      · cases took
  | onClose =>
      rw [connStep, onClose, disconnect_live sending.live] at took
      cases took
      exact .inr (removed_of_struck conn)
  | onError =>
      rw [connStep, onError, disconnect_live sending.live] at took
      cases took
      exact .inr (removed_of_struck conn)
  | elsewhere interest =>
      rw [connStep] at took
      split at took
      · rename_i same
        cases took
        refine .inl ⟨⟨sending.live.connected, sending.live.flagged, ?_⟩, sending.input, sending.edge,
          sending.output⟩
        exact same.trans sending.live.registered
      · cases took

/-- A connection is watched until it is removed. -/
theorem kept_step (kept : conn.Sending ∨ conn.Removed) {call : ConnCall}
    (took : connStep conn call = some next) : next.Sending ∨ next.Removed := by
  rcases kept with sending | removed
  · exact sending_step sending took
  · exact .inr (removed_step removed took)

theorem Sending.pendingArmed (sending : conn.Sending) : PendingArmed conn := by
  intro _
  rw [sending.live.watches_iff, sending.live.watches_iff, sending.live.watches_iff]
  exact ⟨sending.output, sending.input, sending.edge⟩

theorem Removed.pendingArmed (removed : conn.Removed) : PendingArmed conn :=
  fun connected => absurd connected removed.not_connected

theorem writeArms_of (kept : conn.Sending ∨ conn.Removed) (call : ConnCall) :
    WriteArms conn call := by
  intro sent next same took connected
  rcases kept with sending | removed
  · obtain ⟨middle, post, wrote, still, armed, _⟩ := sending_writecb sending sent
    rw [same, connStep, wrote] at took
    have ended : next = middle := by
      simp only at took
      split at took
      · cases took
        rfl
      · cases took
        rfl
    rw [ended, still.live.watches_iff]
    exact armed
  · exact absurd connected (removed_step removed took).not_connected

/-- The constructor watches for input, edge-triggered. -/
theorem make_sending {fd : Nat} {interest : InterestList} {now : Int}
    (made : make fd interest now = .ok conn) : conn.Sending := by
  rw [made_eq made]
  exact ⟨⟨rfl, rfl, Watch.enlisted_registered _⟩,
    (by decide : Has (0 ||| epollEt ||| epollIn) epollIn),
    (by decide : Has (0 ||| epollEt ||| epollIn) epollEt), nofun⟩

/-- **Pending output is always armed.** From a connection as constructed, in every state of every
run of calls, a connection that is not closed is watched for input and edge-triggered, and for
output if `_output_buf` is not empty; and after a `writecb` whose `_send_cb` sends nothing, output
is armed exactly when `_output_buf` is not empty. -/
theorem pending_output_armed {fd : Nat} {interest : InterestList} {now : Int}
    (made : make fd interest now = .ok conn) (calls : List ConnCall) :
    Always connStep PendingArmed conn calls ∧ Along connStep WriteArms conn calls := by
  have start : conn.Sending ∨ conn.Removed := .inl (make_sending made)
  constructor
  · refine (always_of_step (fun _ _ _ kept took => kept_step kept took) start calls).mono ?_
    rintro conn (sending | removed)
    · exact sending.pendingArmed
    · exact removed.pendingArmed
  · exact along_of_invariant (fun _ _ _ kept took => kept_step kept took)
      (fun _ call kept => writeArms_of kept call) start calls

/-- The quiet connection is what the constructor makes. -/
theorem quietConnect_made : make 7 (fun _ => none) 0 = .ok quietConnect := by
  rw [make_eq rfl]
  unfold quietConnect Watch.enlisted
  congr
  funext fd
  by_cases same : fd = 7
  · rw [same, Function.update_self]
    rfl
  · rw [Function.update_of_ne same, if_neg same]

/-- Two bytes are queued, a `::send` fails, the next takes them, and `_send_cb` queues another. -/
theorem pending_output_armed_reply :
    Always connStep PendingArmed quietConnect [.sendInLoop ⟨[104, 105], by decide⟩, .writecb (-1) [],
      .writecb 2 [⟨[33], by decide⟩], .writecb 1 []] ∧
    Along connStep WriteArms quietConnect [.sendInLoop ⟨[104, 105], by decide⟩, .writecb (-1) [],
      .writecb 2 [⟨[33], by decide⟩], .writecb 1 []] :=
  pending_output_armed quietConnect_made _

end Connect

end IkunSvr
