/-
**Bytes on their way out of a connection.**

`Output` is a connection with what has been passed to `send_in_loop`, what the kernel has accepted,
and both of these at each call of `_send_cb`. A run mixes calls of `send_in_loop` and `writecb`, with
any result of `::send`.

* `outputStep_live` — on a live connection every such call returns;
* `write_conserves_iff` — a `writecb` keeps `accepted ++ _output_buf = queued` exactly when its
  `::send` fails or takes all that was offered, with a count that is a positive `int`;
* `output_conserved_iff` — **so a run loses and duplicates no byte, and calls `_send_cb` only when
  all is accepted, exactly when all its `::send`s are of this kind.**
-/

import IkunSvr.Lib.Run
import IkunSvr.Receive.Reassembly

namespace IkunSvr

open Run

/-! ### Runs -/

/-- A connection and the history of its output. -/
structure Output where
  conn : Connect
  queued : Bytes := []
  accepted : Bytes := []
  /-- `accepted` and `queued` at each call of `_send_cb` -/
  posts : List (Bytes × Bytes) := []

/-- A call on the connection. -/
inductive OutputCall
  /-- `send_in_loop` -/
  | send (data : Block)
  /-- `writecb`, with the result of `::send` -/
  | write (sent : Int)

/-- A result of `::send` for an offer of `size` bytes: `-1`, or a count of at least one of them (none
when none is offered). -/
def Offered (size : Nat) (sent : Int) : Prop :=
  sent = -1 ∨ 0 ≤ sent ∧ sent ≤ size ∧ (sent = 0 → size = 0)

instance (size : Nat) (sent : Int) : Decidable (Offered size sent) :=
  inferInstanceAs (Decidable (_ ∨ _))

/-- One call; a result that `::send` cannot have is not enabled, nor is a call that does not
return. -/
def outputStep (state : Output) : OutputCall → Option Output
  | .send data =>
      match state.conn.sendInLoop data.bytes data.bytes.length with
      | .error _ => none
      | .ok conn => some { state with conn := conn, queued := state.queued ++ data.bytes }
  | .write sent =>
      if Offered state.conn.outputBuf.size sent then
        match state.conn.writecb sent with
        | .error _ => none
        | .ok (conn, post) =>
            let accepted := state.accepted ++ state.conn.outputBuf.buf.take sent.toNat
            some { state with
              conn := conn
              accepted := accepted
              posts := if post then state.posts ++ [(accepted, state.queued)] else state.posts }
      else none

/-- No byte is lost or duplicated, and `_send_cb` was called only when every byte queued had been
accepted. -/
def Conserved (state : Output) : Prop :=
  state.accepted ++ state.conn.outputBuf.buf = state.queued ∧
    ∀ post ∈ state.posts, post.1 = post.2

/-- A `::send` that fails, or takes all that is offered with a count that is a positive `int`. -/
def WholeWrite (state : Output) : OutputCall → Prop
  | .send _ => True
  | .write sent =>
      sent = -1 ∨ sent = state.conn.outputBuf.size ∧ (sent = 0 ∨ 0 < toInt sent)

/-! ### What a call leaves -/

section Steps

variable {state next : Output}

theorem outputStep_send {data : Block} (took : outputStep state (.send data) = some next) :
    next.conn.outputBuf.buf = state.conn.outputBuf.buf ++ data.bytes ∧
      next.queued = state.queued ++ data.bytes ∧ next.accepted = state.accepted ∧
      next.posts = state.posts := by
  rw [outputStep, Connect.sendInLoop_eq] at took
  cases armed : state.conn.cchnl.enableWrite with
  | error stop =>
      rw [armed] at took
      cases took
  | ok cchnl =>
      rw [armed] at took
      cases took
      exact ⟨rfl, rfl, rfl, rfl⟩

/-- **What `writecb` leaves**: what `::send` took is accepted, a positive count empties
`_output_buf`, and `_send_cb` is called when that is empty. -/
theorem outputStep_write {sent : Int} (took : outputStep state (.write sent) = some next) :
    Offered state.conn.outputBuf.size sent ∧ next.queued = state.queued ∧
      next.accepted = state.accepted ++ state.conn.outputBuf.buf.take sent.toNat ∧
      next.conn.outputBuf = Connect.unsent sent state.conn.outputBuf ∧
      next.posts = if next.conn.outputBuf.size = 0 then
        state.posts ++ [(next.accepted, next.queued)] else state.posts := by
  rw [outputStep] at took
  split at took
  · rename_i offered
    rw [Connect.writecb_eq] at took
    by_cases empty : (Connect.unsent sent state.conn.outputBuf).size = 0
    · rw [if_pos empty] at took
      cases disarmed : state.conn.cchnl.disenableWrite with
      | error stop =>
          rw [disarmed] at took
          cases took
      | ok cchnl =>
          rw [disarmed] at took
          cases took
          exact ⟨offered, rfl, rfl, rfl, (if_pos empty).symm⟩
    · rw [if_neg empty] at took
      cases took
      exact ⟨offered, rfl, rfl, rfl, (if_neg empty).symm⟩
  · cases took

/-- Passing data to `send_in_loop` keeps the books. -/
theorem send_conserves {data : Block} (conserved : Conserved state)
    (took : outputStep state (.send data) = some next) : Conserved next := by
  obtain ⟨buffered, queued, accepted, posts⟩ := outputStep_send took
  obtain ⟨total, posted⟩ := conserved
  refine ⟨?_, ?_⟩
  · rw [accepted, buffered, queued, ← total, List.append_assoc]
  · rw [posts]
    exact posted

/-- What is left behind the bytes `::send` took is what `writecb` leaves. -/
theorem take_unsent_iff {outputBuf : Buffer} {sent : Int} (offered : Offered outputBuf.size sent) :
    outputBuf.buf.take sent.toNat ++ (Connect.unsent sent outputBuf).buf = outputBuf.buf ↔
      sent = -1 ∨ sent = outputBuf.size ∧ (sent = 0 ∨ 0 < toInt sent) := by
  unfold Connect.unsent
  rcases offered with failed | ⟨nonneg, most, none⟩
  · have kept : ¬ 0 < toInt (-1) := by decide
    rw [failed, if_neg kept]
    simp
  · have length : outputBuf.size = outputBuf.buf.length := rfl
    by_cases positive : 0 < toInt sent
    · rw [if_pos positive, Buffer.clear, List.append_nil, List.take_eq_self_iff]
      omega
    · rw [if_neg positive, List.append_left_eq_self, List.take_eq_nil_iff, ← List.length_eq_zero_iff]
      omega

/-- **A `writecb` keeps the books exactly when its `::send` fails or takes everything**, with a
count that is a positive `int`. -/
theorem write_conserves_iff {sent : Int} (conserved : Conserved state)
    (took : outputStep state (.write sent) = some next) :
    Conserved next ↔
      sent = -1 ∨ sent = state.conn.outputBuf.size ∧ (sent = 0 ∨ 0 < toInt sent) := by
  obtain ⟨offered, queued, accepted, buffered, posts⟩ := outputStep_write took
  obtain ⟨total, posted⟩ := conserved
  rw [← take_unsent_iff offered]
  have balance : next.accepted ++ next.conn.outputBuf.buf = next.queued ↔
      state.conn.outputBuf.buf.take sent.toNat ++
        (Connect.unsent sent state.conn.outputBuf).buf = state.conn.outputBuf.buf := by
    rw [accepted, buffered, queued, ← total, List.append_assoc, List.append_cancel_left_eq]
  rw [← balance]
  refine ⟨fun kept => kept.1, fun kept => ⟨kept, fun post member => ?_⟩⟩
  rw [posts] at member
  split at member
  · rename_i empty
    rcases List.mem_append.mp member with earlier | now
    · exact posted post earlier
    · rw [List.mem_singleton] at now
      rw [List.length_eq_zero_iff.mp empty, List.append_nil] at kept
      rw [now]
      exact kept
  · exact posted post member

end Steps

/-! ### Runs -/

/-- **On a live connection every call returns**, and leaves it live. -/
theorem outputStep_live {state : Output} (live : state.conn.Live) (call : OutputCall)
    (real : ∀ sent, call = .write sent → Offered state.conn.outputBuf.size sent) :
    ∃ next, outputStep state call = some next ∧ next.conn.Live := by
  cases call with
  | send data =>
      rw [outputStep, Connect.sendInLoop_live live]
      refine ⟨_, rfl, ?_⟩
      exact live.enlist _ _
  | write sent =>
      rw [outputStep, if_pos (real sent rfl), Connect.writecb_live live]
      by_cases emptied : (Connect.unsent sent state.conn.outputBuf).size = 0
      · rw [if_pos emptied]
        refine ⟨_, rfl, ?_⟩
        exact live.enlist _ _
      · rw [if_neg emptied]
        refine ⟨_, rfl, ?_⟩
        exact live.of_eq rfl rfl

/-- **Output is conserved exactly in the runs whose `::send`s fail or take everything.** From a
connection with an empty `_output_buf`, in every state of a run the bytes accepted and the contents
of `_output_buf` are the bytes queued, and `_send_cb` has been called only with everything accepted,
exactly when every `::send` of the run returns `-1` or all that was offered, as an `int`. -/
theorem output_conserved_iff {conn : Connect} (empty : conn.outputBuf = {})
    (calls : List OutputCall) :
    Always outputStep Conserved { conn := conn } calls ↔
      Along outputStep WholeWrite { conn := conn } calls := by
  refine always_iff_along (fun state call next conserved took => ?_) ⟨?_, ?_⟩
  · cases call with
    | send data => exact ⟨fun _ => trivial, fun _ => send_conserves conserved took⟩
    | write sent => exact write_conserves_iff conserved took
  · rw [empty]
    rfl
  · intro post member
    cases member

/-- Two bytes queued, and taken. -/
theorem output_conserved_iff_whole :
    Always outputStep Conserved { conn := quietConnect }
      [.send ⟨[104, 105], by decide⟩, .write 2] := by
  refine (output_conserved_iff rfl _).mpr fun next took => ⟨trivial, fun _ _ => ⟨?_, trivial⟩⟩
  have buffered : next.conn.outputBuf.size = 2 :=
    congrArg List.length (outputStep_send took).1
  exact .inr ⟨by rw [buffered]; rfl, .inr (by decide)⟩

/-- **A short write**: two bytes queued, one taken, the other dropped. -/
theorem short_write_loses :
    ¬ Always outputStep Conserved { conn := quietConnect }
      [.send ⟨[104, 105], by decide⟩, .write 1] := by
  have run : (exec outputStep { conn := quietConnect }
      [.send ⟨[104, 105], by decide⟩, .write 1]).map
        (fun state => (state.accepted, state.conn.outputBuf.buf, state.queued)) =
          some ([104], [], [104, 105]) := by
    rfl
  obtain ⟨final, ran, books⟩ := Option.map_eq_some_iff.mp run
  intro always
  have total := (always.last ran).1
  simp only [Prod.mk.injEq] at books
  rw [books.1, books.2.1, books.2.2] at total
  exact absurd total (by decide)

end IkunSvr
