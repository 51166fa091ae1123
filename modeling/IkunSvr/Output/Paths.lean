/-
**The two paths of `connect::send`.**

On the loop's thread `send` runs `send_in_loop` at once. On any other it copies 30 bytes of the
payload and queues a task with the copy and the payload's size, which `handle_weakup` runs later.

* `send_deferred`, `send_deferred_short` — what the queued task holds, and a payload of fewer than 30
  bytes, behind which the copy reads;
* `runTask_within` — a task appends only what lies in its copy, so its size is at most 30;
* `send_agrees_iff` — **the two paths agree, without reading outside the payload or the copy, exactly
  for payloads of 30 bytes.**
-/

import IkunSvr.Receive.Reassembly

namespace IkunSvr

namespace Connect

variable {conn : Connect} {data : Block} {tasks : List SendTask}

/-! ### The queued task -/

/-- Off the loop's thread `send` queues a task with a copy of 30 bytes. -/
theorem send_queued (connected : conn.disconn = false) :
    conn.send false data tasks = (memcpy data.bytes 30).map fun block =>
      (conn, tasks ++ [{ block := block, size := data.bytes.length }]) := by
  unfold send
  rw [connected]
  cases memcpy data.bytes 30 with
  | error stop => rfl
  | ok block => rfl

/-- A payload of 30 bytes or more queues its first 30 bytes, with its own size. -/
theorem send_deferred (connected : conn.disconn = false) (long : 30 ≤ data.bytes.length) :
    conn.send false data tasks =
      .ok (conn, tasks ++ [{ block := data.bytes.take 30, size := data.bytes.length }]) := by
  rw [send_queued connected, memcpy, if_neg (by omega), Except.map]

/-- Of a shorter payload the copy reads bytes that are not its own. -/
theorem send_deferred_short (connected : conn.disconn = false) (short : data.bytes.length < 30) :
    conn.send false data tasks = .error .outOfBounds := by
  rw [send_queued connected, memcpy, if_pos short, Except.map]

/-- On the loop's thread `send` is `send_in_loop`. -/
theorem send_direct (connected : conn.disconn = false) :
    conn.send true data tasks =
      (conn.sendInLoop data.bytes data.bytes.length).map fun sent => (sent, tasks) := by
  unfold send
  rw [connected]
  rfl

/-- A task appends only what lies in its copy. -/
theorem runTask_within {block : Bytes} {size : Nat} {next : Connect}
    (ran : handleWeakup [{ block := block, size := size }] conn = .ok next) :
    size ≤ block.length := by
  obtain ⟨sent, first, _⟩ := bind_eq_ok.mp ran
  obtain ⟨outputBuf, appended, _⟩ := bind_eq_ok.mp first
  exact (Buffer.append_eq_ok appended).1

/-! ### Agreement -/

/-- Whatever is queued, `send` off the loop's thread, and then the task it has added, reads only the
payload and the copy, and leaves `_output_buf` and the event mask as `send` on the loop's thread
does. -/
def Agrees (conn : Connect) (tasks : List SendTask) (data : Block) : Prop :=
  ∃ here task there, conn.send true data tasks = .ok (here, tasks) ∧
    conn.send false data tasks = .ok (conn, tasks ++ [task]) ∧
    handleWeakup [task] conn = .ok there ∧ there.outputBuf = here.outputBuf ∧ there.cchnl.chnl.evs = here.cchnl.chnl.evs ∧
    there.cchnl.registered = here.cchnl.registered

/-- **The two paths of `send` agree exactly on payloads of 30 bytes**, the size of the copy. -/
theorem send_agrees_iff (live : conn.Live) (tasks : List SendTask) (data : Block) :
    conn.Agrees tasks data ↔ data.bytes.length = 30 := by
  constructor
  · rintro ⟨here, task, there, _, deferred, ran, _⟩
    by_cases short : data.bytes.length < 30
    · rw [send_deferred_short live.connected short] at deferred
      cases deferred
    · rw [send_deferred live.connected (by omega)] at deferred
      simp only [Except.ok.injEq, Prod.mk.injEq, List.append_cancel_left_eq, List.cons.injEq,
        and_true, true_and] at deferred
      rw [← deferred] at ran
      have within := runTask_within ran
      rw [List.length_take] at within
      omega
  · intro size
    have whole : data.bytes.take 30 = data.bytes := List.take_of_length_le (by omega)
    obtain ⟨sent, appended⟩ : ∃ sent, conn.sendInLoop data.bytes data.bytes.length = .ok sent :=
      ⟨_, sendInLoop_live live data⟩
    have deferred : conn.send false data tasks =
        .ok (conn, tasks ++ [{ block := data.bytes, size := data.bytes.length }]) := by
      rw [send_deferred live.connected (by omega), whole]
    refine ⟨sent, _, sent, ?_, deferred, ?_, rfl, rfl, rfl⟩
    · rw [send_direct live.connected, appended]
      rfl
    · rw [handleWeakup, appended]
      rfl

/-- A payload of 30 bytes on the connection of the runs above. -/
theorem send_agrees_iff_thirty :
    quietConnect.Agrees [] ⟨List.replicate 30 97, by decide⟩ :=
  (send_agrees_iff quietConnect_live _ _).mpr (by decide)

/-- **A reply of two bytes**: the copy reads 28 bytes behind it. -/
theorem send_overreads :
    quietConnect.send false ⟨[104, 105], by decide⟩ [] = .error .outOfBounds ∧
      ¬ quietConnect.Agrees [] ⟨[104, 105], by decide⟩ := by
  have outside : quietConnect.send false ⟨[104, 105], by decide⟩ [] = .error .outOfBounds := by
    rfl
  refine ⟨outside, ?_⟩
  rintro ⟨_, _, _, _, deferred, _⟩
  rw [outside] at deferred
  cases deferred

end Connect

end IkunSvr
