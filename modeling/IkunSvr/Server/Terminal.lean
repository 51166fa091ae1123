/-
**The last event of a connection.**

`EventLoop` is a sub-loop with its epoll instance and the connections on it: its thread takes batches
from `poller::loop`, handles the channels one after the other, step by step, and runs the tasks of
the queue; the main thread sets connections up; worker threads are in `connect::send`; and a
connection may be destroyed at any time. A callback may send to any connection of the loop. What a
task of `connect::send` appends is a payload of any size that goes with it; what the copy of 30 bytes
makes of its bytes is left out. A step on a connection that does not exist is undefined behaviour, and
so is an append that reads outside the array of `on_msg`: neither has a successor.

* `Sound` — a connection is live or removed, and live as long as it is in the batch or in a handler
  that is not closing it; once `on_close` or `on_error` has started it is removed;
* `sound_react_live`, `sound_react_closing`, `sound_settle` — handlers and sends keep this;
* `terminal_once` — **so behind `on_close` or `on_error` of a connection nothing happens to it but
  the callback of that close**.
-/

import IkunSvr.Net.Handling
import IkunSvr.Server.Model

namespace IkunSvr

open Run

/-! ### A sub-loop and its connections -/

/-- A connection of the loop, with the first `cbs` of its callbacks set. Of its `cchnl` the interest
list is that of the loop. -/
structure LoopConn where
  conn : Connect
  cbs : Nat := 0

/-- Where the loop's thread is. -/
inductive EventLoop.Pc
  | idle
  | inHandler (conn : ConnId) (handling : Handling)
  /-- in `handle_weakup`, with the mutex -/
  | draining

structure EventLoop (Worker : Type) where
  interest : InterestList
  nextId : ConnId := 0
  conns : ConnId → Option LoopConn := fun _ => none
  /-- what is left of the batch, with the `_revs` of the channels -/
  batch : List (Source × Mask) := []
  pc : EventLoop.Pc := .idle
  tasks : List (ConnId × Block) := []
  /-- behind the test of `_disconn` in `connect::send`, before `add` -/
  senders : Worker → Option (ConnId × Block) := fun _ => none
  exited : Bool := false
  log : List (ConnId × ConnEvent) := []

/-- A step of some thread. -/
inductive EventLoop.Label (Worker : Type)
  /-- the constructor of a connection for a descriptor that has been accepted -/
  | create (fd : Nat) (now : Int)
  /-- the next callback of the connection is set -/
  | setCb (conn : ConnId)
  /-- the last `shared_ptr` is dropped, and the descriptor closed -/
  | destroy (conn : ConnId)
  | poll (evs : List (Source × Mask))
  /-- `handle_event` of the next channel; `sent` is the result of `::send` -/
  | dispatch (sent : Int)
  | handle (input : HandlerInput)
  /-- `connect::send` on the loop's thread, in a callback -/
  | send (conn : ConnId) (data : Block)
  | runTask
  | drained
  | test (worker : Worker) (conn : ConnId) (data : Block)
  | add (worker : Worker)

/-- The connection with the interest list of its loop. -/
def Connect.onto (interest : InterestList) (conn : Connect) : Connect :=
  { conn with cchnl := { conn.cchnl with interest := interest } }

namespace EventLoop

variable {Worker : Type}

/-- The connection, as its member functions find it. -/
def view (state : EventLoop Worker) (entry : LoopConn) : Connect :=
  entry.conn.onto state.interest

/-- The connection after a step of one of its member functions. -/
def put (state : EventLoop Worker) (conn : ConnId) (cbs : Nat) (next : Connect) :
    EventLoop Worker :=
  { state with
    interest := next.cchnl.interest
    conns := Function.update state.conns conn (some { conn := next, cbs := cbs }) }

/-- Where the loop's thread is behind a step of a handler. -/
def Pc.behind (conn : ConnId) : Option Handling → Pc
  | none => .idle
  | some handling => .inHandler conn handling

/-- `connect::fd` of a connection that exists. -/
def fdOf (state : EventLoop Worker) (conn : ConnId) : Option Nat :=
  (state.conns conn).map fun entry => entry.conn.cchnl.chnl.fd

/-- No connection has the descriptor: it was closed when the connection was destroyed. -/
def Unused (state : EventLoop Worker) (fd : Nat) : Prop :=
  ∀ conn < state.nextId, state.fdOf conn ≠ some fd

instance (state : EventLoop Worker) (fd : Nat) : Decidable (state.Unused fd) :=
  inferInstanceAs (Decidable (∀ conn < state.nextId, _))

/-- The channel's descriptor is in the interest list. -/
def Watched (state : EventLoop Worker) : Source → Prop
  | .conn conn =>
      ((state.conns conn).bind fun entry => (state.view entry).cchnl.registered) ≠ none
  | .weak => True
  | .timer => True

instance (state : EventLoop Worker) (source : Source) : Decidable (state.Watched source) :=
  match source with
  | .conn _ => inferInstanceAs (Decidable (_ ≠ none))
  | .weak => .isTrue trivial
  | .timer => .isTrue trivial

/-- epoll lists a channel once, and only while its descriptor is in the interest list. -/
def Reported (state : EventLoop Worker) (evs : List (Source × Mask)) : Prop :=
  (evs.map Prod.fst).Nodup ∧ ∀ ev ∈ evs, state.Watched ev.1

instance (state : EventLoop Worker) (evs : List (Source × Mask)) : Decidable (state.Reported evs) :=
  inferInstanceAs (Decidable (_ ∧ ∀ ev ∈ evs, state.Watched ev.1))

/-- A call on a connection returns, or exits; after any other stop nothing is said. -/
def settle (state : EventLoop Worker) (conn : ConnId) (cbs : Nat) :
    Except Stop Connect → Option (EventLoop Worker)
  | .ok next => some (state.put conn cbs next)
  | .error .exit => some { state with exited := true }
  | .error _ => none

/-- A step of a handler of the connection. -/
def react (state : EventLoop Worker) (conn : ConnId) (cbs : Nat) (reaction : Reaction) :
    Option (EventLoop Worker) :=
  let logged := { state with log := state.log ++ reaction.event.toList.map (Prod.mk conn) }
  match reaction.result with
  | .ok (next, handling) => some { logged.put conn cbs next with pc := .behind conn handling }
  | .error .exit => some { logged with exited := true }
  | .error _ => none

/-- The loop of `eventloop::run` calls `handle_event` of a channel. -/
def dispatch (state : EventLoop Worker) (source : Source) (revs : Mask) (sent : Int) :
    Option (EventLoop Worker) :=
  match source with
  | .conn conn =>
      match state.conns conn with
      | some entry =>
          state.react conn entry.cbs ((state.view entry).enter (handleEvent revs) sent)
      | none => none
  | .weak =>
      match handleEvent revs with
      | .read => some { state with pc := .draining }
      | _ => some state
  -- `handle_timer` evicts connections: those it was the last to own are destroyed
  | .timer => some state

section Step

variable [DecidableEq Worker]

/-- A step of a running process. -/
def act (state : EventLoop Worker) : Label Worker → Option (EventLoop Worker)
  | .create fd now =>
      if state.Unused fd then
        settle { state with nextId := state.nextId + 1 } state.nextId 0
          (Connect.make fd state.interest now)
      else none
  | .setCb conn => (state.conns conn).map fun entry =>
      state.put conn (entry.cbs + 1) (state.view entry)
  | .destroy conn => (state.conns conn).map fun entry => { state with
      interest := Function.update state.interest entry.conn.cchnl.chnl.fd none
      conns := Function.update state.conns conn none }
  | .poll evs =>
      match state.pc, state.batch with
      | .idle, [] =>
          if state.Reported evs then some { state with batch := Poller.loop evs } else none
      | _, _ => none
  | .dispatch sent =>
      match state.pc, state.batch with
      | .idle, (source, revs) :: batch => dispatch { state with batch := batch } source revs sent
      | _, _ => none
  | .handle input =>
      match state.pc with
      | .inHandler conn handling =>
          (state.conns conn).bind fun entry =>
            ((state.view entry).resume entry.cbs handling input).bind
              (state.react conn entry.cbs)
      | _ => none
  | .send conn data =>
      match state.pc with
      | .draining => none
      | _ => (state.conns conn).bind fun entry =>
          state.settle conn entry.cbs (((state.view entry).send true data []).map Prod.fst)
  | .runTask =>
      match state.pc, state.tasks with
      | .draining, (conn, data) :: tasks =>
          (state.conns conn).bind fun entry =>
            settle { state with tasks := tasks } conn entry.cbs
              ((state.view entry).sendInLoop data.bytes data.bytes.length)
      | _, _ => none
  | .drained =>
      match state.pc, state.tasks with
      | .draining, [] => some { state with pc := .idle }
      | _, _ => none
  | .test worker conn data =>
      match state.senders worker, state.conns conn with
      | none, some entry =>
          if entry.conn.disconn then some state
          else some { state with
            senders := Function.update state.senders worker (some (conn, data)) }
      | _, _ => none
  | .add worker =>
      match state.senders worker, state.pc with
      | _, .draining => none
      | some task, _ => some { state with
          senders := Function.update state.senders worker none
          tasks := state.tasks ++ [task] }
      | none, _ => none

/-- A step; once the process has exited there is none. -/
def step (state : EventLoop Worker) (label : Label Worker) : Option (EventLoop Worker) :=
  if state.exited then none else state.act label

end Step

/-- A loop without connections; its epoll instance watches its own descriptors. -/
def start (interest : InterestList) : EventLoop Worker where
  interest := interest

/-! ### Events of a connection that has been closed -/

/-- Behind `on_close` or `on_error` of a connection nothing happens to it but the callback of that
close: neither another `on_close` or `on_error`, nor a start of `on_msg` or `writecb`, nor a call of
`_msg_cb` or `_send_cb`. -/
def TerminalOnce (log : List (ConnId × ConnEvent)) : Prop :=
  ∀ before after conn event, log = before ++ (conn, event) :: after → event.Terminal →
    ∀ later, (conn, later) ∈ after → later = .called .close ∨ later = .called .error

/-! ### The invariant -/

/-- The connection is to be handled, or in a handler that is not closing it. -/
def Awaited (state : EventLoop Worker) (conn : ConnId) : Prop :=
  .conn conn ∈ state.batch.map Prod.fst ∨
    ∃ handling, state.pc = .inHandler conn handling ∧ ¬ handling.Closing

/-- What may stand in the log behind what. -/
def Behind (earlier later : ConnId × ConnEvent) : Prop :=
  earlier.2.Terminal → later.1 = earlier.1 → ∃ cb, later.2 = .called cb ∧ cb.Last

/-- What every step keeps. -/
structure Sound (state : EventLoop Worker) : Prop where
  fresh : ∀ conn, state.nextId ≤ conn → state.conns conn = none ∧ ∀ event, (conn, event) ∉ state.log
  apart : ∀ conn other entry otherEntry, state.conns conn = some entry →
    state.conns other = some otherEntry → other ≠ conn →
    otherEntry.conn.cchnl.chnl.fd ≠ entry.conn.cchnl.chnl.fd
  kept : ∀ conn entry, state.conns conn = some entry →
    (state.view entry).Live ∨ (state.view entry).Removed
  awaited : ∀ conn entry, state.conns conn = some entry → state.Awaited conn →
    (state.view entry).Live
  ended : ∀ conn entry event, state.conns conn = some entry → (conn, event) ∈ state.log →
    event.Terminal → (state.view entry).Removed
  once : (state.batch.map Prod.fst).Nodup
  handled : ∀ conn handling, state.pc = .inHandler conn handling →
    .conn conn ∉ state.batch.map Prod.fst
  quiet : state.log.Pairwise Behind

/-! ### One connection among the others -/

theorem live_onto {conn : Connect} {interest other : InterestList}
    (same : other conn.cchnl.chnl.fd = interest conn.cchnl.chnl.fd)
    (live : (conn.onto interest).Live) : (conn.onto other).Live :=
  ⟨live.connected, live.flagged, same.trans live.registered⟩

theorem removed_onto {conn : Connect} {interest other : InterestList}
    (same : other conn.cchnl.chnl.fd = interest conn.cchnl.chnl.fd)
    (removed : (conn.onto interest).Removed) : (conn.onto other).Removed :=
  ⟨removed.disconnected, removed.flagged, same.trans removed.absent⟩

variable {state next : EventLoop Worker} {conn : ConnId} {entry : LoopConn}

theorem Sound.known (sound : state.Sound) (alive : state.conns conn = some entry) :
    conn < state.nextId := by
  by_contra new
  have absent := (sound.fresh conn (not_lt.mp new)).1
  rw [alive] at absent
  cases absent

/-- The connections after a change of one of them, which is in state `after` if it exists then: any
other has been there before, and its registration is the same. -/
structure Change (state : EventLoop Worker) (interest : InterestList)
    (conns : ConnId → Option LoopConn) (changed : ConnId) (after : LoopConn) : Prop where
  self : ∀ found, conns changed = some found → found = after
  others : ∀ other found, other ≠ changed → conns other = some found →
    state.conns other = some found ∧
      interest found.conn.cchnl.chnl.fd = state.interest found.conn.cchnl.chnl.fd

/-- **One connection changes.** If it exists afterwards, no other one has its descriptor, it is live
or removed, and it is what its batch, its handler and its log make of it. -/
theorem Sound.change (sound : state.Sound) {interest : InterestList} {nextId : Nat}
    {conns : ConnId → Option LoopConn} {changed : ConnId} (after : LoopConn)
    (change : state.Change interest conns changed after)
    (fresh : ∀ conn, nextId ≤ conn → conns conn = none ∧ state.nextId ≤ conn)
    (apart : conns changed = some after → ∀ other found, other ≠ changed →
      state.conns other = some found → found.conn.cchnl.chnl.fd ≠ after.conn.cchnl.chnl.fd)
    (kept : conns changed = some after →
      (after.conn.onto interest).Live ∨ (after.conn.onto interest).Removed)
    (awaited : conns changed = some after → state.Awaited changed →
      (after.conn.onto interest).Live)
    (ended : conns changed = some after → ∀ event, (changed, event) ∈ state.log →
      event.Terminal → (after.conn.onto interest).Removed) :
    Sound { state with interest := interest, nextId := nextId, conns := conns } where
  fresh conn new := ⟨(fresh conn new).1, (sound.fresh conn (fresh conn new).2).2⟩
  apart conn other found foundToo there thereToo different := by
    by_cases same : conn = changed
    · subst same
      obtain rfl := change.self found there
      exact apart there other foundToo different (change.others other foundToo different thereToo).1
    · obtain ⟨before, _⟩ := change.others conn found same there
      by_cases sameToo : other = changed
      · subst sameToo
        obtain rfl := change.self foundToo thereToo
        exact (apart thereToo conn found same before).symm
      · exact sound.apart conn other found foundToo before
          (change.others other foundToo sameToo thereToo).1 different
  kept conn found there := by
    by_cases same : conn = changed
    · subst same
      obtain rfl := change.self found there
      exact kept there
    · obtain ⟨before, unchanged⟩ := change.others conn found same there
      exact (sound.kept conn found before).imp (live_onto unchanged) (removed_onto unchanged)
  awaited conn found there waits := by
    by_cases same : conn = changed
    · subst same
      obtain rfl := change.self found there
      exact awaited there waits
    · obtain ⟨before, unchanged⟩ := change.others conn found same there
      exact live_onto unchanged (sound.awaited conn found before waits)
  ended conn found event there logged terminal := by
    by_cases same : conn = changed
    · subst same
      obtain rfl := change.self found there
      exact ended there event logged terminal
    · obtain ⟨before, unchanged⟩ := change.others conn found same there
      exact removed_onto unchanged (sound.ended conn found event before logged terminal)
  once := sound.once
  handled := sound.handled
  quiet := sound.quiet

/-- Writing one entry of the table, when the registrations of the others stay. -/
theorem change_update {interest : InterestList} {after : LoopConn}
    (stays : ∀ other found, other ≠ conn → state.conns other = some found →
      interest found.conn.cchnl.chnl.fd = state.interest found.conn.cchnl.chnl.fd)
    {written : Option LoopConn} (wrote : written = some after ∨ written = none) :
    state.Change interest (Function.update state.conns conn written) conn after := by
  refine ⟨fun found there => ?_, fun other found different there => ?_⟩
  · rw [Function.update_self] at there
    rcases wrote with rfl | rfl
    · exact (Option.some.inj there).symm
    · cases there
  · rw [Function.update_of_ne different] at there
    exact ⟨there, stays other found different there⟩

/-- **A step of a member function.** -/
theorem Sound.put (sound : state.Sound) (alive : state.conns conn = some entry) {after : Connect}
    (others : (state.view entry).KeepsOthers after) (kept : after.Live ∨ after.Removed)
    (awaited : state.Awaited conn → after.Live)
    (ended : ∀ event, (conn, event) ∈ state.log → event.Terminal → after.Removed) (cbs : Nat) :
    (state.put conn cbs after).Sound := by
  refine sound.change { conn := after, cbs := cbs }
    (change_update (fun other found different there => ?_) (.inl rfl)) (fun other new => ?_)
    (fun _ other found different there => ?_) (fun _ => kept) (fun _ => awaited) (fun _ => ended)
  · exact others.interest _ (sound.apart conn other entry found alive there different)
  · refine ⟨?_, new⟩
    rw [Function.update_of_ne]
    · exact (sound.fresh other new).1
    · intro same
      rw [same] at new
      exact absurd (sound.known alive) (not_lt.mpr new)
  · show found.conn.cchnl.chnl.fd ≠ after.cchnl.chnl.fd
    rw [others.fd]
    exact sound.apart conn other entry found alive there different

/-- **Something happens to a connection.** -/
theorem Sound.record (sound : state.Sound) (known : conn < state.nextId) {event : ConnEvent}
    (behind : ∀ earlier, (conn, earlier) ∈ state.log → earlier.Terminal →
      ∃ cb, event = .called cb ∧ cb.Last)
    (removed : event.Terminal → ∀ entry, state.conns conn = some entry →
      (state.view entry).Removed) :
    Sound { state with log := state.log ++ [(conn, event)] } where
  fresh other new := by
    obtain ⟨absent, silent⟩ := sound.fresh other new
    refine ⟨absent, fun happened logged => ?_⟩
    rcases List.mem_append.mp logged with before | now
    · exact silent happened before
    · have same := congrArg Prod.fst (List.mem_singleton.mp now)
      change other = conn at same
      rw [same] at new
      exact absurd known (not_lt.mpr new)
  apart := sound.apart
  kept := sound.kept
  awaited := sound.awaited
  ended other entry happened there logged terminal := by
    rcases List.mem_append.mp logged with before | now
    · exact sound.ended other entry happened there before terminal
    · cases List.mem_singleton.mp now
      exact removed terminal entry there
  once := sound.once
  handled := sound.handled
  quiet := by
    refine List.pairwise_append.mpr ⟨sound.quiet, List.pairwise_singleton _ _, ?_⟩
    rintro ⟨other, earlier⟩ before later now
    obtain rfl := List.mem_singleton.mp now
    intro terminal same
    change conn = other at same
    subst same
    exact behind earlier before terminal

/-- **The loop's thread goes elsewhere.** -/
theorem Sound.goto (sound : state.Sound) {pc : Pc}
    (handled : ∀ conn handling, pc = .inHandler conn handling →
      .conn conn ∉ state.batch.map Prod.fst ∧ (¬ handling.Closing → ∀ entry,
        state.conns conn = some entry → (state.view entry).Live)) :
    Sound { state with pc := pc } where
  fresh := sound.fresh
  apart := sound.apart
  kept := sound.kept
  awaited conn entry there waits := by
    rcases waits with batched | ⟨handling, here, opens⟩
    · exact sound.awaited conn entry there (.inl batched)
    · exact (handled conn handling here).2 opens entry there
  ended := sound.ended
  once := sound.once
  handled conn handling here := (handled conn handling here).1
  quiet := sound.quiet

/-- The queue and the worker threads do not matter, nor whether the process has exited. -/
theorem Sound.queue (sound : state.Sound) (tasks : List (ConnId × Block))
    (senders : Worker → Option (ConnId × Block)) (exited : Bool) :
    Sound { state with tasks := tasks, senders := senders, exited := exited } :=
  ⟨sound.fresh, sound.apart, sound.kept, sound.awaited, sound.ended, sound.once, sound.handled,
    sound.quiet⟩

/-- On a live connection no `on_close` or `on_error` has started. -/
theorem Sound.unended (sound : state.Sound) (alive : state.conns conn = some entry)
    (live : (state.view entry).Live) {event : ConnEvent} (logged : (conn, event) ∈ state.log) :
    ¬ event.Terminal :=
  fun terminal => (sound.ended conn entry event alive logged terminal).not_live live

/-! ### Handlers -/

/-- A call that is settled has returned, or the process has exited. -/
theorem settle_cases {cbs : Nat} {result : Except Stop Connect}
    (took : state.settle conn cbs result = some next) :
    (∃ after, result = .ok after ∧ next = state.put conn cbs after) ∨
      result = .error .exit ∧ next = { state with exited := true } := by
  unfold settle at took
  split at took
  · rename_i after
    exact .inl ⟨after, rfl, (Option.some.inj took).symm⟩
  · exact .inr ⟨rfl, (Option.some.inj took).symm⟩
  · cases took

/-- **A step of a handler**, once the channel is no longer in the batch. -/
theorem Sound.react (sound : state.Sound) (alive : state.conns conn = some entry)
    (unbatched : .conn conn ∉ state.batch.map Prod.fst) {after : Connect}
    (others : (state.view entry).KeepsOthers after) (kept : after.Live ∨ after.Removed)
    {happened : Option ConnEvent} {handling : Option Handling}
    (ended : ∀ event, (conn, event) ∈ state.log → event.Terminal → after.Removed)
    (silent : ∀ event ∈ happened, ∀ earlier, (conn, earlier) ∈ state.log → earlier.Terminal →
      ∃ cb, event = .called cb ∧ cb.Last)
    (removed : ∀ event ∈ happened, event.Terminal → after.Removed)
    (opens : ∀ behind ∈ handling, ¬ behind.Closing → after.Live) (cbs : Nat) :
    Sound { EventLoop.put { state with log := state.log ++ happened.toList.map (Prod.mk conn) } conn
      cbs after with pc := .behind conn handling } := by
  have calm : Sound { state with pc := .idle } := sound.goto nofun
  have changed : Sound (EventLoop.put { state with pc := .idle } conn cbs after) := by
    refine calm.put alive others kept (fun waits => ?_) ended cbs
    rcases waits with batched | ⟨_, here, _⟩
    · exact absurd batched unbatched
    · cases here
  have self : ∀ found,
      (EventLoop.put { state with pc := .idle } conn cbs after).conns conn = some found →
        found = { conn := after, cbs := cbs } := by
    intro found there
    change Function.update state.conns conn _ conn = some found at there
    rw [Function.update_self] at there
    exact (Option.some.inj there).symm
  have recorded : Sound { EventLoop.put { state with pc := .idle } conn cbs after with
      log := state.log ++ happened.toList.map (Prod.mk conn) } := by
    cases happened with
    | none =>
        rw [Option.toList_none, List.map_nil, List.append_nil]
        exact changed
    | some event =>
        refine changed.record (sound.known alive) (silent event rfl) fun terminal found there => ?_
        rw [self found there]
        exact removed event rfl terminal
  refine recorded.goto fun other behind here => ?_
  cases handling with
  | none => cases here
  | some handling =>
      cases here
      refine ⟨unbatched, fun goesOn found there => ?_⟩
      rw [self found there]
      exact opens behind rfl goesOn

/-- **On a live connection** a handler leaves it live, or closes it. -/
theorem sound_react_live (sound : state.Sound) (alive : state.conns conn = some entry)
    (unbatched : .conn conn ∉ state.batch.map Prod.fst) (live : (state.view entry).Live)
    {reaction : Reaction} (regular : (state.view entry).Regular reaction) {cbs : Nat}
    (took : state.react conn cbs reaction = some next) : next.Sound := by
  have unended : ∀ event, (conn, event) ∈ state.log → ¬ event.Terminal :=
    fun event logged => sound.unended alive live logged
  unfold EventLoop.react at took
  simp only at took
  split at took
  · rename_i after handling returned
    rw [← Option.some.inj took]
    have others := regular.others after handling returned
    rcases regular.outcome after handling returned with
      ⟨still, goesOn, opens⟩ | ⟨removed, behind, rfl, closes⟩
    · exact sound.react alive unbatched others (.inl still)
        (fun earlier logged terminal => absurd terminal (unended earlier logged))
        (fun _ _ earlier logged terminal => absurd terminal (unended earlier logged))
        (fun happened now terminal => absurd terminal (goesOn happened now))
        (fun _ _ _ => still) cbs
    · refine sound.react alive unbatched others (.inr removed)
        (fun earlier logged terminal => absurd terminal (unended earlier logged))
        (fun _ _ earlier logged terminal => absurd terminal (unended earlier logged))
        (fun _ _ _ => removed) (fun other here goesOn => ?_) cbs
      cases here
      exact absurd closes goesOn
  · rename_i exits
    exact absurd exits regular.stays
  · cases took

/-- **Behind the close** a handler leaves the connection as it is. -/
theorem sound_react_closing (sound : state.Sound) (alive : state.conns conn = some entry)
    (unbatched : .conn conn ∉ state.batch.map Prod.fst) {reaction : Reaction}
    {behind : Option Handling} (same : reaction.result = .ok (state.view entry, behind))
    (closing : ∀ after ∈ behind, after.Closing)
    (last : ∀ event ∈ reaction.event, ∃ cb, event = .called cb ∧ cb.Last) {cbs : Nat}
    (took : state.react conn cbs reaction = some next) : next.Sound := by
  obtain ⟨event, result⟩ := reaction
  change result = _ at same
  subst same
  unfold EventLoop.react at took
  rw [← Option.some.inj took]
  refine sound.react alive unbatched (Connect.keepsOthers_of_eq rfl) (sound.kept conn entry alive)
    (fun earlier logged terminal => sound.ended conn entry earlier alive logged terminal)
    (fun happened now _ _ _ => last happened now) (fun happened now terminal => ?_)
    (fun after here goesOn => absurd (closing after here) goesOn) cbs
  obtain ⟨cb, rfl, _⟩ := last happened now
  exact terminal.elim

/-! ### Sends -/

/-- **A send keeps the invariant**, unless the process exits. -/
theorem sound_settle (sound : state.Sound) (alive : state.conns conn = some entry)
    {result : Except Stop Connect}
    (harmless : ∀ after, result = .ok after → Connect.Harmless (state.view entry) after) {cbs : Nat}
    (took : state.settle conn cbs result = some next) : next.Sound := by
  rcases settle_cases took with ⟨after, returned, rfl⟩ | ⟨_, rfl⟩
  · have call := harmless after returned
    refine sound.put alive call.others ((sound.kept conn entry alive).imp call.live call.removed)
      (fun waits => call.live (sound.awaited conn entry alive waits))
      (fun event logged terminal => ?_) cbs
    exact call.removed (sound.ended conn entry event alive logged terminal)
  · exact sound.queue _ _ _

/-! ### Connections come and go -/

/-- **A connection is created** live, on a descriptor that no other one has. -/
theorem sound_create (sound : state.Sound) {fd : Nat} (unused : state.Unused fd) {now : Int}
    {after : Connect} (made : Connect.make fd state.interest now = .ok after) :
    Sound (put { state with nextId := state.nextId + 1 } state.nextId 0 after) := by
  have live := Connect.made_live made
  have same := Connect.made_eq made
  have otherFd : ∀ other found, state.conns other = some found →
      found.conn.cchnl.chnl.fd ≠ fd := by
    intro other found there taken
    refine unused other (sound.known there) ?_
    rw [fdOf, there, ← taken]
    rfl
  refine sound.change { conn := after }
    (change_update (fun other found _ there => ?_) (.inl rfl)) (fun other new => ?_)
    (fun _ other found _ there => ?_) (fun _ => .inl live) (fun _ _ => live)
    (fun _ event logged _ => absurd logged ((sound.fresh _ le_rfl).2 event))
  · rw [same]
    exact Function.update_of_ne (otherFd other found there) _ _
  · have old : state.nextId ≤ other := Nat.le_of_succ_le new
    refine ⟨?_, old⟩
    rw [Function.update_of_ne (Nat.ne_of_gt new)]
    exact (sound.fresh other old).1
  · rw [same]
    exact otherFd other found there

/-- A connection that could not be created. -/
theorem sound_skip (sound : state.Sound) :
    Sound { state with nextId := state.nextId + 1, exited := true } :=
  ⟨fun conn new => sound.fresh conn (Nat.le_of_succ_le new), sound.apart, sound.kept, sound.awaited,
    sound.ended, sound.once, sound.handled, sound.quiet⟩

/-- **A connection is destroyed.** -/
theorem sound_destroy (sound : state.Sound) (alive : state.conns conn = some entry) :
    Sound { state with
      interest := Function.update state.interest entry.conn.cchnl.chnl.fd none
      conns := Function.update state.conns conn none } := by
  have gone : Function.update state.conns conn none conn ≠ some entry := by
    rw [Function.update_self]
    nofun
  refine sound.change entry (change_update (fun other found different there => ?_) (.inr rfl))
    (fun other new => ⟨?_, new⟩) (fun here => absurd here gone) (fun here => absurd here gone)
    (fun here => absurd here gone) (fun here => absurd here gone)
  · exact Function.update_of_ne (sound.apart conn other entry found alive there different) _ _
  · by_cases same : other = conn
    · rw [same, Function.update_self]
    · rw [Function.update_of_ne same]
      exact (sound.fresh other new).1

/-! ### Batches -/

/-- **A batch arrives**: its connections are registered, so they are live. -/
theorem sound_poll (sound : state.Sound) (idle : state.pc = .idle) {evs : List (Source × Mask)}
    (reported : state.Reported evs) : Sound { state with batch := Poller.loop evs } where
  fresh := sound.fresh
  apart := sound.apart
  kept := sound.kept
  awaited conn entry there waits := by
    rcases waits with batched | ⟨_, here, _⟩
    · change Source.conn conn ∈ (Poller.loop evs).map Prod.fst at batched
      rw [Poller.loop_fst] at batched
      obtain ⟨⟨source, mask⟩, member, rfl⟩ := List.mem_map.mp batched
      have watched : ((state.conns conn).bind fun entry =>
          (state.view entry).cchnl.registered) ≠ none := reported.2 _ member
      rw [there, Option.bind_some] at watched
      rcases sound.kept conn entry there with live | removed
      · exact live
      · exact absurd removed.absent watched
    · rw [idle] at here
      cases here
  ended := sound.ended
  once := by
    show ((Poller.loop evs).map Prod.fst).Nodup
    rw [Poller.loop_fst]
    exact reported.1
  handled conn handling here := by
    rw [idle] at here
    cases here
  quiet := sound.quiet

/-- The next channel of the batch is taken. -/
theorem sound_tail (sound : state.Sound) {source : Source} {revs : Mask}
    {batch : List (Source × Mask)} (some_left : state.batch = (source, revs) :: batch) :
    Sound { state with batch := batch } ∧ source ∉ batch.map Prod.fst ∧
      ∀ conn entry, source = .conn conn → state.conns conn = some entry →
        (state.view entry).Live := by
  have once := sound.once
  rw [some_left, List.map_cons, List.nodup_cons] at once
  have more : ∀ other, other ∈ batch.map Prod.fst → other ∈ state.batch.map Prod.fst := by
    intro other member
    rw [some_left]
    exact List.mem_cons_of_mem _ member
  refine ⟨⟨sound.fresh, sound.apart, sound.kept, fun conn entry there waits => ?_, sound.ended,
    once.2, fun conn handling here member => sound.handled conn handling here (more _ member),
    sound.quiet⟩, once.1, fun conn entry same there => ?_⟩
  · exact sound.awaited conn entry there (waits.imp (more _) id)
  · refine sound.awaited conn entry there (.inl ?_)
    rw [some_left, ← same]
    exact List.mem_cons_self

theorem sound_dispatch (sound : state.Sound) {source : Source} {revs : Mask} {sent : Int}
    (unbatched : source ∉ state.batch.map Prod.fst)
    (live : ∀ conn entry, source = .conn conn → state.conns conn = some entry →
      (state.view entry).Live)
    (took : state.dispatch source revs sent = some next) : next.Sound := by
  cases source with
  | conn conn =>
      simp only [dispatch] at took
      split at took
      · rename_i entry alive
        have regular := Connect.enter_live (live conn entry rfl alive) (handleEvent revs) sent
        exact sound_react_live sound alive unbatched (live conn entry rfl alive) regular took
      · cases took
  | weak =>
      simp only [dispatch] at took
      split at took
      · rw [← Option.some.inj took]
        exact sound.goto nofun
      · rw [← Option.some.inj took]
        exact sound
  | timer =>
      rw [← Option.some.inj took]
      exact sound

/-! ### Runs -/

/-- A loop without connections. -/
theorem sound_start (interest : InterestList) : (start interest : EventLoop Worker).Sound where
  fresh _ _ := ⟨rfl, fun _ logged => by cases logged⟩
  apart _ _ _ _ there _ _ := by cases there
  kept _ _ there := by cases there
  awaited _ _ there _ := by cases there
  ended _ _ _ there _ _ := by cases there
  once := List.nodup_nil
  handled _ _ here := by cases here
  quiet := List.Pairwise.nil

/-- What stands behind the start of a close. -/
theorem terminalOnce_of_quiet {log : List (ConnId × ConnEvent)} (quiet : log.Pairwise Behind) :
    TerminalOnce log := by
  intro before after conn event same terminal later logged
  rw [same] at quiet
  have behind := (List.pairwise_cons.mp (List.pairwise_append.mp quiet).2.1).1 _ logged
  obtain ⟨cb, called, last⟩ := behind terminal rfl
  change later = .called cb at called
  subst called
  cases cb with
  | close => exact .inl rfl
  | error => exact .inr rfl
  | msg message => exact last.elim
  | send => exact last.elim

section Steps

variable [DecidableEq Worker]

/-- **Every step keeps the invariant.** -/
theorem sound_step (sound : state.Sound) {label : Label Worker}
    (took : state.step label = some next) : next.Sound := by
  unfold step at took
  split at took
  · cases took
  · cases label with
    | create fd now =>
        simp only [act] at took
        split at took
        · rename_i unused
          rcases settle_cases took with ⟨after, made, rfl⟩ | ⟨_, rfl⟩
          · exact sound_create sound unused made
          · exact sound_skip sound
        · cases took
    | setCb conn =>
        simp only [act, Option.map_eq_some_iff] at took
        obtain ⟨entry, alive, rfl⟩ := took
        exact sound.put alive (Connect.keepsOthers_of_eq rfl) (sound.kept conn entry alive)
          (sound.awaited conn entry alive)
          (fun event logged terminal => sound.ended conn entry event alive logged terminal) _
    | destroy conn =>
        simp only [act, Option.map_eq_some_iff] at took
        obtain ⟨entry, alive, rfl⟩ := took
        exact sound_destroy sound alive
    | poll evs =>
        simp only [act] at took
        split at took
        · rename_i idle _
          split at took
          · rename_i reported
            rw [← Option.some.inj took]
            exact sound_poll sound idle reported
          · cases took
        · cases took
    | dispatch sent =>
        simp only [act] at took
        split at took
        · rename_i source revs batch idle some_left
          obtain ⟨rest, unbatched, live⟩ := sound_tail sound some_left
          exact sound_dispatch rest unbatched live took
        · cases took
    | handle input =>
        simp only [act] at took
        split at took
        · rename_i conn handling here
          obtain ⟨entry, alive, handled⟩ := Option.bind_eq_some_iff.mp took
          obtain ⟨reaction, resumed, reacted⟩ := Option.bind_eq_some_iff.mp handled
          have unbatched := sound.handled conn handling here
          by_cases closing : handling.Closing
          · obtain ⟨behind, same, closed, last⟩ := Connect.resume_closing closing resumed
            exact sound_react_closing sound alive unbatched same closed last reacted
          · have live := sound.awaited conn entry alive (.inr ⟨handling, here, closing⟩)
            have regular := Connect.resume_live live closing resumed
            exact sound_react_live sound alive unbatched live regular reacted
        · cases took
    | send conn data =>
        simp only [act] at took
        split at took
        · cases took
        · obtain ⟨entry, alive, sends⟩ := Option.bind_eq_some_iff.mp took
          exact sound_settle sound alive
            (fun after => Connect.harmless_send (sound.kept conn entry alive)) sends
    | runTask =>
        simp only [act] at took
        split at took
        · rename_i conn data tasks _ _
          obtain ⟨entry, alive, sends⟩ := Option.bind_eq_some_iff.mp took
          exact sound_settle (sound.queue tasks _ _) alive
            (fun after => Connect.harmless_sendInLoop (sound.kept conn entry alive)) sends
        · cases took
    | drained =>
        simp only [act] at took
        split at took
        · rw [← Option.some.inj took]
          exact sound.goto nofun
        · cases took
    | test worker conn data =>
        simp only [act] at took
        split at took
        · split at took
          · rw [← Option.some.inj took]
            exact sound
          · rw [← Option.some.inj took]
            exact sound.queue _ _ _
        · cases took
    | add worker =>
        simp only [act] at took
        split at took
        · cases took
        · rw [← Option.some.inj took]
          exact sound.queue _ _ _
        · cases took

/-- **Terminal callbacks run once.** In every state of every run of a sub-loop, behind the start of
`on_close` or `on_error` of a connection the log has nothing of that connection but the call of its
close or error callback. -/
theorem terminal_once (interest : InterestList) (labels : List (Label Worker)) :
    Always step (fun state => TerminalOnce state.log) (start interest) labels := by
  have always : Always step Sound (start interest) labels :=
    always_of_step (fun _ _ _ sound took => sound_step sound took) (sound_start interest) labels
  exact always.mono fun _ sound => terminalOnce_of_quiet sound.quiet

/-- The peer shuts down while a worker is in `connect::send`: the task exits the process. -/
example :
    (exec step (start (fun _ => none) : EventLoop Unit)
      [.create 7 0, .setCb 0, .test () 0 ⟨List.replicate 28 104, by decide⟩,
        .poll [(.conn 0, epollIn)], .dispatch 0, .handle (.readEnd .eof), .handle .test,
        .handle .ret, .add (), .poll [(.weak, epollIn)], .dispatch 0, .runTask]).map
      (fun state => (state.log, state.exited)) =
      some ([(0, .onMsg), (0, .onClose), (0, .called .close)], true) := by
  decide +kernel

end Steps

end EventLoop

end IkunSvr
