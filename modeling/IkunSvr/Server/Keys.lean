/-
**The tables of connections are keyed by descriptors that no two connections share.**

`wideStep` is the server with a timer handler that may go on at any entry, whichever entries its
iterator visits. Over its runs:

* `keyed_wideStep` — the tables stay keyed right;
* `ownEntries_step` — an entry leaves a table only with the connection that is closed or evicted, and
  none is overwritten by another connection's;
* `entries_leave_own` — **both, in every run.**
-/

import IkunSvr.Server.Ownership

namespace IkunSvr

namespace Server

open Run

variable {thds works : Nat} [NeZero thds]

/-- A step of the server, or of the iterator of a timer handler. -/
inductive WideLabel (thds works : Nat)
  | code (label : Label thds works)
  | goOn (loop : Fin thds) (it : Option Nat)

/-- The server, with a timer handler that visits any entries in any order. -/
def wideStep (state : Server thds works) : WideLabel thds works → Option (Server thds works)
  | .code label => state.step label
  | .goOn loop it =>
      match (state.loops loop).handler with
      | .sweeping now _ =>
          some (state.setLoop loop { state.loops loop with handler := .sweeping now it })
      | .undefined =>
          some (state.setLoop loop { state.loops loop with handler := .sweeping state.now it })
      | _ => none

/-! ### Connections and their keys -/

/-- Connections that are alive have different descriptors, and the tables have connections that are
alive under their descriptors, sub-loop `i` those with `fd % thd_count = i`. -/
structure Tabled (state : Server thds works) : Prop where
  apart : ∀ conn ∈ state.live, ∀ other ∈ state.live,
    (state.info conn).fd = (state.info other).fd → conn = other
  tcp : ∀ entry ∈ state.tcpConns, entry.2 ∈ state.live ∧ entry.1 = (state.info entry.2).fd
  conns : ∀ loop, ∀ entry ∈ (state.loops loop).conns,
    entry.2 ∈ state.live ∧ entry.1 = (state.info entry.2).fd ∧
      (state.info entry.2).fd % thds = loop

/-- The step evicts the connection from the sub-loop. -/
def Evicting (state : Server thds works) (label : WideLabel thds works) (loop : Fin thds)
    (conn : ConnId) : Prop :=
  label = .code (.sweep loop) ∧ ∃ now key, state.Evicts loop now key conn

/-- The step closes the connection, which is its sub-loop's to handle. -/
def Closing (state : Server thds works) (label : WideLabel thds works) (conn : ConnId) : Prop :=
  ∃ loop, (label = .code (.close loop) ∨ label = .code (.error loop)) ∧
    (state.loops loop).handler = .conn conn

/-- An entry leaves `tcpsvr::_conns` only when its connection is closed or evicted, and the `_conns`
of a sub-loop only when that sub-loop evicts its connection. -/
def OwnEntries (state : Server thds works) (label : WideLabel thds works) : Prop :=
  ∀ next, state.wideStep label = some next →
    (∀ entry ∈ state.tcpConns, entry ∉ next.tcpConns →
      state.Closing label entry.2 ∨ ∃ loop, state.Evicting label loop entry.2) ∧
    ∀ loop, ∀ entry ∈ (state.loops loop).conns, entry ∉ (next.loops loop).conns →
      state.Evicting label loop entry.2

section Steps

variable {state next : Server thds works}

/-! ### The keys -/

theorem keyed_wideStep (keyed : Keyed state) {label : WideLabel thds works}
    (took : state.wideStep label = some next) : Keyed next := by
  cases label with
  | code label => exact keyed_step keyed took
  | goOn loop it =>
      simp only [wideStep] at took
      split at took
      · cases took
        exact keyed.frame (frame_setLoop keyed.alive rfl)
      · cases took
        exact keyed.frame (frame_setLoop keyed.alive rfl)
      · cases took

theorem Keyed.tabled (keyed : Keyed state) : Tabled state where
  apart := keyed.apart
  tcp entry member := ⟨keyed.alive _ (.inl ⟨entry, member, rfl⟩), keyed.tcpKeys entry member⟩
  conns loop entry member := by
    obtain ⟨key, here⟩ := keyed.keys loop entry member
    refine ⟨keyed.alive _ (.inr (.inl ⟨loop, entry, member, rfl⟩)), key, ?_⟩
    rw [← here]
    rfl

/-- Entries with one key, of connections that are alive, are one entry. -/
theorem Keyed.same_entry (keyed : Keyed state) {conn : ConnId} (own : conn ∈ state.live)
    {entry : Nat × ConnId} (alive : entry.2 ∈ state.live)
    (keyedRight : entry.1 = (state.info entry.2).fd) (key : entry.1 = (state.info conn).fd) :
    entry = ((state.info conn).fd, conn) := by
  have same : entry.2 = conn := keyed.apart entry.2 alive conn own (keyedRight.symm.trans key)
  exact Prod.ext key same

/-! ### What leaves the tables -/

/-- The main thread takes no entry out of a table. -/
theorem mainStep_entries (keyed : Keyed state) {label : Label thds works}
    (took : state.mainStep label = some next) :
    (∀ entry ∈ state.tcpConns, entry ∈ next.tcpConns) ∧
      ∀ loop, ∀ entry ∈ (state.loops loop).conns, entry ∈ (next.loops loop).conns := by
  rcases mainStep_cases took with ⟨fd, _, _, rfl⟩ | ⟨conn, cbs, _, _, rfl⟩ | ⟨conn, setting, rfl⟩ |
    ⟨conn, enlisted, rfl⟩ | ⟨conn, _, rfl⟩
  · exact ⟨fun _ => id, fun _ _ => id⟩
  · exact ⟨fun _ => id, fun _ _ => id⟩
  · refine ⟨fun _ => id, fun loop entry member => mem_newConn_conns.mpr ?_⟩
    have own : conn ∈ state.live := by
      refine keyed.alive conn (.inr (.inr (.inl ?_)))
      rw [setting]
      rfl
    obtain ⟨alive, key, home⟩ := keyed.tabled.conns loop entry member
    by_cases same : entry.1 = (state.info conn).fd
    · by_cases here : loop = state.home conn
      · exact .inl ⟨here, keyed.same_entry own alive key same⟩
      · exact .inr ⟨member, .inr here⟩
    · exact .inr ⟨member, .inl same⟩
  · refine ⟨fun entry member => Table.mem_set.mpr ?_, fun _ _ => id⟩
    have own : conn ∈ state.live := by
      refine keyed.alive conn (.inr (.inr (.inl ?_)))
      rw [enlisted]
      rfl
    obtain ⟨alive, key⟩ := keyed.tabled.tcp entry member
    by_cases same : entry.1 = (state.info conn).fd
    · exact .inl (keyed.same_entry own alive key same)
    · exact .inr ⟨member, same⟩
  · exact ⟨fun _ => id, fun _ _ => id⟩

/-- A worker takes no entry out of a table. -/
theorem workerStep_entries {worker : Fin works} {label : Label thds works}
    (took : state.workerStep worker label = some next) :
    next.tcpConns = state.tcpConns ∧
      ∀ loop, (next.loops loop).conns = (state.loops loop).conns := by
  rcases workerStep_cases took with ⟨conn, pool, _, _, rfl⟩ | ⟨pc, rfl, _, _⟩ |
    ⟨conn, _, _, rfl⟩ | ⟨conn, _, rfl⟩
  · exact ⟨rfl, fun _ => rfl⟩
  · exact ⟨rfl, fun _ => rfl⟩
  · exact ⟨rfl, loops_setLoop_conns rfl⟩
  · exact ⟨rfl, fun _ => rfl⟩

/-- A sub-loop takes out of the tables the entry of a connection it closes or evicts, and no other. -/
theorem loopStep_entries (keyed : Keyed state) {loop : Fin thds} {label : Label thds works}
    (took : state.loopStep loop label = some next) :
    (∀ entry ∈ state.tcpConns, entry ∉ next.tcpConns →
      (∃ other, (label = .close other ∨ label = .error other) ∧
        (state.loops loop).handler = .conn entry.2) ∨
      ∃ other now key, label = .sweep other ∧ state.Evicts loop now key entry.2) ∧
    ∀ elsewhere, ∀ entry ∈ (state.loops elsewhere).conns,
      entry ∉ (next.loops elsewhere).conns →
        elsewhere = loop ∧ ∃ other now key, label = .sweep other ∧
          state.Evicts loop now key entry.2 := by
  rcases loopStep_cases took with ⟨sub, rfl, conns, _⟩ | ⟨conn, _, _, rfl⟩ |
    ⟨other, conn, cbs, ends, handling, usable, rfl⟩ | ⟨other, now, key, conn, sweeps, evicts, rfl⟩
  · refine ⟨fun entry member gone => absurd member gone, fun elsewhere entry member gone => ?_⟩
    rw [loops_setLoop_conns conns] at gone
    exact absurd member gone
  · exact ⟨fun entry member gone => absurd member gone,
      fun elsewhere entry member gone => absurd member gone⟩
  · refine ⟨fun entry member gone => .inl ⟨other, ends, ?_⟩,
      fun elsewhere entry member gone => absurd member gone⟩
    obtain ⟨alive, key⟩ := keyed.tabled.tcp entry member
    by_cases same : entry.1 = (state.info conn).fd
    · rw [keyed.same_entry usable.1 alive key same]
      exact handling
    · refine absurd ?_ gone
      show entry ∈ (if state.CbSet conn cbs then state.tcpConns.erase (state.info conn).fd
        else state.tcpConns)
      split
      · exact Table.mem_erase.mpr ⟨member, same⟩
      · exact member
  · have found := Table.mem_of_get evicts.2.1
    obtain ⟨own, at_key, _⟩ := keyed.tabled.conns loop _ found
    simp only at own at_key
    constructor
    · intro entry member gone
      obtain ⟨alive, key_right⟩ := keyed.tabled.tcp entry member
      by_cases same : entry.1 = key
      · rw [at_key] at same
        rw [keyed.same_entry own alive key_right same]
        exact .inr ⟨other, now, key, sweeps, evicts⟩
      · exact absurd (Table.mem_erase.mpr ⟨member, same⟩) gone
    · intro elsewhere entry member gone
      rw [mem_evict_conns] at gone
      by_cases here : elsewhere = loop ∧ entry.1 = key
      · obtain ⟨alive, key_right, _⟩ := keyed.tabled.conns elsewhere entry member
        rw [at_key] at here
        rw [keyed.same_entry own alive key_right here.2]
        exact ⟨here.1, other, now, key, sweeps, evicts⟩
      · exact absurd ⟨member, fun there same => here ⟨there, same⟩⟩ gone

omit [NeZero thds] in
/-- A step that keeps the tables. -/
theorem entries_kept {label : WideLabel thds works}
    (kept : next.tcpConns = state.tcpConns ∧
      ∀ loop, (next.loops loop).conns = (state.loops loop).conns) :
    (∀ entry ∈ state.tcpConns, entry ∉ next.tcpConns →
      state.Closing label entry.2 ∨ ∃ loop, state.Evicting label loop entry.2) ∧
    ∀ loop, ∀ entry ∈ (state.loops loop).conns, entry ∉ (next.loops loop).conns →
      state.Evicting label loop entry.2 := by
  rw [kept.1]
  refine ⟨fun entry member gone => absurd member gone, fun loop entry member gone => ?_⟩
  rw [kept.2] at gone
  exact absurd member gone

/-- A step of a sub-loop, in terms of the connection it closes or evicts. -/
theorem loopStep_own (keyed : Keyed state) {loop : Fin thds} {label : Label thds works}
    (took : state.loopStep loop label = some next)
    (here : ∀ other, label = .close other ∨ label = .error other ∨ label = .sweep other →
      other = loop) :
    (∀ entry ∈ state.tcpConns, entry ∉ next.tcpConns →
      state.Closing (.code label) entry.2 ∨ ∃ loop, state.Evicting (.code label) loop entry.2) ∧
    ∀ elsewhere, ∀ entry ∈ (state.loops elsewhere).conns, entry ∉ (next.loops elsewhere).conns →
      state.Evicting (.code label) elsewhere entry.2 := by
  obtain ⟨tcp, conns⟩ := loopStep_entries keyed took
  constructor
  · intro entry member gone
    rcases tcp entry member gone with ⟨other, ends, handling⟩ | ⟨other, now, key, rfl, evicts⟩
    · obtain rfl := here other (ends.imp_right .inl)
      exact .inl ⟨other, ends.imp (congrArg WideLabel.code) (congrArg WideLabel.code), handling⟩
    · obtain rfl := here other (.inr (.inr rfl))
      exact .inr ⟨other, rfl, now, key, evicts⟩
  · intro elsewhere entry member gone
    obtain ⟨rfl, other, now, key, rfl, evicts⟩ := conns elsewhere entry member gone
    obtain rfl := here other (.inr (.inr rfl))
    exact ⟨rfl, now, key, evicts⟩

/-- **An entry leaves a table only with its own connection.** -/
theorem ownEntries_step (keyed : Keyed state) (label : WideLabel thds works) :
    state.OwnEntries label := by
  intro next took
  cases label with
  | goOn loop it =>
      simp only [wideStep] at took
      have frame : next.tcpConns = state.tcpConns ∧
          ∀ elsewhere, (next.loops elsewhere).conns = (state.loops elsewhere).conns := by
        split at took
        · cases took
          exact ⟨rfl, loops_setLoop_conns rfl⟩
        · cases took
          exact ⟨rfl, loops_setLoop_conns rfl⟩
        · cases took
      exact entries_kept frame
  | code label =>
      change state.step label = some next at took
      unfold step at took
      cases label with
      | tick seconds =>
          cases took
          exact entries_kept ⟨rfl, fun _ => rfl⟩
      | accept fd | setCb | enlist | publish | ret =>
          obtain ⟨tcp, conns⟩ := mainStep_entries keyed took
          exact ⟨fun entry member gone => absurd (tcp entry member) gone,
            fun loop entry member gone => absurd (conns loop entry member) gone⟩
      | take worker | test worker | push worker | weakup worker | finish worker =>
          exact entries_kept (workerStep_entries took)
      | poll loop batch | dispatch loop | deliver loop | close loop | error loop | done loop
      | runTask loop | taskDone loop | drained loop | sweep loop =>
          refine loopStep_own keyed took fun other same => ?_
          rcases same with same | same | same
          · cases same <;> rfl
          · cases same <;> rfl
          · cases same <;> rfl

/-- **Erasing by descriptor never hits another connection.** In every run of the server, whichever
entries its timer handlers visit, connections that are alive have different descriptors, the tables
have them under their own, and an entry leaves a table only with the connection that is closed or
evicted in that step. -/
theorem entries_leave_own (labels : List (WideLabel thds works)) :
    Always wideStep Tabled start labels ∧ Along wideStep OwnEntries start labels := by
  have keyed : Always wideStep Keyed start labels :=
    always_of_step (fun _ _ _ keyed took => keyed_wideStep keyed took) keyed_start labels
  exact ⟨keyed.mono fun _ keyed => keyed.tabled,
    along_of_invariant (fun _ _ _ keyed took => keyed_wideStep keyed took)
      (fun _ label keyed => ownEntries_step keyed label) keyed_start labels⟩

/-- A connection is set up, times out and is evicted, and its descriptor accepted again. -/
theorem entries_leave_own_reuse :
    let labels : List (WideLabel 1 1) := [.code (.accept 7), .code .setCb, .code .setCb,
      .code .setCb, .code .setCb, .code .enlist, .code .publish, .code .ret, .code (.tick 11),
      .code (.poll 0 [.timer]), .code (.dispatch 0), .code (.sweep 0), .goOn 0 none,
      .code (.sweep 0), .code (.accept 7)]
    (exec wideStep start labels).isSome = true ∧
      Always wideStep Tabled start labels ∧ Along wideStep OwnEntries start labels :=
  ⟨by decide, entries_leave_own _⟩

end Steps

end Server

end IkunSvr
