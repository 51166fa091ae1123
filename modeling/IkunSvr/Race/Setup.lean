/-
**A connection is set up while its events are handled.**

`Setup` is one connection from its construction on, which registers it with the epoll instance of its
sub-loop: the main thread is in `_on_new_conn`, setting the callbacks and then entering the
connection in the tables, and the sub-loop's thread handles the connection's events, step by step.

* `OnTime` — a message is picked, or the connection closed, once the callback is set, and the
  callback of the close returns once the connection is in `tcpsvr::_conns`;
* `ledger_resume` — what is picked is passed on, in flight, or dropped by the test of `_msg_cb`;
* `good_step`, `bad_step` — a run on time keeps the connection set up, and after any other step it
  is not set up again;
* `set_up_iff` — **both together**;
* `events_before_setup` — a client that sends, and one that leaves, at once.
-/

import IkunSvr.Lib.Run
import IkunSvr.Net.Handling
import IkunSvr.Output.Arming

namespace IkunSvr

open Run

/-! ### The two threads -/

/-- Where the main thread is in `_on_new_conn`, behind the construction. -/
inductive SetupPc
  /-- the first `cbs` callbacks have been set -/
  | setting (cbs : Nat)
  /-- behind `new_conn` of the sub-loop -/
  | enlisted
  /-- behind the insertion into `tcpsvr::_conns` -/
  | published
  | returned
  deriving DecidableEq, Repr

/-- How many callbacks are set. -/
def SetupPc.cbs : SetupPc → Nat
  | .setting cbs => cbs
  | _ => 4

/-- The main thread's next step. -/
def SetupPc.next : SetupPc → Option SetupPc
  | .setting cbs => some (if cbs < 4 then .setting (cbs + 1) else .enlisted)
  | .enlisted => some .published
  | .published => some .returned
  | .returned => none

/-- The main thread is behind the insertion into `tcpsvr::_conns`. -/
def SetupPc.Published : SetupPc → Prop
  | .published => True
  | .returned => True
  | _ => False

structure Setup where
  conn : Connect
  main : SetupPc := .setting 0
  handling : Option Handling := none
  /-- the connection is in `tcpsvr::_conns` -/
  inTcp : Bool := false
  log : List ConnEvent := []

inductive SetupLabel
  | main
  /-- `handle_event` with the given `_revs`; `sent` is the result of `::send` -/
  | event (revs : Mask) (sent : Int)
  | handle (input : HandlerInput)
  /-- `connect::send` in a callback -/
  | send (data : Block)

namespace Setup

/-- A step of a handler that returns. -/
def react (state : Setup) (reaction : Reaction) : Option Setup :=
  match reaction.result with
  | .ok (conn, handling) => some { state with
      conn := conn
      handling := handling
      log := state.log ++ reaction.event.toList }
  | .error _ => none

/-- `_on_conn_close` and `_on_conn_error` end with the erasure from `tcpsvr::_conns`. -/
def erase (state : Setup) (handling : Handling) : Setup :=
  { state with inTcp := match handling with
    | .calling .close => false
    | .calling .error => false
    | _ => state.inTcp }

/-- A step; epoll reports events of a registered descriptor only. -/
def step (state : Setup) : SetupLabel → Option Setup
  | .main => state.main.next.map fun main => { state with
      main := main
      inTcp := if main = .published then true else state.inTcp }
  | .event revs sent =>
      match state.handling with
      | none =>
          if state.conn.cchnl.registered = none then none
          else state.react (state.conn.enter (handleEvent revs) sent)
      | some _ => none
  | .handle input =>
      match state.handling with
      | some handling => (state.conn.resume state.main.cbs handling input).bind
          (state.erase handling).react
      | none => none
  | .send data =>
      match state.handling with
      | some (.calling _) =>
          match state.conn.send true data [] with
          | .ok (conn, _) => some { state with conn := conn }
          | .error _ => none
      | _ => none

/-! ### Events of a connection being set up -/

/-- The messages that `on_msg` has picked. -/
def pickedMsgs (log : List ConnEvent) : List Bytes :=
  log.filterMap fun event => match event with
    | .picked msg => some msg
    | _ => none

/-- The messages that `tcpsvr::_on_msg` was called with. -/
def passedMsgs (log : List ConnEvent) : List Bytes :=
  log.filterMap fun event => match event with
    | .called (.msg msg) => some msg
    | _ => none

/-- The message that is picked and not yet passed on. -/
def inFlight : Option Handling → List Bytes
  | some (.testing (.msg msg)) => [msg]
  | _ => []

/-- `_on_new_conn` has returned, and no handler runs. -/
def Finished (state : Setup) : Prop :=
  state.main = .returned ∧ state.handling = none

/-- What is picked is passed to `tcpsvr::_on_msg`, and once both threads have finished, a connection
whose `on_close` or `on_error` has run is not in `tcpsvr::_conns`. -/
def SetUp (state : Setup) : Prop :=
  pickedMsgs state.log = passedMsgs state.log ++ inFlight state.handling ∧
    (state.Finished → state.conn.disconn = true → state.inTcp = false)

/-- A callback but `_send_cb` is tested once it is set, and that of a close returns once the
connection is in `tcpsvr::_conns`. -/
def OnTime (state : Setup) : SetupLabel → Prop
  | .handle .test => ∀ cb, state.handling = some (.testing cb) → cb ≠ .send →
      cb.position ≤ state.main.cbs
  | .handle .ret => ∀ cb, state.handling = some (.calling cb) → cb.Last → state.main.Published
  | _ => True

/-! ### The messages -/

theorem pickedMsgs_append (log more : List ConnEvent) :
    pickedMsgs (log ++ more) = pickedMsgs log ++ pickedMsgs more :=
  List.filterMap_append

theorem passedMsgs_append (log more : List ConnEvent) :
    passedMsgs (log ++ more) = passedMsgs log ++ passedMsgs more :=
  List.filterMap_append

/-- The step passes on, or keeps in flight, what was in flight and what it picks. -/
def Balanced (before : Option Handling) (event : Option ConnEvent) (behind : Option Handling) :
    Prop :=
  inFlight before ++ pickedMsgs event.toList = passedMsgs event.toList ++ inFlight behind

/-- The step drops the message in flight. -/
def Drops (before : Option Handling) (event : Option ConnEvent) (behind : Option Handling) : Prop :=
  event = none ∧ inFlight behind = [] ∧ (inFlight before).length = 1

theorem balanced_enter {conn after : Connect} {callback : Callback} {sent : Int}
    {behind : Option Handling}
    (returned : (conn.enter callback sent).result = .ok (after, behind)) :
    Balanced none (conn.enter callback sent).event behind := by
  cases callback with
  | close =>
      obtain ⟨_, _, same⟩ := map_eq_ok.mp returned
      cases same
      rfl
  | error =>
      obtain ⟨_, _, same⟩ := map_eq_ok.mp returned
      cases same
      rfl
  | read =>
      cases returned
      rfl
  | write =>
      obtain ⟨⟨_, post⟩, _, same⟩ := map_eq_ok.mp returned
      cases post with
      | true =>
          cases same
          rfl
      | false =>
          cases same
          rfl

theorem inFlight_back (cb : ConnCb) : inFlight cb.back = [] := by
  cases cb with
  | close => rfl
  | error => rfl
  | msg message => rfl
  | send => rfl

/-- **The ledger of a step**: only a test of `_msg_cb` that finds it unset drops a message. -/
theorem ledger_resume {cbs : Nat} {conn after : Connect} {handling : Handling}
    {input : HandlerInput} {reaction : Reaction} {behind : Option Handling}
    (took : conn.resume cbs handling input = some reaction)
    (returned : reaction.result = .ok (after, behind)) :
    Balanced (some handling) reaction.event behind ∨
      Drops (some handling) reaction.event behind := by
  unfold Connect.resume at took
  split at took
  · cases took
    obtain ⟨_, _, same⟩ := map_eq_ok.mp returned
    cases same
    exact .inl rfl
  · cases took
    cases returned
    exact .inl rfl
  · cases took
    obtain ⟨_, _, same⟩ := map_eq_ok.mp returned
    cases same
    exact .inl rfl
  · cases took
    unfold Connect.pickOnce at returned ⊢
    split at returned
    · cases returned
    · cases returned
      exact .inl rfl
    · cases returned
      exact .inl rfl
  · rename_i cb
    split at took
    · cases took
      cases returned
      left
      cases cb with
      | close => rfl
      | error => rfl
      | msg message => rfl
      | send => rfl
    · cases took
      cases returned
      cases cb with
      | close => exact .inl rfl
      | error => exact .inl rfl
      | msg message => exact .inr ⟨rfl, rfl, rfl⟩
      | send => exact .inl rfl
  · rename_i cb
    cases took
    cases returned
    left
    show [] = inFlight cb.back
    rw [inFlight_back]
  · cases took

/-! ### Good states and bad ones -/

/-- What steps on time keep. -/
structure Good (state : Setup) : Prop where
  kept : state.conn.Live ∨ state.conn.Removed
  opens : ∀ handling, state.handling = some handling → ¬ handling.Closing → state.conn.Live
  closes : ∀ handling, state.handling = some handling → handling.Closing → state.conn.Removed
  msgs : pickedMsgs state.log = passedMsgs state.log ++ inFlight state.handling
  closed : state.conn.Removed → (∃ handling, state.handling = some handling ∧ handling.Closing) ∨
    state.inTcp = false ∧ state.main.Published

/-- A message is lost, or the connection was closed and is in `tcpsvr::_conns` or will be. -/
def Bad (state : Setup) : Prop :=
  (passedMsgs state.log).length + (inFlight state.handling).length <
      (pickedMsgs state.log).length ∨
    state.conn.Removed ∧ state.handling = none ∧ (state.main.Published → state.inTcp = true)

variable {state next : Setup}

theorem Good.setUp (good : state.Good) : state.SetUp := by
  refine ⟨good.msgs, fun finished disconnected => ?_⟩
  rcases good.kept with live | removed
  · rw [live.connected] at disconnected
    cases disconnected
  · rcases good.closed removed with ⟨handling, here, _⟩ | ⟨out, _⟩
    · rw [finished.2] at here
      cases here
    · exact out

theorem Bad.not_setUp (bad : state.Bad) (finished : state.Finished) : ¬ state.SetUp := by
  rintro ⟨msgs, closed⟩
  rcases bad with lost | ⟨removed, _, left⟩
  · have lengths := congrArg List.length msgs
    rw [List.length_append] at lengths
    omega
  · have published : state.main.Published := by
      rw [finished.1]
      exact trivial
    have out := closed finished removed.disconnected
    rw [left published] at out
    cases out

theorem react_eq {reaction : Reaction} (took : state.react reaction = some next) :
    ∃ conn handling, reaction.result = .ok (conn, handling) ∧ next = { state with
      conn := conn
      handling := handling
      log := state.log ++ reaction.event.toList } := by
  unfold react at took
  split at took
  · rename_i conn handling returned
    exact ⟨conn, handling, returned, (Option.some.inj took).symm⟩
  · cases took

/-- The ledger of the log. -/
theorem msgs_of_balanced {event : Option ConnEvent} {behind : Option Handling}
    (msgs : pickedMsgs state.log = passedMsgs state.log ++ inFlight state.handling)
    (balanced : Balanced state.handling event behind) :
    pickedMsgs (state.log ++ event.toList) =
      passedMsgs (state.log ++ event.toList) ++ inFlight behind := by
  unfold Balanced at balanced
  rw [pickedMsgs_append, passedMsgs_append, msgs, List.append_assoc, List.append_assoc, balanced]

/-! ### Steps on time -/

/-- **A step of a handler of a live connection.** -/
theorem Good.react (good : state.Good) {reaction : Reaction}
    (regular : state.conn.Regular reaction)
    (balanced : ∀ conn handling, reaction.result = .ok (conn, handling) →
      Balanced state.handling reaction.event handling)
    (took : state.react reaction = some next) : next.Good := by
  obtain ⟨conn, handling, returned, rfl⟩ := react_eq took
  have msgs := msgs_of_balanced good.msgs (balanced conn handling returned)
  rcases regular.outcome conn handling returned with ⟨live, _, opens⟩ | ⟨removed, last, rfl, closing⟩
  · exact ⟨.inl live, fun _ _ _ => live, fun behind here closes => absurd closes (opens behind here),
      msgs, fun removed => absurd live removed.not_live⟩
  · exact ⟨.inr removed,
      fun behind here opens => by
        cases here
        exact absurd closing opens,
      fun _ _ _ => removed, msgs, fun _ => .inl ⟨last, rfl, closing⟩⟩

/-- Behind the close no message is in flight. -/
theorem inFlight_closing {handling : Handling} (closing : handling.Closing) :
    inFlight (some handling) = [] := by
  cases handling with
  | reading => rfl
  | picking msg => rfl
  | testing cb =>
      cases cb with
      | close => rfl
      | error => rfl
      | msg message => exact closing.elim
      | send => rfl
  | calling cb => rfl

/-- A close that ends on time has erased the entry of a published connection. -/
theorem erased_onTime {handling : Handling} {input : HandlerInput}
    (here : state.handling = some handling) (closing : handling.Closing)
    (onTime : state.OnTime (.handle input)) {reaction : Reaction} {conn : Connect}
    (resumed : state.conn.resume state.main.cbs handling input = some reaction)
    (ended : reaction.result = .ok (conn, none)) :
    (state.erase handling).inTcp = false ∧ state.main.Published := by
  cases handling with
  | reading => exact closing.elim
  | picking msg => exact closing.elim
  | testing cb =>
      obtain ⟨rfl, ⟨_, rfl⟩ | ⟨unset, _⟩⟩ := Connect.resume_testing resumed
      · cases ended
      · refine absurd (onTime cb here fun same => ?_) unset
        rw [same] at closing
        exact closing
  | calling cb =>
      obtain ⟨rfl, _⟩ := Connect.resume_calling resumed
      refine ⟨?_, onTime cb here closing⟩
      cases cb with
      | close => rfl
      | error => rfl
      | msg message => exact closing.elim
      | send => exact closing.elim

/-- **Behind the close** the callback is called, and returns once the connection is published. -/
theorem Good.react_closing (good : state.Good) {handling : Handling} {input : HandlerInput}
    (here : state.handling = some handling) (closing : handling.Closing)
    (onTime : state.OnTime (.handle input)) {reaction : Reaction}
    (resumed : state.conn.resume state.main.cbs handling input = some reaction)
    (took : (state.erase handling).react reaction = some next) : next.Good := by
  obtain ⟨behind, same, last, _⟩ := Connect.resume_closing closing resumed
  obtain ⟨conn, handlingToo, returned, rfl⟩ := react_eq took
  rw [same] at returned
  cases returned
  have balanced : Balanced state.handling reaction.event behind := by
    rw [here]
    rcases ledger_resume resumed same with balanced | ⟨_, _, dropped⟩
    · exact balanced
    · rw [inFlight_closing closing] at dropped
      cases dropped
  refine ⟨good.kept, fun after now opens => absurd (last after now) opens,
    fun _ _ _ => good.closes handling here closing, msgs_of_balanced good.msgs balanced, fun _ => ?_⟩
  cases behind with
  | none => exact .inr (erased_onTime here closing onTime resumed same)
  | some after => exact .inl ⟨after, rfl, last after rfl⟩

/-- Before the close nothing is erased. -/
theorem erase_open {handling : Handling} (opens : ¬ handling.Closing) :
    state.erase handling = state := by
  cases handling with
  | reading => rfl
  | picking msg => rfl
  | testing cb => rfl
  | calling cb =>
      cases cb with
      | close => exact absurd trivial opens
      | error => exact absurd trivial opens
      | msg message => rfl
      | send => rfl

/-- A message in flight is about to be tested for. -/
theorem testing_of_inFlight {handling : Handling} (some_message : (inFlight (some handling)).length = 1) :
    ∃ message, handling = .testing (.msg message) := by
  cases handling with
  | reading => cases some_message
  | picking msg => cases some_message
  | testing cb =>
      cases cb with
      | close => cases some_message
      | error => cases some_message
      | msg message => exact ⟨message, rfl⟩
      | send => cases some_message
  | calling cb => cases some_message

/-- A test on time drops no message. -/
theorem not_drops_onTime {handling : Handling} {input : HandlerInput} {reaction : Reaction}
    {behind : Option Handling} (here : state.handling = some handling)
    (onTime : state.OnTime (.handle input))
    (resumed : state.conn.resume state.main.cbs handling input = some reaction) :
    ¬ Drops (some handling) reaction.event behind := by
  rintro ⟨silent, _, dropped⟩
  obtain ⟨message, rfl⟩ := testing_of_inFlight dropped
  obtain ⟨rfl, ⟨_, rfl⟩ | ⟨unset, _⟩⟩ := Connect.resume_testing resumed
  · cases silent
  · have other : ConnCb.msg message ≠ .send := nofun
    exact unset (onTime _ here other)

/-- What the main thread's next step is. -/
theorem next_cases {main after : SetupPc} (advances : main.next = some after) :
    (main = .enlisted ∧ after = .published) ∨
      (after ≠ .published ∧ (main.Published ↔ after.Published)) := by
  cases main with
  | setting cbs =>
      right
      cases advances
      split
      · exact ⟨nofun, Iff.rfl⟩
      · exact ⟨nofun, Iff.rfl⟩
  | enlisted =>
      cases advances
      exact .inl ⟨rfl, rfl⟩
  | published =>
      cases advances
      exact .inr ⟨nofun, Iff.rfl⟩
  | returned => cases advances

theorem Good.main (good : state.Good) (took : state.step .main = some next) : next.Good := by
  simp only [step, Option.map_eq_some_iff] at took
  obtain ⟨after, advances, rfl⟩ := took
  refine ⟨good.kept, good.opens, good.closes, good.msgs, fun removed => ?_⟩
  rcases good.closed removed with closing | ⟨out, published⟩
  · exact .inl closing
  · right
    rcases next_cases advances with ⟨enlisted, _⟩ | ⟨other, same⟩
    · rw [enlisted] at published
      exact published.elim
    · refine ⟨?_, same.mp published⟩
      show (if after = .published then true else state.inTcp) = false
      rw [if_neg other]
      exact out

/-- **Every step on time leads from a good state to a good one.** -/
theorem good_step (good : state.Good) {label : SetupLabel} (onTime : state.OnTime label)
    (took : state.step label = some next) : next.Good := by
  cases label with
  | main => exact good.main took
  | event revs sent =>
      simp only [step] at took
      split at took
      · rename_i idle
        split at took
        · cases took
        · rename_i registered
          have live : state.conn.Live := by
            rcases good.kept with live | removed
            · exact live
            · exact absurd removed.absent registered
          refine good.react (Connect.enter_live live _ _) (fun conn handling returned => ?_) took
          rw [idle]
          exact balanced_enter returned
      · cases took
  | handle input =>
      simp only [step] at took
      split at took
      · rename_i handling here
        obtain ⟨reaction, resumed, reacted⟩ := Option.bind_eq_some_iff.mp took
        by_cases closing : handling.Closing
        · exact good.react_closing here closing onTime resumed reacted
        · have live := good.opens handling here closing
          rw [erase_open closing] at reacted
          refine good.react (Connect.resume_live live closing resumed)
            (fun conn behind returned => ?_) reacted
          rw [here]
          rcases ledger_resume resumed returned with balanced | dropped
          · exact balanced
          · exact absurd dropped (not_drops_onTime here onTime resumed)
      · cases took
  | send data =>
      simp only [step] at took
      split at took
      · split at took
        · rename_i conn tasks sends
          cases took
          have sent : (state.conn.send true data []).map Prod.fst = .ok conn := by
            rw [sends]
            rfl
          have harmless := Connect.harmless_send good.kept sent
          refine ⟨good.kept.imp harmless.live harmless.removed,
            fun handling here opens => harmless.live (good.opens handling here opens),
            fun handling here closing => harmless.removed (good.closes handling here closing),
            good.msgs, fun removed => good.closed ?_⟩
          rcases good.kept with live | already
          · exact absurd (harmless.live live) removed.not_live
          · exact already
        · cases took
      · cases took

/-! ### Steps that are not on time -/

theorem cbs_of_published {main : SetupPc} (published : main.Published) : main.cbs = 4 := by
  cases main with
  | setting cbs => exact published.elim
  | enlisted => rfl
  | published => rfl
  | returned => rfl

/-- A callback is tested before it is set. -/
theorem bad_of_early_test (good : state.Good) {cb : ConnCb}
    (here : state.handling = some (.testing cb)) (other : cb ≠ .send)
    (unset : ¬ cb.position ≤ state.main.cbs) (took : state.step (.handle .test) = some next) :
    next.Bad := by
  simp only [step, here] at took
  rw [Connect.resume, if_neg unset] at took
  cases took
  have removed := good.closes _ here
  have hidden : ¬ state.main.Published := by
    intro published
    rw [cbs_of_published published] at unset
    exact unset cb.position_le
  cases cb with
  | close => exact .inr ⟨removed trivial, rfl, fun published => absurd published hidden⟩
  | error => exact .inr ⟨removed trivial, rfl, fun published => absurd published hidden⟩
  | send => exact absurd rfl other
  | msg message =>
      left
      have msgs := congrArg List.length good.msgs
      rw [here, List.length_append] at msgs
      change _ = (passedMsgs state.log).length + 1 at msgs
      show (passedMsgs (state.log ++ [])).length + 0 < (pickedMsgs (state.log ++ [])).length
      rw [List.append_nil]
      omega

/-- The callback of a close returns before the connection is published. -/
theorem bad_of_early_ret (good : state.Good) {cb : ConnCb}
    (here : state.handling = some (.calling cb)) (last : cb.Last)
    (hidden : ¬ state.main.Published) (took : state.step (.handle .ret) = some next) :
    next.Bad := by
  have removed := good.closes _ here last
  simp only [step, here] at took
  cases took
  exact .inr ⟨removed, last.back, fun published => absurd published hidden⟩

/-- **After a step that is not on time** the state is bad. -/
theorem bad_of_late (good : state.Good) {label : SetupLabel} (late : ¬ state.OnTime label)
    (took : state.step label = some next) : next.Bad := by
  cases label with
  | main => exact absurd trivial late
  | event revs sent => exact absurd trivial late
  | send data => exact absurd trivial late
  | handle input =>
      cases input with
      | read result => exact absurd trivial late
      | readEnd ending => exact absurd trivial late
      | pick past now => exact absurd trivial late
      | test =>
          simp only [OnTime, not_forall] at late
          obtain ⟨cb, here, other, unset⟩ := late
          exact bad_of_early_test good here other unset took
      | ret =>
          simp only [OnTime, not_forall] at late
          obtain ⟨cb, here, last, hidden⟩ := late
          exact bad_of_early_ret good here last hidden took

/-- A message that is lost stays lost. -/
theorem lost_react (lost : (passedMsgs state.log).length + (inFlight state.handling).length <
      (pickedMsgs state.log).length) {reaction : Reaction}
    (ledger : ∀ conn handling, reaction.result = .ok (conn, handling) →
      Balanced state.handling reaction.event handling ∨
        Drops state.handling reaction.event handling)
    (took : state.react reaction = some next) : next.Bad := by
  obtain ⟨conn, handling, returned, rfl⟩ := react_eq took
  left
  show (passedMsgs (state.log ++ _)).length + (inFlight handling).length <
    (pickedMsgs (state.log ++ _)).length
  rw [pickedMsgs_append, passedMsgs_append, List.length_append, List.length_append]
  rcases ledger conn handling returned with balanced | ⟨silent, empty, _⟩
  · have lengths := congrArg List.length balanced
    rw [List.length_append, List.length_append] at lengths
    omega
  · rw [silent, empty]
    show (passedMsgs state.log).length + 0 + 0 < (pickedMsgs state.log).length + 0
    omega

/-- **A bad state is never left.** -/
theorem bad_step (bad : state.Bad) {label : SetupLabel} (took : state.step label = some next) :
    next.Bad := by
  cases label with
  | main =>
      simp only [step, Option.map_eq_some_iff] at took
      obtain ⟨after, advances, rfl⟩ := took
      rcases bad with lost | ⟨removed, idle, left⟩
      · exact .inl lost
      · refine .inr ⟨removed, idle, fun published => ?_⟩
        show (if after = .published then true else state.inTcp) = true
        rcases next_cases advances with ⟨_, rfl⟩ | ⟨other, same⟩
        · rfl
        · rw [if_neg other]
          exact left (same.mpr published)
  | event revs sent =>
      simp only [step] at took
      split at took
      · rename_i idle
        split at took
        · cases took
        · rename_i registered
          rcases bad with lost | ⟨removed, _, _⟩
          · refine lost_react lost (fun conn handling returned => ?_) took
            rw [idle]
            exact .inl (balanced_enter returned)
          · exact absurd removed.absent registered
      · cases took
  | handle input =>
      simp only [step] at took
      split at took
      · rename_i handling here
        obtain ⟨reaction, resumed, reacted⟩ := Option.bind_eq_some_iff.mp took
        rcases bad with lost | ⟨_, idle, _⟩
        · refine lost_react (show _ < (pickedMsgs (state.erase handling).log).length from lost)
            (fun conn behind returned => ?_) reacted
          have ledger := ledger_resume resumed returned
          rw [← here] at ledger
          exact ledger
        · rw [idle] at here
          cases here
      · cases took
  | send data =>
      simp only [step] at took
      split at took
      · rename_i cb here
        rcases bad with lost | ⟨_, idle, _⟩
        · split at took
          · cases took
            exact .inl lost
          · cases took
        · rw [idle] at here
          cases here
      · cases took

/-! ### Runs -/

/-- The connection has been constructed. -/
def start (conn : Connect) : Setup where
  conn := conn

theorem good_start {conn : Connect} (live : conn.Live) : (start conn).Good :=
  ⟨.inl live, nofun, nofun, rfl, fun removed => absurd live removed.not_live⟩

/-- **When a connection is set up before its events count.** In a run all of whose steps are on time,
what is picked is passed on, and a connection that was closed is not left in `tcpsvr::_conns`; and a
run at whose end both threads have finished ends so only if all its steps were on time. -/
theorem set_up_iff {fd : Nat} {interest : InterestList} {now : Int} {conn : Connect}
    (made : Connect.make fd interest now = .ok conn) (labels : List SetupLabel) :
    (Along step OnTime (start conn) labels → Always step SetUp (start conn) labels) ∧
      ∀ final, exec step (start conn) labels = some final → final.Finished →
        (final.SetUp ↔ Along step OnTime (start conn) labels) := by
  have begins := good_start (Connect.made_live made)
  have forward : Along step OnTime (start conn) labels → Always step Good (start conn) labels :=
    always_of_along (fun _ _ _ good onTime took => good_step good onTime took) begins
  constructor
  · exact fun along => (forward along).mono fun _ good => good.setUp
  · intro final ran finished
    constructor
    · intro setUp
      exact along_of_last (fun _ _ _ good onTime took => good_step good onTime took)
        (fun _ _ _ good late took => bad_of_late good late took)
        (fun _ _ _ bad took => bad_step bad took) begins ran
        (fun bad => bad.not_setUp finished setUp)
    · exact fun along => ((forward along).last ran).setUp

/-- A frame arrives, and `pick_msg` is called twice. -/
def serveFrame : List SetupLabel :=
  [.event epollIn 0, .handle (.read (.data frameA)), .handle (.readEnd .eagain),
    .handle (.pick (0, 0) 0), .handle .test, .handle .ret, .handle (.pick (0, 0) 0)]

/-- The client sends once the connection is set up. -/
theorem set_up_iff_served :
    Along step OnTime (start quietConnect) (List.replicate 7 .main ++ serveFrame) ∧
      Always step SetUp (start quietConnect) (List.replicate 7 .main ++ serveFrame) := by
  obtain ⟨forward, exactly⟩ :=
    set_up_iff Connect.quietConnect_made (List.replicate 7 .main ++ serveFrame)
  have run : (exec step (start quietConnect) (List.replicate 7 .main ++ serveFrame)).map
      (fun final => (final.main, final.handling, final.log, final.conn.disconn)) =
      some (.returned, none, [.onMsg, .picked [97], .called (.msg [97])], false) := by
    decide +kernel
  obtain ⟨final, ran, facts⟩ := Option.map_eq_some_iff.mp run
  simp only [Prod.mk.injEq] at facts
  obtain ⟨returned, idle, log, connected⟩ := facts
  have setUp : final.SetUp := by
    refine ⟨?_, fun _ disconnected => ?_⟩
    · rw [log, idle]
      rfl
    · rw [connected] at disconnected
      cases disconnected
  have along := (exactly final ran ⟨returned, idle⟩).mp setUp
  exact ⟨along, forward along⟩

/-- A client that sends at once, and one that leaves at once: the message is dropped, and the closed
connection is left in `tcpsvr::_conns`. -/
theorem events_before_setup :
    (∃ labels final, exec step (start quietConnect) labels = some final ∧ final.Finished ∧
      pickedMsgs final.log = [[97]] ∧ passedMsgs final.log = [] ∧ ¬ final.SetUp) ∧
    ∃ labels final, exec step (start quietConnect) labels = some final ∧ final.Finished ∧
      final.conn.disconn = true ∧ final.inTcp = true ∧ ¬ final.SetUp := by
  constructor
  · have run : (exec step (start quietConnect)
        ([.event epollIn 0, .handle (.read (.data frameA)), .handle (.readEnd .eagain),
          .handle (.pick (0, 0) 0), .handle .test, .handle (.pick (0, 0) 0)] ++
          List.replicate 7 .main)).map
        (fun final => (final.main, final.handling, final.log)) =
        some (.returned, none, [.onMsg, .picked [97]]) := by
      decide +kernel
    obtain ⟨final, ran, facts⟩ := Option.map_eq_some_iff.mp run
    simp only [Prod.mk.injEq] at facts
    obtain ⟨returned, idle, log⟩ := facts
    have picked : pickedMsgs final.log = [[97]] := by
      rw [log]
      rfl
    have passed : passedMsgs final.log = [] := by
      rw [log]
      rfl
    refine ⟨_, final, ran, ⟨returned, idle⟩, picked, passed, fun setUp => ?_⟩
    have same := setUp.1
    rw [picked, passed, idle] at same
    cases same
  · have run : (exec step (start quietConnect)
        ([.main, .event epollIn 0, .handle (.readEnd .eof), .handle .test, .handle .ret] ++
          List.replicate 6 .main)).map
        (fun final => (final.main, final.handling, final.conn.disconn, final.inTcp)) =
        some (.returned, none, true, true) := by
      decide +kernel
    obtain ⟨final, ran, facts⟩ := Option.map_eq_some_iff.mp run
    simp only [Prod.mk.injEq] at facts
    obtain ⟨returned, idle, disconnected, left⟩ := facts
    refine ⟨_, final, ran, ⟨returned, idle⟩, disconnected, left, fun setUp => ?_⟩
    have out := setUp.2 ⟨returned, idle⟩ disconnected
    rw [left] at out
    cases out

end Setup

end IkunSvr
