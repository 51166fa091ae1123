/-
**The handlers of a connection, step by step.**

`Connect.onMsg` is a whole call of `on_msg`. Other threads act while a handler runs, and its
callbacks act on other connections, so here a handler is the sequence of its steps: `enter` is the
call that `handle_event` makes, and `resume` the step behind, up to the next `::read`, the next call
of `pick_msg`, and the tests of the four callbacks.

* `Regular` — what a step does to a live connection: it stays live, or `on_close` or `on_error` has
  run and it is removed; either way only its own descriptor's registration has changed;
* `enter_live`, `resume_live` — every step of a handler is regular;
* `resume_closing` — behind `on_close` and `on_error` a handler does nothing to the connection;
* `onMsg_runs` — **a call of `on_msg` that returns is a run of its steps**.
-/

import IkunSvr.Net.Connect
import IkunSvr.Net.Dispatch

namespace IkunSvr

/-! ### Handlers -/

/-- The callbacks of a connection. -/
inductive ConnCb
  | close
  | error
  | msg (message : Bytes)
  | send
  deriving DecidableEq, Repr

/-- `_on_new_conn` sets the callbacks in this order. -/
def ConnCb.position : ConnCb → Nat
  | .close => 1
  | .error => 2
  | .msg _ => 3
  | .send => 4

theorem ConnCb.position_le (cb : ConnCb) : cb.position ≤ 4 := by
  cases cb with
  | close => decide
  | error => decide
  | msg message => exact (by decide : 3 ≤ 4)
  | send => decide

/-- Where the loop's thread is in a handler of a connection. -/
inductive Handling
  /-- in `on_msg`, before a `::read` -/
  | reading
  /-- in `on_msg`, before a call of `pick_msg(msg)` -/
  | picking (msg : Bytes)
  /-- before the test of a callback -/
  | testing (cb : ConnCb)
  | calling (cb : ConnCb)
  deriving DecidableEq, Repr

/-- Where the handler goes on behind a callback. -/
def ConnCb.back : ConnCb → Option Handling
  | .msg message => some (.picking message)
  | _ => none

/-- What happens to a connection in its handlers. -/
inductive ConnEvent
  /-- `on_msg` starts -/
  | onMsg
  /-- `writecb` starts -/
  | writecb
  /-- `on_close` starts -/
  | onClose
  /-- `on_error` starts -/
  | onError
  | picked (msg : Bytes)
  | called (cb : ConnCb)
  deriving DecidableEq, Repr

/-- What comes from outside in a step of a handler. -/
inductive HandlerInput
  | read (result : ReadResult)
  | readEnd (ending : ReadEnd)
  /-- a call of `pick_msg` at a time, with what stands behind the buffer's terminator -/
  | pick (past : UInt8 × UInt8) (now : Int)
  | test
  /-- the callback returns -/
  | ret

/-- A step of a handler: what happens, and if the step returns, the connection and where the handler
then is. -/
structure Reaction where
  event : Option ConnEvent := none
  result : Except Stop (Connect × Option Handling)

namespace Connect

/-- The callback of the channel that `handle_event` calls, `sent` being the result of `::send`. -/
def enter (callback : Callback) (sent : Int) (conn : Connect) : Reaction :=
  match callback with
  | .close => ⟨some .onClose, conn.onClose.map fun next => (next, some (.testing .close))⟩
  | .error => ⟨some .onError, conn.onError.map fun next => (next, some (.testing .error))⟩
  | .read => ⟨some .onMsg, .ok (conn, some .reading)⟩
  | .write => ⟨some .writecb, (conn.writecb sent).map fun out =>
      (out.1, if out.2 then some (.testing .send) else none)⟩

/-- One turn of the read loop that does not end it. -/
def readOnce (result : ReadResult) (conn : Connect) : Except Stop Connect :=
  match result with
  | .data chunk => (readChunk chunk conn.inputBuf).map fun out => { conn with inputBuf := out.1 }
  | .eintr => .ok conn
  | .other => .ok conn

/-- One call of `pick_msg` in `on_msg`. -/
def pickOnce (past : UInt8 × UInt8) (now : Int) (msg : Bytes) (conn : Connect) : Reaction :=
  match conn.inputBuf.pickMsg past msg with
  | .error stop => ⟨none, .error stop⟩
  | .ok (false, _, rest) => ⟨none, .ok ({ conn with inputBuf := rest }, none)⟩
  | .ok (true, picked, rest) => ⟨some (.picked picked),
      .ok ({ conn with inputBuf := rest, lastAtTime := now }, some (.testing (.msg picked)))⟩

/-- The next step of a handler, when the first `cbs` of the callbacks are set. -/
def resume (cbs : Nat) (conn : Connect) : Handling → HandlerInput → Option Reaction
  | .reading, .read result =>
      some ⟨none, (conn.readOnce result).map fun next => (next, some .reading)⟩
  | .reading, .readEnd .eagain => some ⟨none, .ok (conn, some (.picking []))⟩
  | .reading, .readEnd .eof =>
      some ⟨some .onClose, conn.onClose.map fun next => (next, some (.testing .close))⟩
  | .picking msg, .pick past now => some (conn.pickOnce past now msg)
  | .testing cb, .test =>
      if cb.position ≤ cbs then some ⟨some (.called cb), .ok (conn, some (.calling cb))⟩
      else some ⟨none, .ok (conn, cb.back)⟩
  | .calling cb, .ret => some ⟨none, .ok (conn, cb.back)⟩
  | _, _ => none

end Connect

/-! ### Before and behind the close -/

/-- The callbacks of `on_close` and `on_error`. -/
def ConnCb.Last : ConnCb → Prop
  | .close => True
  | .error => True
  | _ => False

/-- The handler is behind the removal of the channel. -/
def Handling.Closing : Handling → Prop
  | .testing cb => cb.Last
  | .calling cb => cb.Last
  | _ => False

/-- `on_close` or `on_error` starts. -/
def ConnEvent.Terminal : ConnEvent → Prop
  | .onClose => True
  | .onError => True
  | _ => False

theorem ConnCb.back_open {cb : ConnCb} : ∀ handling ∈ cb.back, ¬ handling.Closing := by
  intro handling found
  cases cb with
  | msg message =>
      cases found
      exact id
  | close => cases found
  | error => cases found
  | send => cases found

theorem ConnCb.Last.back {cb : ConnCb} (last : cb.Last) : cb.back = none := by
  cases cb with
  | close => rfl
  | error => rfl
  | msg message => exact last.elim
  | send => rfl

namespace Connect

/-- The other connections of the loop see no difference. -/
structure KeepsOthers (conn next : Connect) : Prop where
  fd : next.cchnl.chnl.fd = conn.cchnl.chnl.fd
  interest : ∀ fd, fd ≠ conn.cchnl.chnl.fd → next.cchnl.interest fd = conn.cchnl.interest fd

theorem keepsOthers_of_eq {conn next : Connect} (cchnl : next.cchnl = conn.cchnl) :
    conn.KeepsOthers next := by
  refine ⟨?_, fun fd _ => ?_⟩
  · rw [cchnl]
  · rw [cchnl]

/-- The channel's own registration has changed. -/
theorem keepsOthers_update {conn next : Connect} {events : Option Mask}
    (fd : next.cchnl.chnl.fd = conn.cchnl.chnl.fd)
    (interest : next.cchnl.interest =
      Function.update conn.cchnl.interest conn.cchnl.chnl.fd events) :
    conn.KeepsOthers next := by
  refine ⟨fd, fun other apart => ?_⟩
  rw [interest, Function.update_of_ne apart]

/-- What a step of a handler does to a live connection. -/
structure Regular (conn : Connect) (reaction : Reaction) : Prop where
  stays : NoExit reaction.result
  others : ∀ next handling, reaction.result = .ok (next, handling) → conn.KeepsOthers next
  outcome : ∀ next handling, reaction.result = .ok (next, handling) →
    next.Live ∧ (∀ event ∈ reaction.event, ¬ event.Terminal) ∧
        (∀ behind ∈ handling, ¬ behind.Closing) ∨
      next.Removed ∧ ∃ behind, handling = some behind ∧ behind.Closing

variable {conn next : Connect}

/-- A step that leaves the connection live. -/
theorem regular_live {event : Option ConnEvent} {handling : Option Handling}
    (others : conn.KeepsOthers next) (live : next.Live)
    (goesOn : ∀ happened ∈ event, ¬ happened.Terminal)
    (opens : ∀ behind ∈ handling, ¬ behind.Closing) :
    conn.Regular ⟨event, .ok (next, handling)⟩ := by
  refine ⟨noExit_ok _, fun other behind same => ?_, fun other behind same => ?_⟩
  · cases same
    exact others
  · cases same
    exact .inl ⟨live, goesOn, opens⟩

/-- A step that does not return. -/
theorem regular_stop (event : Option ConnEvent) {stop : Stop} (other : stop ≠ .exit) :
    conn.Regular ⟨event, .error stop⟩ := by
  refine ⟨fun exits => other (Except.error.inj exits), fun _ _ same => ?_, fun _ _ same => ?_⟩
  · cases same
  · cases same

/-- `on_close` and `on_error`. -/
theorem regular_disconnect (live : conn.Live) (event : Option ConnEvent) {cb : ConnCb}
    (last : cb.Last) :
    conn.Regular ⟨event, conn.disconnect.map fun next => (next, some (.testing cb))⟩ := by
  rw [disconnect_live live]
  refine ⟨noExit_ok _, fun other behind same => ?_, fun other behind same => ?_⟩
  · cases same
    exact keepsOthers_update rfl rfl
  · cases same
    exact .inr ⟨removed_of_struck conn, _, rfl, last⟩

theorem regular_writecb (live : conn.Live) (sent : Int) :
    conn.Regular (conn.enter .write sent) := by
  unfold enter
  simp only
  rw [writecb_live live]
  by_cases empty : (unsent sent conn.outputBuf).size = 0
  · rw [if_pos empty]
    refine regular_live (keepsOthers_update rfl rfl) (live.enlist _ _) ?_ ?_
    · rintro _ ⟨⟩
      exact id
    · rintro _ ⟨⟩
      exact id
  · rw [if_neg empty]
    refine regular_live (keepsOthers_of_eq rfl) (live.of_eq rfl rfl) ?_ ?_
    · rintro _ ⟨⟩
      exact id
    · rintro _ ⟨⟩

/-- **What `handle_event` calls is regular** on a live connection. -/
theorem enter_live (live : conn.Live) (callback : Callback) (sent : Int) :
    conn.Regular (conn.enter callback sent) := by
  cases callback with
  | close => exact regular_disconnect live _ trivial
  | error => exact regular_disconnect live _ trivial
  | read =>
      refine regular_live (keepsOthers_of_eq rfl) live ?_ ?_
      · rintro _ ⟨⟩
        exact id
      · rintro _ ⟨⟩
        exact id
  | write => exact regular_writecb live sent

theorem regular_readOnce (live : conn.Live) (result : ReadResult) :
    conn.Regular ⟨none, (conn.readOnce result).map fun next => (next, some .reading)⟩ := by
  have stays : ∀ next : Connect, next.disconn = conn.disconn → next.cchnl = conn.cchnl →
      conn.Regular ⟨none, .ok (next, some .reading)⟩ := by
    intro next disconn cchnl
    refine regular_live (keepsOthers_of_eq cchnl) (live.of_eq disconn cchnl) nofun ?_
    rintro _ ⟨⟩
    exact id
  cases result with
  | data chunk =>
      rw [readOnce]
      cases read : readChunk chunk conn.inputBuf with
      | error stop =>
          refine regular_stop _ fun exits => readChunk_noExit chunk conn.inputBuf ?_
          rw [read, exits]
      | ok out => exact stays _ rfl rfl
  | eintr =>
      rw [readOnce]
      exact stays conn rfl rfl
  | other =>
      rw [readOnce]
      exact stays conn rfl rfl

theorem regular_pickOnce (live : conn.Live) (past : UInt8 × UInt8) (now : Int) (msg : Bytes) :
    conn.Regular (conn.pickOnce past now msg) := by
  unfold pickOnce
  split
  · rename_i stop picked
    refine regular_stop _ fun exits => ?_
    rw [exits] at picked
    exact Buffer.pickMsg_noExit picked
  · exact regular_live (keepsOthers_of_eq rfl) (live.of_eq rfl rfl) nofun nofun
  · refine regular_live (keepsOthers_of_eq rfl) (live.of_eq rfl rfl) ?_ ?_
    · rintro _ ⟨⟩
      exact id
    · rintro _ ⟨⟩
      exact id

/-- **Every step of a handler is regular** on a live connection. -/
theorem resume_live (live : conn.Live) {cbs : Nat} {handling : Handling} {input : HandlerInput}
    {reaction : Reaction} (opens : ¬ handling.Closing)
    (took : conn.resume cbs handling input = some reaction) : conn.Regular reaction := by
  unfold resume at took
  split at took
  · cases took
    exact regular_readOnce live _
  · cases took
    refine regular_live (keepsOthers_of_eq rfl) live nofun ?_
    rintro _ ⟨⟩
    exact id
  · cases took
    exact regular_disconnect live _ trivial
  · cases took
    exact regular_pickOnce live _ _ _
  · split at took
    · cases took
      refine regular_live (keepsOthers_of_eq rfl) live ?_ ?_
      · rintro _ ⟨⟩
        exact id
      · rintro _ ⟨⟩
        exact opens
    · cases took
      exact regular_live (keepsOthers_of_eq rfl) live nofun ConnCb.back_open
  · cases took
    exact regular_live (keepsOthers_of_eq rfl) live nofun ConnCb.back_open
  · cases took

/-- Behind a callback that is called or skipped, the handler goes on. -/
theorem resume_testing {cbs : Nat} {cb : ConnCb} {input : HandlerInput} {reaction : Reaction}
    (took : conn.resume cbs (.testing cb) input = some reaction) :
    input = .test ∧
      (cb.position ≤ cbs ∧
          reaction = ⟨some (.called cb), .ok (conn, some (.calling cb))⟩ ∨
        ¬ cb.position ≤ cbs ∧ reaction = ⟨none, .ok (conn, cb.back)⟩) := by
  cases input with
  | test =>
      refine ⟨rfl, ?_⟩
      rw [resume] at took
      split at took
      · rename_i isSet
        exact .inl ⟨isSet, (Option.some.inj took).symm⟩
      · rename_i unset
        exact .inr ⟨unset, (Option.some.inj took).symm⟩
  | read result => cases took
  | readEnd ending => cases took
  | pick past now => cases took
  | ret => cases took

theorem resume_calling {cbs : Nat} {cb : ConnCb} {input : HandlerInput} {reaction : Reaction}
    (took : conn.resume cbs (.calling cb) input = some reaction) :
    input = .ret ∧ reaction = ⟨none, .ok (conn, cb.back)⟩ := by
  cases input with
  | ret => exact ⟨rfl, (Option.some.inj took).symm⟩
  | read result => cases took
  | readEnd ending => cases took
  | pick past now => cases took
  | test => cases took

/-- **Behind `on_close` and `on_error`** only their callbacks are called, and the connection is left
as it is. -/
theorem resume_closing {cbs : Nat} {handling : Handling} {input : HandlerInput}
    {reaction : Reaction} (closing : handling.Closing)
    (took : conn.resume cbs handling input = some reaction) :
    ∃ behind, reaction.result = .ok (conn, behind) ∧ (∀ after ∈ behind, after.Closing) ∧
      ∀ event ∈ reaction.event, ∃ cb, event = .called cb ∧ cb.Last := by
  cases handling with
  | reading => exact closing.elim
  | picking msg => exact closing.elim
  | testing cb =>
      obtain ⟨_, ⟨_, rfl⟩ | ⟨_, rfl⟩⟩ := resume_testing took
      · refine ⟨_, rfl, ?_, ?_⟩
        · rintro _ ⟨⟩
          exact closing
        · rintro _ ⟨⟩
          exact ⟨cb, rfl, closing⟩
      · refine ⟨_, rfl, ?_, nofun⟩
        rw [ConnCb.Last.back closing]
        nofun
  | calling cb =>
      obtain ⟨_, rfl⟩ := resume_calling took
      refine ⟨_, rfl, ?_, nofun⟩
      rw [ConnCb.Last.back closing]
      nofun

/-! ### Sends -/

/-- `send_in_loop` that returns has armed output. -/
theorem sendInLoop_arms {after : Connect} {data : Bytes} {size : Nat}
    (sent : conn.sendInLoop data size = .ok after) :
    ∃ outputBuf cchnl, conn.cchnl.enableWrite = .ok cchnl ∧
      after = { conn with outputBuf := outputBuf, cchnl := cchnl } := by
  unfold sendInLoop at sent
  obtain ⟨outputBuf, _, armed⟩ := bind_eq_ok.mp sent
  obtain ⟨cchnl, enabled, same⟩ := bind_eq_ok.mp armed
  cases same
  exact ⟨outputBuf, cchnl, enabled, rfl⟩

/-- What a send does to a connection: nothing to a removed one, and a live one stays live. -/
structure Harmless (conn after : Connect) : Prop where
  others : conn.KeepsOthers after
  live : conn.Live → after.Live
  removed : conn.Removed → after.Removed

theorem harmless_sendInLoop {after : Connect} (kept : conn.Live ∨ conn.Removed) {data : Bytes}
    {size : Nat} (sent : conn.sendInLoop data size = .ok after) : Harmless conn after := by
  obtain ⟨outputBuf, cchnl, enabled, rfl⟩ := sendInLoop_arms sent
  rcases kept with live | removed
  · rw [Watch.enableWrite, Watch.update_synced (Watch.setEvs_synced.mpr live.synced)] at enabled
    rw [← Except.ok.inj enabled]
    exact ⟨keepsOthers_update rfl rfl, fun _ => live.enlist _ _,
      fun removed => absurd live removed.not_live⟩
  · have lost : conn.cchnl.enableWrite = .error .exit :=
      Watch.update_lost removed.flagged removed.absent
    rw [lost] at enabled
    cases enabled

theorem harmless_send {after : Connect} (kept : conn.Live ∨ conn.Removed) {data : Block}
    (sent : (conn.send true data []).map Prod.fst = .ok after) : Harmless conn after := by
  obtain ⟨out, sends, rfl⟩ := map_eq_ok.mp sent
  unfold send at sends
  split at sends
  · cases sends
    exact ⟨keepsOthers_of_eq rfl, id, id⟩
  · rw [if_pos rfl] at sends
    obtain ⟨after, done, rfl⟩ := map_eq_ok.mp sends
    exact harmless_sendInLoop kept done

/-! ### The steps of `on_msg` are `on_msg` -/

/-- The handler runs from a state to its end, with these events. -/
inductive Runs (cbs : Nat) : Connect → Option Handling → List ConnEvent → Connect → Prop
  | done (conn : Connect) : Runs cbs conn none [] conn
  | step {conn next last : Connect} {handling : Handling} {input : HandlerInput}
      {event : Option ConnEvent} {behind : Option Handling} {events : List ConnEvent}
      (took : conn.resume cbs handling input = some ⟨event, .ok (next, behind)⟩)
      (rest : Runs cbs next behind events last) :
      Runs cbs conn (some handling) (event.toList ++ events) last

/-- The test of a callback, and the call if it is set. -/
def tested (cbs : Nat) (cb : ConnCb) : List ConnEvent :=
  if cb.position ≤ cbs then [.called cb] else []

/-- What happens in a call of `on_msg` that returns. -/
def onMsgEvents (cbs : Nat) (msgs : List Bytes) : ReadEnd → List ConnEvent
  | .eagain => msgs.flatMap fun msg => .picked msg :: tested cbs (.msg msg)
  | .eof => .onClose :: tested cbs .close

/-- Behind the test of a callback, and the call if it is set. -/
theorem Runs.test {cbs : Nat} {conn last : Connect} {cb : ConnCb} {events : List ConnEvent}
    (rest : Runs cbs conn cb.back events last) :
    Runs cbs conn (some (.testing cb)) (tested cbs cb ++ events) last := by
  unfold tested
  by_cases isSet : cb.position ≤ cbs
  · have calls : conn.resume cbs (.testing cb) .test =
        some ⟨some (.called cb), .ok (conn, some (.calling cb))⟩ := by
      rw [resume, if_pos isSet]
    have returns : conn.resume cbs (.calling cb) .ret = some ⟨none, .ok (conn, cb.back)⟩ := rfl
    rw [if_pos isSet]
    exact .step calls (.step returns rest)
  · have passes : conn.resume cbs (.testing cb) .test = some ⟨none, .ok (conn, cb.back)⟩ := by
      rw [resume, if_neg isSet]
    rw [if_neg isSet]
    exact .step passes rest

/-- The read loop, up to the result that ends it. -/
theorem Runs.readLoop {cbs : Nat} {results : List ReadResult} {buffer final : Buffer}
    {copies : List Copy} {conn last : Connect} {events : List ConnEvent}
    (read : IkunSvr.readLoop results buffer = .ok (final, copies))
    (rest : Runs cbs { conn with inputBuf := final } (some .reading) events last) :
    Runs cbs { conn with inputBuf := buffer } (some .reading) events last := by
  induction results generalizing buffer copies with
  | nil =>
      cases read
      exact rest
  | cons result results ih =>
      cases result with
      | data chunk =>
          rw [readLoop_data] at read
          obtain ⟨once, first, later⟩ := bind_eq_ok.mp read
          obtain ⟨more, second, same⟩ := map_eq_ok.mp later
          cases same
          have turn : resume cbs { conn with inputBuf := buffer } .reading (.read (.data chunk)) =
              some ⟨none, .ok ({ conn with inputBuf := once.1 }, some .reading)⟩ := by
            rw [resume, readOnce, first]
            rfl
          exact .step turn (ih second)
      | eintr =>
          have turn : resume cbs { conn with inputBuf := buffer } .reading (.read .eintr) =
              some ⟨none, .ok ({ conn with inputBuf := buffer }, some .reading)⟩ := by
            rw [resume, readOnce]
            rfl
          exact .step turn (ih read)
      | other =>
          have turn : resume cbs { conn with inputBuf := buffer } .reading (.read .other) =
              some ⟨none, .ok ({ conn with inputBuf := buffer }, some .reading)⟩ := by
            rw [resume, readOnce]
            rfl
          exact .step turn (ih read)

/-- The inner loop of `on_msg`. -/
theorem Runs.pickLoop {cbs fuel : Nat} {past : Nat → UInt8 × UInt8} {now : Int} {str : Bytes}
    {conn : Connect} {msgs : List Bytes} {rest : Buffer}
    (picked : IkunSvr.pickLoop fuel past str conn.inputBuf = some (.ok (msgs, rest))) :
    Runs cbs conn (some (.picking str)) (onMsgEvents cbs msgs .eagain)
      { conn with inputBuf := rest, lastAtTime := if msgs = [] then conn.lastAtTime else now } := by
  induction fuel generalizing past str conn msgs with
  | zero => cases picked
  | succ fuel ih =>
      rw [IkunSvr.pickLoop] at picked
      cases once : conn.inputBuf.pickMsg (past 0) str with
      | error stop =>
          rw [once] at picked
          cases picked
      | ok out =>
          obtain ⟨found, msg, buffer⟩ := out
          rw [once] at picked
          cases found with
          | false =>
              cases picked
              have ends : conn.resume cbs (.picking str) (.pick (past 0) now) =
                  some ⟨none, .ok ({ conn with inputBuf := rest }, none)⟩ := by
                rw [resume, pickOnce, once]
              exact .step ends (.done _)
          | true =>
              rw [Option.map_eq_some_iff] at picked
              obtain ⟨inner, later, mapped⟩ := picked
              obtain ⟨out, rfl, same⟩ := map_eq_ok.mp mapped
              cases same
              have takes : conn.resume cbs (.picking str) (.pick (past 0) now) =
                  some ⟨some (.picked msg),
                    .ok ({ conn with inputBuf := buffer, lastAtTime := now },
                      some (.testing (.msg msg)))⟩ := by
                rw [resume, pickOnce, once]
              have onward := @ih (fun call => past (call + 1)) msg
                { conn with inputBuf := buffer, lastAtTime := now } out.1 later
              have same : ({ conn with
                    inputBuf := out.2
                    lastAtTime := if out.1 = [] then now else now } : Connect) =
                  { conn with
                    inputBuf := out.2
                    lastAtTime := if msg :: out.1 = [] then conn.lastAtTime else now } := by
                rw [ite_self, if_neg (List.cons_ne_nil _ _)]
              rw [← same]
              exact .step takes onward.test

/-- **A call of `on_msg` that returns is a run of its steps**, from the first `::read` to the end of
the handler; the messages are those it hands to `_msg_cb`. -/
theorem onMsg_runs (cbs : Nat) {fuel : Nat} {past : Nat → UInt8 × UInt8} {now : Int} {reads : Reads}
    {received : Received} (ended : conn.onMsg fuel past now reads = some (.ok received)) :
    Runs cbs conn (some .reading) (onMsgEvents cbs received.msgs reads.ending) received.conn := by
  cases read : IkunSvr.readLoop reads.interim conn.inputBuf with
  | error stop =>
      rw [onMsg_stops read] at ended
      cases ended
  | ok out =>
      obtain ⟨buffer, copies⟩ := out
      cases ending : reads.ending with
      | eof =>
          rw [onMsg_eof read ending] at ended
          obtain ⟨closed, closes, rfl⟩ := map_eq_ok.mp (Option.some.inj ended)
          have ends : resume cbs { conn with inputBuf := buffer } .reading (.readEnd .eof) =
              some ⟨some .onClose, .ok (closed, some (.testing .close))⟩ := by
            rw [resume, closes]
            rfl
          have last : Runs cbs closed (some (.testing .close)) (tested cbs .close) closed := by
            have ended : Runs cbs closed (some (.testing .close)) (tested cbs .close ++ []) closed :=
              Runs.test (.done closed)
            rwa [List.append_nil] at ended
          exact Runs.readLoop read (.step ends last)
      | eagain =>
          rw [onMsg_eagain read ending, Option.map_eq_some_iff] at ended
          obtain ⟨inner, picks, mapped⟩ := ended
          obtain ⟨out, rfl, same⟩ := map_eq_ok.mp mapped
          have ends : resume cbs { conn with inputBuf := buffer } .reading (.readEnd .eagain) =
              some ⟨none, .ok ({ conn with inputBuf := buffer }, some (.picking []))⟩ := rfl
          rw [← same]
          exact Runs.readLoop read (.step ends (Runs.pickLoop picks))

end Connect

end IkunSvr
