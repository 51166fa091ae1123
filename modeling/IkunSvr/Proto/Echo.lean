/-
**From the frames of requests to the replies.**

The server picks a message off the input buffer, parses it as a `req`, and sends
`"reply: <id> <name>"`. `Echo` is one connection of an echo server without worker threads, with what
its reads have returned and what its socket has accepted; a step is a call of `on_msg`, with the
replies to the messages it hands over, or of `writecb`.

* `read_serving`, `write_serving` — a read that returns whole frames answers the requests it
  completes (`Serving`), and a write that is taken whole moves bytes to the socket;
* `requests_answered` — **every request is answered once, in order**: in every state what the socket
  has accepted and what waits in `_output_buf` are the replies to the requests whose frames have
  arrived, and no such call stops;
* `conversation_answered` — a client that waits for each reply gets one for each request.
-/

import Mathlib.Data.Nat.Digits.Lemmas
import IkunSvr.Output.Conservation
import IkunSvr.Proto.Messages

namespace IkunSvr

open Framing Run

variable {wire : Wire}

/-! ### The server's side -/

/-- The digits of a number. -/
def decimal (value : ℕ) : Bytes :=
  if value = 0 then [48] else (Nat.digits 10 value).reverse.map fun digit => UInt8.ofNat (48 + digit)

/-- `std::to_string` of an `int`. -/
def toText (value : ℤ) : Bytes :=
  if value < 0 then 45 :: decimal value.natAbs else decimal value.natAbs

/-- `"reply: " + std::to_string(req.id()) + " " + req.name()`. -/
def reply (req : Req wire) : Bytes :=
  [114, 101, 112, 108, 121, 58, 32] ++ (toText req.id.toInt ++ ([32] ++ req.name))

/-- `echosvr::on_msg`: what it passes to `connect::send`. The result of `ParseFromString` is not
looked at; `left` is what a parse that fails has left in `req`. -/
def Echosvr.onMsg (left : Bytes → Req wire) (msg : Bytes) : Except Stop Block :=
  let recv := reply (((Req.messageClass wire).parseFromString msg).getD (left msg))
  if fits : recv.length ≤ maxSize then .ok ⟨recv, fits⟩ else .error .lengthError

/-- A connection, what its reads have returned and what its socket has accepted. -/
structure Echo where
  conn : Connect
  received : Bytes := []
  accepted : Bytes := []

namespace Echo

/-- A call on the connection. -/
inductive EchoCall
  /-- `on_msg` -/
  | read (call : Call)
  /-- `writecb`, with the result of `::send` -/
  | write (sent : ℤ)

/-- `_msg_cb` for each of the messages that `on_msg` hands over. -/
def answerAll (left : Bytes → Req wire) : List Bytes → Connect → Except Stop Connect
  | [], conn => .ok conn
  | msg :: msgs, conn => do
      let data ← Echosvr.onMsg left msg
      let (next, _) ← conn.send true data []
      answerAll left msgs next

/-- A call; one that stops, and a result that `::send` cannot have, have no successor. -/
def step (left : Bytes → Req wire) (fuel : ℕ) (state : Echo) : EchoCall → Option Echo
  | .read call =>
      match state.conn.onMsg fuel call.past call.now call.reads with
      | some (.ok got) =>
          match answerAll left got.msgs got.conn with
          | .ok conn => some { state with
              conn := conn
              received := state.received ++ readBytes call.reads.interim }
          | .error _ => none
      | _ => none
  | .write sent =>
      if Offered state.conn.outputBuf.size sent then
        match state.conn.writecb sent with
        | .ok (conn, _) => some { state with
            conn := conn
            accepted := state.accepted ++ state.conn.outputBuf.buf.take sent.toNat }
        | .error _ => none
      else none

/-- What the requests are written as. -/
def payloads (requests : List (Req wire)) : List Bytes :=
  requests.map (Req.messageClass wire).internalSerialize

/-- Requests that can be read back. -/
def Fit (requests : List (Req wire)) : Prop :=
  ∀ req ∈ requests, req.Legal ∧ (Req.messageClass wire).byteSizeLong req ≤ sizeLimit

/-- Reads return whole frames of the stream of the requests, and writes fail or are taken whole. -/
def Follows (requests : List (Req wire)) (state : Echo) : EchoCall → Prop
  | .read call =>
      WholeFrames call ∧ call.reads.ending = .eagain ∧
        ∃ more, state.received ++ readBytes call.reads.interim ++ more =
          headerFormat.stream (payloads requests)
  | .write sent =>
      sent = -1 ∨ sent = state.conn.outputBuf.size ∧ (sent = 0 ∨ 0 < toInt sent)

/-- The requests whose frames have arrived have been answered, each once and in order. -/
def Answered (requests : List (Req wire)) (state : Echo) : Prop :=
  state.accepted ++ state.conn.outputBuf.buf =
    (requests.take (headerFormat.complete (payloads requests) state.received.length).length).flatMap
      reply

/-! ### Replies -/

theorem length_decimal {value : ℕ} (small : value < 10 ^ 10) : (decimal value).length ≤ 10 := by
  unfold decimal
  split
  · decide
  · rw [List.length_map, List.length_reverse]
    exact (Nat.digits_length_le_iff (by decide) value).mpr small

theorem length_toText (value : BitVec 32) : (toText value.toInt).length ≤ 11 := by
  have low := BitVec.le_toInt value
  have high : value.toInt < 2 ^ 31 := BitVec.toInt_lt
  have digits : (decimal value.toInt.natAbs).length ≤ 10 := length_decimal (by omega)
  unfold toText
  split
  · exact Nat.succ_le_succ digits
  · omega

theorem length_reply {req : Req wire} (small : (Req.messageClass wire).byteSizeLong req ≤ sizeLimit) :
    (reply req).length ≤ maxSize := by
  have digits := length_toText req.id
  have name : req.name.length ≤ req.byteSizeLong := by
    have text := length_le_text wire req.name
    unfold Req.byteSizeLong
    omega
  have bound : req.byteSizeLong ≤ sizeLimit := small
  unfold sizeLimit at bound
  unfold reply maxSize
  simp only [List.length_append, List.length_cons, List.length_nil]
  omega

/-- **A request that is read back is answered.** -/
theorem onMsg_serialized (left : Bytes → Req wire) {req : Req wire} (legal : req.Legal)
    (small : (Req.messageClass wire).byteSizeLong req ≤ sizeLimit) :
    Echosvr.onMsg left ((Req.messageClass wire).internalSerialize req) =
      .ok ⟨reply req, length_reply small⟩ := by
  obtain ⟨data, written, _, parsed⟩ := (Req.faithful wire).round_trip legal small
  have serialized : data = (Req.messageClass wire).internalSerialize req := by
    unfold MessageClass.serializeToString at written
    split at written
    · exact (Option.some.inj written).symm
    · cases written
  rw [serialized] at parsed
  unfold Echosvr.onMsg
  simp only [parsed, Option.getD_some, dif_pos (length_reply small)]

/-- `connect::send` on the loop's thread, on a live connection. -/
theorem send_live {conn : Connect} (live : conn.Live) (data : Block) :
    ∃ next, conn.send true data [] = .ok (next, []) ∧ next.Live ∧ next.inputBuf = conn.inputBuf ∧
      next.outputBuf.buf = conn.outputBuf.buf ++ data.bytes := by
  obtain ⟨next, sent, same⟩ : ∃ next, conn.sendInLoop data.bytes data.bytes.length = .ok next ∧
      next = { conn with
        outputBuf := { conn.outputBuf with buf := conn.outputBuf.buf ++ data.bytes }
        cchnl := (conn.cchnl.setEvs (conn.cchnl.chnl.evs ||| epollOut)).enlisted } :=
    ⟨_, Connect.sendInLoop_live live data, rfl⟩
  refine ⟨next, ?_, ?_, ?_, ?_⟩
  · unfold Connect.send
    rw [live.connected, sent]
    rfl
  · rw [same]
    exact live.enlist _ _
  · rw [same]
  · rw [same]

/-- **The replies to some requests** are appended to `_output_buf`, one behind the other. -/
theorem answerAll_serialized (left : Bytes → Req wire) {requests : List (Req wire)}
    (fit : Fit requests) {conn : Connect} (live : conn.Live) :
    ∃ next, answerAll left (payloads requests) conn = .ok next ∧ next.Live ∧
      next.inputBuf = conn.inputBuf ∧
      next.outputBuf.buf = conn.outputBuf.buf ++ requests.flatMap reply := by
  induction requests generalizing conn with
  | nil => exact ⟨conn, rfl, live, rfl, (List.append_nil _).symm⟩
  | cons req requests ih =>
      obtain ⟨legal, small⟩ := fit req List.mem_cons_self
      obtain ⟨middle, sent, armed, sameInput, replied⟩ :=
        send_live live ⟨reply req, length_reply small⟩
      obtain ⟨next, rest, still, input, output⟩ :=
        ih (fun other member => fit other (List.mem_cons_of_mem _ member)) armed
      refine ⟨next, ?_, still, input.trans sameInput, ?_⟩
      · unfold payloads answerAll
        simp only [List.map_cons, bind, Except.bind]
        rw [onMsg_serialized left legal small]
        simp only [sent]
        exact rest
      · rw [output, replied, List.flatMap_cons, List.append_assoc]

/-- A call of `on_msg` up to `EAGAIN` changes `_input_buf` and the time of the last message. -/
theorem onMsg_keeps {conn : Connect} {fuel : ℕ} {call : Call} {got : Connect.Received}
    (ending : call.reads.ending = .eagain)
    (ended : conn.onMsg fuel call.past call.now call.reads = some (.ok got)) :
    ∃ inputBuf lastAtTime, got.conn =
      { conn with inputBuf := inputBuf, lastAtTime := lastAtTime } := by
  cases read : readLoop call.reads.interim conn.inputBuf with
  | error stop =>
      rw [Connect.onMsg_stops read] at ended
      cases ended
  | ok out =>
      rw [Connect.onMsg_eagain read ending, Option.map_eq_some_iff] at ended
      obtain ⟨inner, _, mapped⟩ := ended
      obtain ⟨out, _, rfl⟩ := map_eq_ok.mp mapped
      exact ⟨_, _, rfl⟩

/-! ### The invariant -/

/-- The first requests have been answered, and what is left of their frames waits in `_input_buf`. -/
structure Serving (requests : List (Req wire)) (state : Echo) : Prop where
  live : state.conn.Live
  answered : ∃ done rest held, requests = done ++ rest ∧
    Drains headerFormat.parser state.received (payloads done) held ∧
    state.conn.inputBuf = { buf := held } ∧
    state.accepted ++ state.conn.outputBuf.buf = done.flatMap reply
  follows : ∃ more, state.received ++ more = headerFormat.stream (payloads requests)

theorem fits_payloads {requests : List (Req wire)} (fit : Fit requests) :
    headerFormat.Fits (payloads requests) := by
  intro payload member
  obtain ⟨req, known, rfl⟩ := List.mem_map.mp member
  rw [(Req.faithful wire).length req, headerFormat_limit]
  exact (fit req known).2.trans (by decide)

/-- The payloads taken off the front are those of the first requests. -/
theorem payloads_split {requests : List (Req wire)} {taken rest : List Bytes}
    (split : payloads requests = taken ++ rest) :
    ∃ done later, requests = done ++ later ∧ payloads done = taken ∧ payloads later = rest :=
  List.map_eq_append_iff.mp split

theorem Serving.answers {requests : List (Req wire)} {state : Echo} (fit : Fit requests)
    (serving : Serving requests state) : Answered requests state := by
  obtain ⟨done, rest, held, split, drains, _, books⟩ := serving.answered
  obtain ⟨more, follows⟩ := serving.follows
  unfold Answered
  rw [← LengthPrefix.Drains.eq_complete drains (fits_payloads fit) follows, books, split]
  unfold payloads
  rw [List.length_map, List.take_left]

/-- **A call of `on_msg` answers the requests whose frames it completes.** -/
theorem read_serving {requests : List (Req wire)} (fit : Fit requests) (left : Bytes → Req wire)
    {fuel : ℕ} (enough : requests.length < fuel) {state : Echo} (serving : Serving requests state)
    {call : Call} (follows : Follows requests state (.read call)) :
    ∃ next, step left fuel state (.read call) = some next ∧ Serving requests next := by
  obtain ⟨whole, ending, more, split⟩ := follows
  obtain ⟨done, rest, held, parts, drained, holding, books⟩ := serving.answered
  have fits := fits_payloads fit
  obtain ⟨later, held', after, drains, handled, holdingAfter⟩ := onMsg_stream fits drained split whole
    ending holding (by rw [payloads, List.length_map]; exact enough)
  obtain ⟨final, tail, _, _⟩ := LengthPrefix.Drains.stream_split drains fits split
  rw [List.append_assoc] at tail
  rw [parts] at tail
  have behind : payloads rest = later ++ final := by
    unfold payloads at tail ⊢
    rw [List.map_append, List.append_cancel_left_eq] at tail
    exact tail
  obtain ⟨now, still, rfl, rfl, _⟩ := payloads_split behind
  obtain ⟨inputBuf, lastAtTime, same⟩ := onMsg_keeps ending handled
  simp only at same
  have live : after.Live := by
    rw [same]
    exact serving.live.of_eq rfl rfl
  have fitNow : Fit now := fun req member => fit req (by
    rw [parts]
    exact List.mem_append_right _ (List.mem_append_left _ member))
  obtain ⟨next, sent, nextLive, input, output⟩ := answerAll_serialized left fitNow live
  refine ⟨{ state with conn := next, received := state.received ++ readBytes call.reads.interim },
    ?_, nextLive, ⟨done ++ now, still, held', ?_, ?_, ?_, ?_⟩, more, split⟩
  · simp only [step, handled, sent]
  · rw [parts, List.append_assoc]
  · unfold payloads at drains ⊢
    rw [List.map_append]
    exact drains
  · rw [input]
    exact holdingAfter
  · simp only
    rw [output, same, ← List.append_assoc, books, List.flatMap_append]

/-- **A call of `writecb` that fails or is taken whole** moves bytes to the socket. -/
theorem write_serving {requests : List (Req wire)} (left : Bytes → Req wire) {fuel : ℕ} {state : Echo}
    (serving : Serving requests state) {sent : ℤ} (whole : Follows requests state (.write sent)) :
    ∃ next, step left fuel state (.write sent) = some next ∧ Serving requests next := by
  have offered : Offered state.conn.outputBuf.size sent := by
    rcases whole with failed | ⟨all, _⟩
    · exact .inl failed
    · exact .inr ⟨by omega, by omega, by omega⟩
  obtain ⟨done, rest, held, parts, drained, holding, books⟩ := serving.answered
  have moved := (take_unsent_iff offered).mpr whole
  have total : state.accepted ++ state.conn.outputBuf.buf.take sent.toNat ++
      (Connect.unsent sent state.conn.outputBuf).buf = done.flatMap reply := by
    rw [List.append_assoc, moved, books]
  simp only [step]
  rw [if_pos offered, Connect.writecb_live serving.live]
  by_cases emptied : (Connect.unsent sent state.conn.outputBuf).size = 0
  · rw [if_pos emptied]
    exact ⟨_, rfl, serving.live.enlist _ _, ⟨done, rest, held, parts, drained, holding, total⟩,
      serving.follows⟩
  · rw [if_neg emptied]
    exact ⟨_, rfl, serving.live.of_eq rfl rfl, ⟨done, rest, held, parts, drained, holding, total⟩,
      serving.follows⟩

theorem step_serving {requests : List (Req wire)} (fit : Fit requests) (left : Bytes → Req wire)
    {fuel : ℕ} (enough : requests.length < fuel) {state : Echo} (serving : Serving requests state)
    {call : EchoCall} (follows : Follows requests state call) :
    ∃ next, step left fuel state call = some next ∧ Serving requests next := by
  cases call with
  | read call => exact read_serving fit left enough serving follows
  | write sent => exact write_serving left serving follows

/-! ### Runs -/

theorem run_serving {requests : List (Req wire)} (fit : Fit requests) (left : Bytes → Req wire)
    {fuel : ℕ} (enough : requests.length < fuel) {state : Echo} (serving : Serving requests state)
    {calls : List EchoCall} (follows : Along (step left fuel) (Follows requests) state calls) :
    Always (step left fuel) (Serving requests) state calls := by
  induction calls generalizing state with
  | nil => exact serving
  | cons call calls ih =>
      refine ⟨serving, fun next took => ?_⟩
      obtain ⟨allowed, later⟩ := follows next took
      obtain ⟨reached, same, served⟩ := step_serving fit left enough serving allowed
      obtain rfl := Option.some.inj (took.symm.trans same)
      exact ih served later

/-- **Every request is answered once, in order.** On a live connection that has received nothing,
with reads that return whole frames of the stream of the requests, and writes that fail or are taken
whole, in whatever order: in every state what the socket has accepted and what waits in `_output_buf`
are the replies to the requests whose frames have arrived, and no such call stops. -/
theorem requests_answered {requests : List (Req wire)} (fit : Fit requests) (left : Bytes → Req wire)
    {fuel : ℕ} (enough : requests.length < fuel) {conn : Connect} (live : conn.Live)
    (fresh : conn.inputBuf = {}) (idle : conn.outputBuf.buf = []) {calls : List EchoCall}
    (follows : Along (step left fuel) (Follows requests) { conn := conn } calls) :
    Always (step left fuel) (fun state => Answered requests state ∧
      ∀ call, Follows requests state call → ∃ next, step left fuel state call = some next)
      { conn := conn } calls := by
  have serving : Serving requests { conn := conn } :=
    ⟨live, ⟨[], requests, [], rfl, LengthPrefix.drains_nil, fresh, idle⟩, _, rfl⟩
  refine (run_serving fit left enough serving follows).mono fun state serving => ⟨serving.answers fit,
    fun call allowed => ?_⟩
  obtain ⟨next, took, _⟩ := step_serving fit left enough serving allowed
  exact ⟨next, took⟩

/-- The frame of the first of the two requests. -/
def requestFrame : Chunk where
  bytes := [18, 0, 0, 0, 10, 5, 10, 3, 114, 101, 113, 16, 255, 255, 255, 255, 255, 255, 255, 255, 255,
    1]
  nonempty := by decide
  fits := by decide

/-- One of two requests has arrived, and its reply waits. -/
theorem requests_answered_one :
    Always (step (fun _ => ({} : Req Wire.base128)) 3) (fun state => Answered twoRequests state ∧
      ∀ call, Follows twoRequests state call →
        ∃ next, step (fun _ => ({} : Req Wire.base128)) 3 state call = some next)
      { conn := quietConnect } [.read (callOf [requestFrame]), .write (-1)] := by
  refine requests_answered twoRequests_legal _ (by decide) quietConnect_live rfl rfl ?_
  intro middle _
  refine ⟨⟨by decide +kernel, rfl, [8, 0, 0, 0, 10, 0, 26, 1, 97, 32, 172, 2], ?_⟩,
    fun next _ => ⟨.inl rfl, trivial⟩⟩
  decide +kernel

/-! ### Conversations -/

/-- One read of the call returns the data, and the call ends with `EAGAIN`. -/
def Hears (call : Call) (data : Bytes) : Prop :=
  call.reads.ending = .eagain ∧ ∃ chunk, chunks call.reads.interim = [chunk] ∧ chunk.bytes = data

/-- A client that waits for the reply to each request before it sends the next, and a socket that
takes each reply whole. -/
def conversation (talk : List (Req wire × Call)) : List EchoCall :=
  talk.flatMap fun turn => [.read turn.2, .write (reply turn.1).length]

theorem step_read {left : Bytes → Req wire} {fuel : ℕ} {state next : Echo} {call : Call}
    (took : step left fuel state (.read call) = some next) :
    next.received = state.received ++ readBytes call.reads.interim ∧
      next.accepted = state.accepted := by
  simp only [step] at took
  split at took
  · split at took
    · cases took
      exact ⟨rfl, rfl⟩
    · cases took
  · cases took

theorem step_write {left : Bytes → Req wire} {fuel : ℕ} {state next : Echo} {sent : ℤ}
    (took : step left fuel state (.write sent) = some next) :
    next.received = state.received ∧
      next.accepted = state.accepted ++ state.conn.outputBuf.buf.take sent.toNat ∧
      next.conn.outputBuf = Connect.unsent sent state.conn.outputBuf := by
  simp only [step] at took
  split at took
  · rw [Connect.writecb_eq] at took
    by_cases empty : (Connect.unsent sent state.conn.outputBuf).size = 0
    · rw [if_pos empty] at took
      cases disarmed : state.conn.cchnl.disenableWrite with
      | error stop =>
          rw [disarmed] at took
          cases took
      | ok cchnl =>
          rw [disarmed] at took
          cases took
          exact ⟨rfl, rfl, rfl⟩
    · rw [if_neg empty] at took
      cases took
      exact ⟨rfl, rfl, rfl⟩
  · cases took

theorem Hears.readBytes_eq {call : Call} {data : Bytes} (hears : Hears call data) :
    readBytes call.reads.interim = data := by
  obtain ⟨_, chunk, only, rfl⟩ := hears
  rw [readBytes, only, List.flatMap_singleton]

/-- A read that returns the frame of a payload returns a whole frame. -/
theorem Hears.whole {call : Call} {payload : Bytes} (small : payload.length ≤ frameLimit)
    (hears : Hears call (headerFormat.frame payload)) : WholeFrames call := by
  obtain ⟨_, chunk, only, bytes⟩ := hears
  intro other member
  rw [only] at member
  obtain rfl := List.mem_singleton.mp member
  have length : (headerFormat.frame payload).length = 4 + payload.length := by
    rw [LengthPrefix.frame_length, headerFormat_width]
  have header : chunkHeader other = payload.length := by
    have front : localBuf other = sizeBytes payload.length ++
        (payload ++ List.replicate (bufSize - other.bytes.length) 0) := by
      rw [localBuf, bytes, ← List.append_assoc]
      rfl
    unfold frameLimit at small
    rw [chunkHeader, front, readInt_sizeBytes (by unfold intMax; omega)]
  rw [header, bytes, length]
  omega

/-- A request that one read returns has a short reply. -/
theorem Hears.reply_short {call : Call} {req : Req wire}
    (hears : Hears call (headerFormat.frame ((Req.messageClass wire).internalSerialize req))) :
    (reply req).length ≤ 2 * bufSize := by
  obtain ⟨_, chunk, _, bytes⟩ := hears
  have fits := chunk.fits
  have length : ((Req.messageClass wire).internalSerialize req).length = req.byteSizeLong :=
    (Req.faithful wire).length req
  have name : req.name.length ≤ req.byteSizeLong := by
    have text := length_le_text wire req.name
    unfold Req.byteSizeLong
    omega
  have digits := length_toText req.id
  rw [bytes, LengthPrefix.frame_length, headerFormat_width, length] at fits
  unfold reply bufSize
  unfold bufSize at fits
  simp only [List.length_append, List.length_cons, List.length_nil]
  omega

section Rounds

variable {requests before after : List (Req wire)}

theorem stream_payloads (before after : List (Req wire)) :
    headerFormat.stream (payloads (before ++ after)) =
      headerFormat.stream (payloads before) ++ headerFormat.stream (payloads after) := by
  unfold payloads LengthPrefix.stream
  rw [List.map_append, List.flatMap_append]

/-- Once the frames of the first requests have arrived, and no more, these have been answered. -/
theorem Serving.answers_prefix (fit : Fit requests) (parts : requests = before ++ after) {state : Echo}
    (serving : Serving requests state)
    (received : state.received = headerFormat.stream (payloads before)) :
    state.accepted ++ state.conn.outputBuf.buf = before.flatMap reply := by
  have answered := serving.answers fit
  have fitsBefore : headerFormat.Fits (payloads before) := fits_payloads fun req member => fit req (by
    rw [parts]
    exact List.mem_append_left _ member)
  have split : state.received ++ headerFormat.stream (payloads after) =
      headerFormat.stream (payloads requests) := by
    rw [received, parts, stream_payloads]
  have drains := LengthPrefix.drains_stream fitsBefore
  rw [← received] at drains
  unfold Answered at answered
  rw [← LengthPrefix.Drains.eq_complete drains (fits_payloads fit) split] at answered
  rw [answered, parts]
  unfold payloads
  rw [List.length_map, List.take_left]

/-- **One round of a conversation**, behind the rounds of `before`. -/
theorem round_answered {req : Req wire} {call : Call} (fit : Fit requests)
    (parts : requests = before ++ ([req] ++ after)) (left : Bytes → Req wire) {fuel : ℕ}
    (enough : requests.length < fuel)
    (hears : Hears call (headerFormat.frame ((Req.messageClass wire).internalSerialize req)))
    {state : Echo} (serving : Serving requests state)
    (received : state.received = headerFormat.stream (payloads before))
    (accepted : state.accepted = before.flatMap reply) :
    ∃ middle next, step left fuel state (.read call) = some middle ∧
      step left fuel middle (.write (reply req).length) = some next ∧ Serving requests next ∧
      next.received = headerFormat.stream (payloads (before ++ [req])) ∧
      next.accepted = (before ++ [req]).flatMap reply := by
  have member : req ∈ requests := by
    rw [parts]
    simp
  have small : ((Req.messageClass wire).internalSerialize req).length ≤ frameLimit :=
    length_le_of_fits (fits_payloads fit) (List.mem_map.mpr ⟨req, member, rfl⟩)
  have single : headerFormat.stream (payloads [req]) =
      headerFormat.frame ((Req.messageClass wire).internalSerialize req) :=
    List.flatMap_singleton _ _
  have allowed : Follows requests state (.read call) := by
    refine ⟨hears.whole small, hears.1, headerFormat.stream (payloads after), ?_⟩
    rw [received, hears.readBytes_eq, parts, stream_payloads, stream_payloads, single,
      List.append_assoc]
  obtain ⟨middle, read, served⟩ := step_serving fit left enough serving allowed
  obtain ⟨arrived, unmoved⟩ := step_read read
  have heard : middle.received = headerFormat.stream (payloads (before ++ [req])) := by
    rw [arrived, received, hears.readBytes_eq, stream_payloads, single]
  have pending : middle.conn.outputBuf.buf = reply req := by
    have books := served.answers_prefix fit (by rw [parts, List.append_assoc]) heard
    rw [unmoved, accepted, List.flatMap_append, List.append_cancel_left_eq,
      List.flatMap_singleton] at books
    exact books
  have size : middle.conn.outputBuf.size = (reply req).length := congrArg List.length pending
  have whole : Follows requests middle (.write (reply req).length) := by
    have short := hears.reply_short
    unfold bufSize at short
    refine .inr ⟨by rw [size], .inr ?_⟩
    rw [toInt_of_small (by omega) (by unfold intMax; omega)]
    unfold reply
    simp only [List.length_append, List.length_cons, List.length_nil]
    omega
  obtain ⟨next, wrote, still⟩ := step_serving fit left enough served whole
  obtain ⟨same, moved, _⟩ := step_write wrote
  refine ⟨middle, next, read, wrote, still, same.trans heard, ?_⟩
  rw [moved, unmoved, accepted, pending, Int.toNat_natCast, List.take_length, List.flatMap_append,
    List.flatMap_singleton]

/-- **A conversation**: each request is answered before the next one is sent. -/
theorem conversation_answered (fit : Fit requests) (left : Bytes → Req wire) {fuel : ℕ}
    (enough : requests.length < fuel) {talk : List (Req wire × Call)}
    (parts : requests = before ++ talk.map Prod.fst)
    (hears : ∀ turn ∈ talk,
      Hears turn.2 (headerFormat.frame ((Req.messageClass wire).internalSerialize turn.1)))
    {state : Echo} (serving : Serving requests state)
    (received : state.received = headerFormat.stream (payloads before))
    (accepted : state.accepted = before.flatMap reply) :
    ∃ final, exec (step left fuel) state (conversation talk) = some final ∧
      final.accepted = requests.flatMap reply := by
  induction talk generalizing before state with
  | nil =>
      rw [List.map_nil, List.append_nil] at parts
      exact ⟨state, rfl, by rw [parts, accepted]⟩
  | cons turn talk ih =>
      obtain ⟨middle, next, read, wrote, still, heard, answered⟩ := round_answered fit parts left enough
        (hears turn List.mem_cons_self) serving received accepted
      obtain ⟨final, ran, all⟩ := ih (by rw [parts, List.append_assoc]; rfl)
        (fun other member => hears other (List.mem_cons_of_mem _ member)) still heard answered
      refine ⟨final, ?_, all⟩
      rw [conversation, List.flatMap_cons, List.cons_append, List.cons_append, List.nil_append, exec,
        read, Option.bind_some, exec, wrote, Option.bind_some]
      exact ran

end Rounds

end Echo

end IkunSvr
