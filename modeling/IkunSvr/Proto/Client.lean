/-
**The test client: what it sends, and what it is sent.**

`work` sends a `req` with the header `"req"`, the number 123 and the name
`"client_<idx> hello, <num>"`, behind its `ByteSize` in an array of 1024 bytes, and waits for the
reply before it sends the next.

* `frame_eq` — what it sends is the frame of a request that can be read back, and takes at most 52
  bytes, whatever the two numbers;
* `client_answered` — **a client gets its own words back**: a server without worker threads sends it
  `"reply: 123 client_<idx> hello, <num>"` in every round `num`.
-/

import IkunSvr.Proto.Echo

namespace IkunSvr

open Framing Run

namespace Client

/-! ### What it sends -/

/-- `"client_" + std::to_string(idx) + " hello, " + std::to_string(num)`. -/
def greeting (idx num : ℤ) : Bytes :=
  [99, 108, 105, 101, 110, 116, 95] ++ (toText idx ++
    ([32, 104, 101, 108, 108, 111, 44, 32] ++ toText num))

/-- The request of `work`: the header is set by `CopyFrom`. -/
def request (wire : Wire) (idx num : BitVec 32) : Req wire where
  header := some ((ProtocolHeader.messageClass wire).copyFrom { protocolName := [114, 101, 113] })
  id := 123
  name := greeting idx.toInt num.toInt

/-- `sizeof(tmp)`. -/
def tmpSize : ℕ := 1024

/-- What `work` puts in `tmp` and sends. -/
def frame (wire : Wire) (idx num : BitVec 32) : Except Stop Bytes := do
  let byteSer := ((Req.messageClass wire).serializeToString (request wire idx num)).getD []
  let len := (Req.messageClass wire).byteSizeLong (request wire idx num)
  if tmpSize < len + 4 then .error .outOfBounds
  else do
    let body ← memcpy byteSer len
    return sizeBytes len ++ body

/-- `"reply: 123 client_<idx> hello, <num>"`. -/
def expected (idx num : ℤ) : Bytes :=
  [114, 101, 112, 108, 121, 58, 32, 49, 50, 51, 32] ++ greeting idx num

/-! ### Its texts are ASCII, and short -/

theorem decimal_ascii (value : ℕ) : ascii (decimal value) = true := by
  unfold decimal
  split
  · rfl
  · refine List.all_eq_true.mpr fun byte member => ?_
    obtain ⟨digit, known, rfl⟩ := List.mem_map.mp member
    have low : digit < 10 := Nat.digits_lt_base (by decide) (List.mem_reverse.mp known)
    rw [decide_eq_true_iff, UInt8.lt_iff_toNat_lt, Varint.toNat_byte (by omega)]
    show 48 + digit < 128
    omega

theorem toText_ascii (value : ℤ) : ascii (toText value) = true := by
  unfold toText
  split
  · rw [ascii, List.all_cons]
    exact decimal_ascii _
  · exact decimal_ascii _

theorem greeting_ascii (idx num : ℤ) : ascii (greeting idx num) = true := by
  have texts := toText_ascii
  unfold ascii at texts
  unfold greeting ascii
  rw [List.all_append, List.all_append, List.all_append, texts, texts]
  rfl

theorem length_greeting (idx num : BitVec 32) : (greeting idx.toInt num.toInt).length ≤ 37 := by
  have first := Echo.length_toText idx
  have second := Echo.length_toText num
  unfold greeting
  simp only [List.length_append, List.length_cons, List.length_nil]
  omega

theorem request_header (wire : Wire) (idx num : BitVec 32) :
    (request wire idx num).header = some { protocolName := [114, 101, 113] } :=
  congrArg some ((ProtocolHeader.faithful wire).copy _)

theorem request_legal (wire : Wire) (idx num : BitVec 32) : (request wire idx num).Legal where
  header header same := by
    rw [request_header] at same
    cases same
    exact ⟨wire.verifyUTF8_ascii _ rfl, by simp⟩
  name := wire.verifyUTF8_ascii _ (greeting_ascii _ _)
  metadata := by simp [request]

/-- A short text takes its length and two bytes more. -/
theorem textSize_le (wire : Wire) {str : Bytes} (short : str.length < 128) :
    textSize wire str ≤ 2 + str.length := by
  unfold textSize
  split
  · have parts : wire.stringSize str = wire.length.size str.length + str.length := rfl
    have one := wire.length_size str.length short
    omega
  · omega

theorem byteSizeLong_le (wire : Wire) (idx num : BitVec 32) :
    (Req.messageClass wire).byteSizeLong (request wire idx num) ≤ 48 := by
  have greets := length_greeting idx num
  have name : textSize wire (greeting idx.toInt num.toInt) ≤
      2 + (greeting idx.toInt num.toInt).length :=
    textSize_le wire (by omega)
  have inner : ProtocolHeader.byteSizeLong ({ protocolName := [114, 101, 113] } : ProtocolHeader wire) ≤
      5 :=
    textSize_le wire (by decide : ([114, 101, 113] : Bytes).length < 128)
  have header : headerSize (request wire idx num).header ≤ 7 := by
    rw [request_header, headerSize, Wire.messageSize, wire.length_size _ (by omega)]
    omega
  have id : wire.int32Size 123 = 1 := wire.varint_size _ (by decide)
  have parts : (Req.messageClass wire).byteSizeLong (request wire idx num) =
      textSize wire (greeting idx.toInt num.toInt) +
        headerSize (request wire idx num).header + (1 + wire.int32Size 123) + 0 := by
    rfl
  omega

/-- **What a client sends**: the frame of its request, in `tmp` and in one read of the server. -/
theorem frame_eq (wire : Wire) (idx num : BitVec 32) :
    frame wire idx num = .ok (headerFormat.frame
        ((Req.messageClass wire).internalSerialize (request wire idx num))) ∧
      (headerFormat.frame ((Req.messageClass wire).internalSerialize (request wire idx num))).length ≤
        52 := by
  have size := byteSizeLong_le wire idx num
  have length := (Req.faithful wire).length (request wire idx num)
  have written : (Req.messageClass wire).serializeToString (request wire idx num) =
      some ((Req.messageClass wire).internalSerialize (request wire idx num)) := by
    refine if_pos (le_trans size (by decide))
  constructor
  · unfold frame
    rw [written, Option.getD_some, if_neg (by unfold tmpSize; omega), ← length]
    unfold memcpy
    rw [if_neg (Nat.lt_irrefl _), List.take_length]
    rfl
  · rw [LengthPrefix.frame_length, headerFormat_width, length]
    omega

theorem reply_request (wire : Wire) (idx num : BitVec 32) :
    reply (request wire idx num) = expected idx.toInt num.toInt := by
  have digits : toText (123 : BitVec 32).toInt = [49, 50, 51] := by
    have value : (123 : BitVec 32).toInt = 123 := by decide
    rw [value]
    simp [toText, decimal]
  unfold reply expected
  rw [show (request wire idx num).id = 123 from rfl, digits]
  rfl

/-! ### What it is sent -/

/-- The requests of the first rounds. -/
def requests (wire : Wire) (idx : BitVec 32) (rounds : ℕ) : List (Req wire) :=
  (List.range rounds).map fun round => request wire idx (BitVec.ofNat 32 (round + 1))

theorem requests_fit (wire : Wire) (idx : BitVec 32) (rounds : ℕ) :
    Echo.Fit (requests wire idx rounds) := by
  intro req member
  obtain ⟨round, _, rfl⟩ := List.mem_map.mp member
  exact ⟨request_legal wire _ _, (byteSizeLong_le wire _ _).trans (by decide)⟩

theorem replies_expected (wire : Wire) (idx : BitVec 32) {rounds : ℕ} (few : rounds < 2 ^ 31) :
    (requests wire idx rounds).flatMap reply =
      (List.range rounds).flatMap fun round : ℕ => expected idx.toInt (round + 1) := by
  unfold requests
  rw [List.flatMap_map]
  refine List.flatMap_congr fun round member => ?_
  have early : round < rounds := List.mem_range.mp member
  have num : (BitVec.ofNat 32 (round + 1)).toInt = round + 1 := by
    rw [BitVec.toInt_eq_toNat_of_lt (by rw [BitVec.toNat_ofNat]; omega), BitVec.toNat_ofNat,
      Nat.mod_eq_of_lt (by omega)]
    rfl
  rw [reply_request, num]

/-- **A client of the repository gets its own words back** from a server without worker threads. On a
live connection that has received nothing, each frame that `work` sends being returned by one read and each reply being taken whole,
the client is sent `"reply: 123 client_<idx> hello, <num>"` in every round `num`. -/
theorem client_answered (wire : Wire) (left : Bytes → Req wire) (idx : BitVec 32) {calls : List Call}
    (few : calls.length < 2 ^ 31)
    (hears : ∀ round (within : round < calls.length), ∃ data,
      frame wire idx (BitVec.ofNat 32 (round + 1)) = .ok data ∧
        Echo.Hears (calls.get ⟨round, within⟩) data)
    {fuel : ℕ} (enough : calls.length < fuel) {conn : Connect} (live : conn.Live)
    (fresh : conn.inputBuf = {}) (idle : conn.outputBuf.buf = []) :
    ∃ final, exec (Echo.step left fuel) { conn := conn }
        (Echo.conversation ((requests wire idx calls.length).zip calls)) = some final ∧
      final.accepted =
        (List.range calls.length).flatMap fun round : ℕ => expected idx.toInt (round + 1) := by
  have fit := requests_fit wire idx calls.length
  have size : (requests wire idx calls.length).length = calls.length := by
    rw [requests, List.length_map, List.length_range]
  have serving : Echo.Serving (requests wire idx calls.length) { conn := conn } :=
    ⟨live, ⟨[], _, [], rfl, LengthPrefix.drains_nil, fresh, idle⟩, _, rfl⟩
  rw [← replies_expected wire idx few]
  have parts : requests wire idx calls.length =
      [] ++ ((requests wire idx calls.length).zip calls).map Prod.fst := by
    rw [List.map_fst_zip (le_of_eq size)]
    rfl
  refine Echo.conversation_answered fit left (by rw [size]; exact enough) parts (fun turn member => ?_)
    serving rfl rfl
  obtain ⟨round, within, same⟩ := List.mem_iff_getElem.mp member
  have early : round < calls.length := by
    rw [List.length_zip, size, Nat.min_self] at within
    exact within
  obtain ⟨data, sent, hear⟩ := hears round early
  have asked : turn.1 = request wire idx (BitVec.ofNat 32 (round + 1)) := by
    rw [← same, List.getElem_zip]
    simp only [requests, List.getElem_map, List.getElem_range]
  have called : turn.2 = calls.get ⟨round, early⟩ := by
    rw [← same, List.getElem_zip]
    rfl
  rw [(frame_eq wire idx _).1] at sent
  cases sent
  rw [asked, called]
  exact hear

/-- The first frame of the first client. -/
def firstFrame : Chunk where
  bytes := headerFormat.frame
    ((Req.messageClass Wire.base128).internalSerialize (request Wire.base128 0 1))
  nonempty := by
    intro empty
    have size := congrArg List.length empty
    rw [LengthPrefix.frame_length, headerFormat_width, List.length_nil] at size
    omega
  fits := (frame_eq Wire.base128 0 1).2.trans (by decide)

/-- The first round of the first client. -/
theorem client_answered_first :
    ∃ final, exec (Echo.step (fun _ => ({} : Req Wire.base128)) 2) { conn := quietConnect }
        (Echo.conversation ((requests Wire.base128 0 1).zip [callOf [firstFrame]])) = some final ∧
      final.accepted = expected 0 1 := by
  have heard : ∀ round (within : round < [callOf [firstFrame]].length), ∃ data,
      frame Wire.base128 0 (BitVec.ofNat 32 (round + 1)) = .ok data ∧
        Echo.Hears ([callOf [firstFrame]].get ⟨round, within⟩) data := by
    intro round within
    obtain rfl : round = 0 := Nat.lt_one_iff.mp within
    exact ⟨_, (frame_eq Wire.base128 0 1).1, rfl, firstFrame, rfl, rfl⟩
  obtain ⟨final, ran, sent⟩ := client_answered Wire.base128 (fun _ => {}) 0
    (by decide : [callOf [firstFrame]].length < 2 ^ 31) heard (by decide : 1 < 2) quietConnect_live
    rfl rfl
  exact ⟨final, ran, sent.trans (List.append_nil _)⟩

end Client

end IkunSvr
