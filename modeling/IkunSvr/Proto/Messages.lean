/-
**`client_test.proto`: the messages of the clients and of the echo server.**

`ProtocolHeader`, `Req` and `Rsp` are the generated classes, each with its parser, its writer, its
size and its merge as `client_test.pb.cc` has them; a header in a message is parsed and merged into
the one that is there. For each a `faithful` theorem collects what its functions keep between them.

* `messages_round_trip` — **what is written is read back**: `ByteSizeLong` is the number of bytes
  written, parsing them gives the message, and parsing several messages written one after the other
  gives their merge;
* `accepted_is_legal` — **what is accepted is well formed**: a message that `ParseFromString` accepts
  has UTF-8 texts and keeps only fields that it does not know, so it is written and read back.
-/

import IkunSvr.Proto.Wire

namespace IkunSvr

open Framing

variable {wire : Wire}

/-! ### The classes -/

/-- `class protocol_header`. -/
structure ProtocolHeader (wire : Wire) where
  protocolName : Bytes := []
  metadata : wire.UnknownFieldSet := []

/-- `class req`. -/
structure Req (wire : Wire) where
  header : Option (ProtocolHeader wire) := none
  id : BitVec 32 := 0
  name : Bytes := []
  metadata : wire.UnknownFieldSet := []

/-- `class rsp`. -/
structure Rsp (wire : Wire) where
  header : Option (ProtocolHeader wire) := none
  content : Bytes := []
  desc : Bytes := []
  metadata : wire.UnknownFieldSet := []

/-! ### The lines that the classes share -/

/-- `static_cast<uint8>(tag)`. -/
def lowByte (tag : BitVec 32) : BitVec 8 := tag.setWidth 8

/-- What `_InternalSerialize` writes of a string. -/
def writeText (wire : Wire) (number : ℕ) (str : Bytes) : Bytes :=
  if 0 < str.length then wire.writeStringMaybeAliased number str else []

/-- What `ByteSizeLong` adds for a string. -/
def textSize (wire : Wire) (str : Bytes) : ℕ :=
  if 0 < str.length then 1 + wire.stringSize str else 0

/-- What `MergeFrom` leaves in a string. -/
def mergeText (str source : Bytes) : Bytes :=
  if 0 < source.length then source else str

/-! ### The header -/

namespace ProtocolHeader

/-- The `switch` of `protocol_header::_InternalParse`. -/
def fields (tag : BitVec 32) : Option (FieldParser (ProtocolHeader wire)) :=
  match (tag >>> 3).toNat with
  | 1 =>
      if lowByte tag = 10 then
        some (.string wire fun header str => { header with protocolName := str })
      else none
  | _ => none

/-- `protocol_header::ByteSizeLong`. -/
def byteSizeLong (header : ProtocolHeader wire) : ℕ :=
  textSize wire header.protocolName + wire.unknownFieldsSize header.metadata

/-- `protocol_header::_InternalSerialize`. -/
def internalSerialize (header : ProtocolHeader wire) : Bytes :=
  writeText wire 1 header.protocolName ++ wire.serializeUnknownFields header.metadata

/-- `protocol_header::MergeFrom`. -/
def mergeFrom (header source : ProtocolHeader wire) : ProtocolHeader wire where
  metadata := header.metadata ++ source.metadata
  protocolName := mergeText header.protocolName source.protocolName

/-- The generated class. -/
def messageClass (wire : Wire) : MessageClass wire (ProtocolHeader wire) where
  clear := {}
  fields := fields
  unknown header := header.metadata
  setUnknown header unknown := { header with metadata := unknown }
  unknown_setUnknown _ _ := rfl
  setUnknown_setUnknown _ _ _ := rfl
  setUnknown_unknown _ := rfl
  byteSizeLong := byteSizeLong
  internalSerialize := internalSerialize
  mergeFrom := mergeFrom

/-- A header that can be read back: a UTF-8 text, and fields that no `case` names. -/
structure Legal (header : ProtocolHeader wire) : Prop where
  protocolName : wire.verifyUTF8 header.protocolName = true
  metadata : ∀ field ∈ header.metadata, (messageClass wire).Foreign field

end ProtocolHeader

/-- `_internal_mutable_header`: the header, or a new one. -/
def mutableHeader (header : Option (ProtocolHeader wire)) : ProtocolHeader wire :=
  header.getD {}

/-- What `_InternalSerialize` writes of the header: its size is the one that `ByteSizeLong` has
cached. -/
def writeHeader (header : Option (ProtocolHeader wire)) : Bytes :=
  match header with
  | some header => wire.internalWriteMessage 1 header.byteSizeLong header.internalSerialize
  | none => []

/-- What `ByteSizeLong` adds for the header. -/
def headerSize (header : Option (ProtocolHeader wire)) : ℕ :=
  match header with
  | some header => 1 + wire.messageSize header.byteSizeLong
  | none => 0

/-- What `MergeFrom` leaves in the header. -/
def mergeHeader (header source : Option (ProtocolHeader wire)) : Option (ProtocolHeader wire) :=
  match source with
  | some merged => some ((mutableHeader header).mergeFrom merged)
  | none => header

namespace Req

/-- The `switch` of `req::_InternalParse`. -/
def fields (tag : BitVec 32) : Option (FieldParser (Req wire)) :=
  match (tag >>> 3).toNat with
  | 1 =>
      if lowByte tag = 10 then
        some (.message wire (ProtocolHeader.messageClass wire).internalParse
          (fun req => mutableHeader req.header) fun req header => { req with header := some header })
      else none
  | 2 =>
      if lowByte tag = 16 then some (.int32 wire fun req value => { req with id := value })
      else none
  | 3 =>
      if lowByte tag = 26 then some (.string wire fun req str => { req with name := str })
      else none
  | _ => none

/-- `req::ByteSizeLong`. -/
def byteSizeLong (req : Req wire) : ℕ :=
  textSize wire req.name + headerSize req.header +
    (if req.id ≠ 0 then 1 + wire.int32Size req.id else 0) + wire.unknownFieldsSize req.metadata

/-- `req::_InternalSerialize`. -/
def internalSerialize (req : Req wire) : Bytes :=
  writeHeader req.header ++ ((if req.id ≠ 0 then wire.writeInt32ToArray 2 req.id else []) ++
    (writeText wire 3 req.name ++ wire.serializeUnknownFields req.metadata))

/-- `req::MergeFrom`. -/
def mergeFrom (req source : Req wire) : Req wire where
  metadata := req.metadata ++ source.metadata
  name := mergeText req.name source.name
  header := mergeHeader req.header source.header
  id := if source.id ≠ 0 then source.id else req.id

/-- The generated class. -/
def messageClass (wire : Wire) : MessageClass wire (Req wire) where
  clear := {}
  fields := fields
  unknown req := req.metadata
  setUnknown req unknown := { req with metadata := unknown }
  unknown_setUnknown _ _ := rfl
  setUnknown_setUnknown _ _ _ := rfl
  setUnknown_unknown _ := rfl
  byteSizeLong := byteSizeLong
  internalSerialize := internalSerialize
  mergeFrom := mergeFrom

/-- A request that can be read back. -/
structure Legal (req : Req wire) : Prop where
  header : ∀ header, req.header = some header → header.Legal
  name : wire.verifyUTF8 req.name = true
  metadata : ∀ field ∈ req.metadata, (messageClass wire).Foreign field

end Req

namespace Rsp

/-- The `switch` of `rsp::_InternalParse`. -/
def fields (tag : BitVec 32) : Option (FieldParser (Rsp wire)) :=
  match (tag >>> 3).toNat with
  | 1 =>
      if lowByte tag = 10 then
        some (.message wire (ProtocolHeader.messageClass wire).internalParse
          (fun rsp => mutableHeader rsp.header) fun rsp header => { rsp with header := some header })
      else none
  | 2 =>
      if lowByte tag = 18 then some (.string wire fun rsp str => { rsp with content := str })
      else none
  | 3 =>
      if lowByte tag = 26 then some (.string wire fun rsp str => { rsp with desc := str })
      else none
  | _ => none

/-- `rsp::ByteSizeLong`. -/
def byteSizeLong (rsp : Rsp wire) : ℕ :=
  textSize wire rsp.content + textSize wire rsp.desc + headerSize rsp.header +
    wire.unknownFieldsSize rsp.metadata

/-- `rsp::_InternalSerialize`. -/
def internalSerialize (rsp : Rsp wire) : Bytes :=
  writeHeader rsp.header ++ (writeText wire 2 rsp.content ++
    (writeText wire 3 rsp.desc ++ wire.serializeUnknownFields rsp.metadata))

/-- `rsp::MergeFrom`. -/
def mergeFrom (rsp source : Rsp wire) : Rsp wire where
  metadata := rsp.metadata ++ source.metadata
  content := mergeText rsp.content source.content
  desc := mergeText rsp.desc source.desc
  header := mergeHeader rsp.header source.header

/-- The generated class. -/
def messageClass (wire : Wire) : MessageClass wire (Rsp wire) where
  clear := {}
  fields := fields
  unknown rsp := rsp.metadata
  setUnknown rsp unknown := { rsp with metadata := unknown }
  unknown_setUnknown _ _ := rfl
  setUnknown_setUnknown _ _ _ := rfl
  setUnknown_unknown _ := rfl
  byteSizeLong := byteSizeLong
  internalSerialize := internalSerialize
  mergeFrom := mergeFrom

/-- A response that can be read back. -/
structure Legal (rsp : Rsp wire) : Prop where
  header : ∀ header, rsp.header = some header → header.Legal
  content : wire.verifyUTF8 rsp.content = true
  desc : wire.verifyUTF8 rsp.desc = true
  metadata : ∀ field ∈ rsp.metadata, (messageClass wire).Foreign field

end Rsp

/-! ### What the shared lines write and read -/

theorem length_text {number : ℕ} (low : number < 16) (str : Bytes) :
    (writeText wire number str).length = textSize wire str := by
  unfold writeText textSize
  split
  · exact wire.length_string low str
  · rfl

theorem length_le_text (wire : Wire) (str : Bytes) : str.length ≤ textSize wire str := by
  unfold textSize
  split
  · have parts : wire.stringSize str = wire.length.size str.length + str.length := rfl
    omega
  · omega

theorem mergeText_nil (str : Bytes) : mergeText [] str = str := by
  cases str with
  | nil => rfl
  | cons byte str => rfl

section Fields

variable {Msg : Type} (cls : MessageClass wire Msg)

theorem parse_text (number : ℕ) {set : Msg → Bytes → Msg} {str : Bytes} (get : Msg → Bytes)
    (known : cls.fields (makeTag number 2) = some (.string wire set))
    (keep : ∀ msg, set msg (get msg) = msg) (legal : wire.verifyUTF8 str = true)
    (small : textSize wire str ≤ sizeLimit) (msg : Msg) (more : Bytes) :
    cls.internalParse msg (writeText wire number str ++ more) =
      cls.internalParse (set msg (mergeText (get msg) str)) more := by
  unfold writeText mergeText
  split
  · exact cls.parse_string known legal ((length_le_text wire str).trans small) msg more
  · rw [keep]
    rfl

end Fields

/-! ### The header -/

namespace ProtocolHeader

theorem length_internalSerialize (header : ProtocolHeader wire) :
    header.internalSerialize.length = header.byteSizeLong := by
  rw [internalSerialize, List.length_append, length_text (by decide), wire.length_unknown]
  rfl

theorem fields_eq_some {tag : BitVec 32} {field : FieldParser (ProtocolHeader wire)}
    (known : fields tag = some field) :
    field = .string wire fun header str => { header with protocolName := str } := by
  unfold fields at known
  split at known
  · split at known
    · cases known
      rfl
    · cases known
  · cases known

/-- **The generated class of the header.** -/
theorem faithful (wire : Wire) : (messageClass wire).Faithful Legal where
  length := length_internalSerialize
  parse header legal small into := by
    have sizes : textSize wire header.protocolName + wire.unknownFieldsSize header.metadata ≤
      sizeLimit := small
    have text := parse_text (messageClass wire) 1 protocolName rfl (fun _ => rfl)
      legal.protocolName (Nat.le_of_add_right_le sizes) into
      (wire.serializeUnknownFields header.metadata)
    show (messageClass wire).internalParse into header.internalSerialize = _
    rw [internalSerialize, text, (messageClass wire).parse_unknown legal.metadata]
    rfl
  copy header := by
    show mergeFrom {} header = header
    rw [mergeFrom, mergeText_nil]
    rfl
  clear := ⟨wire.verifyUTF8_ascii [] rfl, by simp [messageClass]⟩
  kept {header next ptr rest} legal took := by
    obtain ⟨tag, behind, read, ⟨field, known, parsed⟩ | ⟨⟨unnamed, inside⟩, payload, found, rfl⟩⟩ :=
      (messageClass wire).turn_next took
    · obtain rfl := fields_eq_some known
      obtain ⟨str, utf8, rfl⟩ := FieldParser.string_parsed parsed
      exact ⟨utf8, legal.metadata⟩
    · exact ⟨legal.protocolName,
        (messageClass wire).foreign_append legal.metadata unnamed inside found⟩

end ProtocolHeader

section Headers

variable {Msg : Type} (cls : MessageClass wire Msg)

theorem length_header (header : Option (ProtocolHeader wire)) :
    (writeHeader header).length = headerSize header := by
  cases header with
  | none => rfl
  | some header =>
      rw [writeHeader, ← header.length_internalSerialize, wire.length_message (by decide), headerSize,
        header.length_internalSerialize]

theorem mergeHeader_none (header : Option (ProtocolHeader wire)) : mergeHeader none header = header := by
  cases header with
  | none => rfl
  | some header => exact congrArg some ((ProtocolHeader.faithful wire).copy header)

theorem parse_header {source : Option (ProtocolHeader wire)}
    (get : Msg → Option (ProtocolHeader wire)) (place : Msg → Option (ProtocolHeader wire) → Msg)
    (known : cls.fields (makeTag 1 2) = some (.message wire
      (ProtocolHeader.messageClass wire).internalParse (fun msg => mutableHeader (get msg))
      fun msg header => place msg (some header)))
    (keep : ∀ msg, place msg (get msg) = msg) (legal : ∀ header, source = some header → header.Legal)
    (small : headerSize source ≤ sizeLimit) (msg : Msg) (more : Bytes) :
    cls.internalParse msg (writeHeader source ++ more) =
      cls.internalParse (place msg (mergeHeader (get msg) source)) more := by
  cases source with
  | none =>
      rw [mergeHeader, keep]
      rfl
  | some header =>
      have fits : header.byteSizeLong ≤ sizeLimit := by
        refine le_trans ?_ small
        show header.byteSizeLong ≤ 1 + (wire.length.size header.byteSizeLong + header.byteSizeLong)
        omega
      have inner := (ProtocolHeader.faithful wire).parse header (legal header rfl) fits
        (mutableHeader (get msg))
      rw [writeHeader, ← header.length_internalSerialize]
      refine cls.parse_message known inner ?_ more
      rw [← header.length_internalSerialize] at fits
      exact fits

/-- What is parsed into a legal header is a legal header. -/
theorem header_parsed {header : Option (ProtocolHeader wire)} {body : Bytes}
    {inner : ProtocolHeader wire} (legal : ∀ known, header = some known → known.Legal)
    (parsed : (ProtocolHeader.messageClass wire).internalParse (mutableHeader header) body = .done inner) :
    ∀ known, some inner = some known → known.Legal := by
  have mutable : (mutableHeader header).Legal := by
    cases header with
    | none => exact (ProtocolHeader.faithful wire).clear
    | some header => exact legal header rfl
  intro known same
  cases same
  exact (ProtocolHeader.faithful wire).legal_of_done mutable parsed

end Headers

/-! ### Requests -/

namespace Req

theorem fields_eq_some {tag : BitVec 32} {field : FieldParser (Req wire)}
    (known : fields tag = some field) :
    (field = .message wire (ProtocolHeader.messageClass wire).internalParse
      (fun req => mutableHeader req.header) fun req header => { req with header := some header }) ∨
    (field = .int32 wire fun req value => { req with id := value }) ∨
    field = .string wire fun req str => { req with name := str } := by
  unfold fields at known
  split at known
  · split at known
    · cases known
      exact .inl rfl
    · cases known
  · split at known
    · cases known
      exact .inr (.inl rfl)
    · cases known
  · split at known
    · cases known
      exact .inr (.inr rfl)
    · cases known
  · cases known

theorem length_internalSerialize (req : Req wire) :
    req.internalSerialize.length = req.byteSizeLong := by
  have id : (if req.id ≠ 0 then wire.writeInt32ToArray 2 req.id else []).length =
      if req.id ≠ 0 then 1 + wire.int32Size req.id else 0 := by
    split
    · exact wire.length_int32 (by decide) req.id
    · rfl
  simp only [internalSerialize, List.length_append, length_header, id, length_text (by decide : 3 < 16),
    wire.length_unknown, byteSizeLong]
  omega

theorem parse_id {value : BitVec 32} (req : Req wire) (more : Bytes) :
    (messageClass wire).internalParse req
        ((if value ≠ 0 then wire.writeInt32ToArray 2 value else []) ++ more) =
      (messageClass wire).internalParse { req with id := if value ≠ 0 then value else req.id } more := by
  have known : (messageClass wire).fields (makeTag 2 0) =
      some (.int32 wire fun req value => { req with id := value }) := by
    rfl
  split
  · exact (messageClass wire).parse_int32 known value req more
  · rfl

/-- **The generated class of the request.** -/
theorem faithful (wire : Wire) : (messageClass wire).Faithful Legal where
  length := length_internalSerialize
  parse req legal small into := by
    have sizes : req.byteSizeLong ≤ sizeLimit := small
    unfold byteSizeLong at sizes
    show (messageClass wire).internalParse into req.internalSerialize = _
    unfold internalSerialize
    rw [parse_header (messageClass wire) header (fun req header => { req with header := header }) rfl
      (fun _ => rfl) legal.header (by omega), parse_id,
      parse_text (messageClass wire) 3 name rfl (fun _ => rfl) legal.name (by omega),
      (messageClass wire).parse_unknown legal.metadata]
    rfl
  copy req := by
    show mergeFrom {} req = req
    have id : (if req.id ≠ 0 then req.id else 0) = req.id := by
      split
      · rfl
      · rename_i zero
        exact (not_not.mp zero).symm
    rw [mergeFrom, mergeText_nil, mergeHeader_none, id]
    rfl
  clear := ⟨by simp [messageClass], wire.verifyUTF8_ascii [] rfl, by simp [messageClass]⟩
  kept {req next ptr rest} legal took := by
    obtain ⟨tag, behind, read, ⟨field, known, parsed⟩ | ⟨⟨unnamed, inside⟩, payload, found, rfl⟩⟩ :=
      (messageClass wire).turn_next took
    · rcases fields_eq_some known with rfl | rfl | rfl
      · obtain ⟨body, inner, done, rfl⟩ := FieldParser.message_parsed parsed
        exact ⟨header_parsed legal.header done, legal.name, legal.metadata⟩
      · obtain ⟨value, rfl⟩ := FieldParser.int32_parsed parsed
        exact ⟨legal.header, legal.name, legal.metadata⟩
      · obtain ⟨str, utf8, rfl⟩ := FieldParser.string_parsed parsed
        exact ⟨legal.header, utf8, legal.metadata⟩
    · exact ⟨legal.header, legal.name,
        (messageClass wire).foreign_append legal.metadata unnamed inside found⟩

end Req

/-! ### Responses -/

namespace Rsp

theorem fields_eq_some {tag : BitVec 32} {field : FieldParser (Rsp wire)}
    (known : fields tag = some field) :
    (field = .message wire (ProtocolHeader.messageClass wire).internalParse
      (fun rsp => mutableHeader rsp.header) fun rsp header => { rsp with header := some header }) ∨
    (field = .string wire fun rsp str => { rsp with content := str }) ∨
    field = .string wire fun rsp str => { rsp with desc := str } := by
  unfold fields at known
  split at known
  · split at known
    · cases known
      exact .inl rfl
    · cases known
  · split at known
    · cases known
      exact .inr (.inl rfl)
    · cases known
  · split at known
    · cases known
      exact .inr (.inr rfl)
    · cases known
  · cases known

theorem length_internalSerialize (rsp : Rsp wire) :
    rsp.internalSerialize.length = rsp.byteSizeLong := by
  simp only [internalSerialize, List.length_append, length_header, length_text (by decide : 2 < 16),
    length_text (by decide : 3 < 16), wire.length_unknown, byteSizeLong]
  omega

/-- **The generated class of the response.** -/
theorem faithful (wire : Wire) : (messageClass wire).Faithful Legal where
  length := length_internalSerialize
  parse rsp legal small into := by
    have sizes : rsp.byteSizeLong ≤ sizeLimit := small
    unfold byteSizeLong at sizes
    show (messageClass wire).internalParse into rsp.internalSerialize = _
    unfold internalSerialize
    rw [parse_header (messageClass wire) header (fun rsp header => { rsp with header := header }) rfl
      (fun _ => rfl) legal.header (by omega),
      parse_text (messageClass wire) 2 content rfl (fun _ => rfl) legal.content (by omega),
      parse_text (messageClass wire) 3 desc rfl (fun _ => rfl) legal.desc (by omega),
      (messageClass wire).parse_unknown legal.metadata]
    rfl
  copy rsp := by
    show mergeFrom {} rsp = rsp
    rw [mergeFrom, mergeText_nil, mergeText_nil, mergeHeader_none]
    rfl
  clear := ⟨by simp [messageClass], wire.verifyUTF8_ascii [] rfl,
    wire.verifyUTF8_ascii [] rfl, by simp [messageClass]⟩
  kept {rsp next ptr rest} legal took := by
    obtain ⟨tag, behind, read, ⟨field, known, parsed⟩ | ⟨⟨unnamed, inside⟩, payload, found, rfl⟩⟩ :=
      (messageClass wire).turn_next took
    · rcases fields_eq_some known with rfl | rfl | rfl
      · obtain ⟨body, inner, done, rfl⟩ := FieldParser.message_parsed parsed
        exact ⟨header_parsed legal.header done, legal.content, legal.desc, legal.metadata⟩
      · obtain ⟨str, utf8, rfl⟩ := FieldParser.string_parsed parsed
        exact ⟨legal.header, utf8, legal.desc, legal.metadata⟩
      · obtain ⟨str, utf8, rfl⟩ := FieldParser.string_parsed parsed
        exact ⟨legal.header, legal.content, utf8, legal.metadata⟩
    · exact ⟨legal.header, legal.content, legal.desc,
        (messageClass wire).foreign_append legal.metadata unnamed inside found⟩

end Rsp

/-! ### Round trips -/

/-- **What is written is read back**, of each of the three messages: `SerializeToString` writes
`ByteSizeLong` bytes, `ParseFromString` gives the message back, and of several messages written one
after the other their merge. -/
theorem messages_round_trip (wire : Wire) :
    (ProtocolHeader.messageClass wire).RoundTrips ProtocolHeader.Legal ∧
      (Req.messageClass wire).RoundTrips Req.Legal ∧
      (Rsp.messageClass wire).RoundTrips Rsp.Legal :=
  ⟨(ProtocolHeader.faithful wire).roundTrips, (Req.faithful wire).roundTrips,
    (Rsp.faithful wire).roundTrips⟩

/-- A request with a header, and a later one with a name and a field of number 4. -/
def twoRequests : List (Req Wire.base128) :=
  [{ header := some { protocolName := [114, 101, 113] }, id := -1 },
    { header := some {}, name := [97], metadata := [(32, .inl 300)] }]

theorem twoRequests_legal : ∀ req ∈ twoRequests,
    req.Legal ∧ (Req.messageClass Wire.base128).byteSizeLong req ≤ sizeLimit := by
  have text : ∀ str, ascii str = true → Wire.base128.verifyUTF8 str = true :=
    Wire.base128.verifyUTF8_ascii
  intro req member
  rcases List.mem_cons.mp member with rfl | later
  · refine ⟨⟨fun header same => ?_, text _ rfl, by simp⟩, by decide⟩
    cases same
    exact ⟨text _ rfl, by simp⟩
  · obtain rfl := List.mem_singleton.mp later
    refine ⟨⟨fun header same => ?_, text _ rfl, fun field kept => ?_⟩, by decide⟩
    · cases same
      exact ⟨text _ rfl, by simp⟩
    · obtain rfl := List.mem_singleton.mp kept
      exact ⟨rfl, by decide, trivial, rfl⟩

/-- The two requests in one string. -/
theorem messages_round_trip_two :
    (Req.messageClass Wire.base128).parseFromString
        [10, 5, 10, 3, 114, 101, 113, 16, 255, 255, 255, 255, 255, 255, 255, 255, 255, 1,
          10, 0, 26, 1, 97, 32, 172, 2] =
      some {
        header := some { protocolName := [114, 101, 113] }
        id := -1
        name := [97]
        metadata := [(32, .inl 300)] } :=
  ((messages_round_trip Wire.base128).2.1 twoRequests twoRequests_legal).2

/-- **What is accepted is well formed**, of each of the three messages: a message that
`ParseFromString` accepts, whatever the bytes, has UTF-8 texts and keeps only fields that no `case`
names, and written again it is read back. -/
theorem accepted_is_legal (wire : Wire) :
    (ProtocolHeader.messageClass wire).Normalizes ProtocolHeader.Legal ∧
      (Req.messageClass wire).Normalizes Req.Legal ∧
      (Rsp.messageClass wire).Normalizes Rsp.Legal :=
  ⟨(ProtocolHeader.faithful wire).normalizes, (Req.faithful wire).normalizes,
    (Rsp.faithful wire).normalizes⟩

/-- A request whose fields come in another order, and twice. -/
theorem accepted_is_legal_disorder :
    ∃ req : Req Wire.base128, (Req.messageClass Wire.base128).parseFromString
        [26, 1, 97, 16, 7, 26, 1, 98] = some req ∧ req.Legal :=
  ⟨{ id := 7, name := [98] }, rfl,
    ((accepted_is_legal Wire.base128).2.1 [26, 1, 97, 16, 7, 26, 1, 98] _ rfl).1⟩

end IkunSvr
