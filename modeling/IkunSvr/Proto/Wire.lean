/-
**What generated messages take from the protobuf runtime.**

The runtime is not part of the repository. A `Wire` is what the generated code relies on of it: how
tags, varints and lengths are written and read, which payload an unknown field of a tag has, which
texts are UTF-8. `base128` is one.

`readTag` to `unknownFieldsSize` are the functions that the generated code calls. The turns of a
message's `_InternalParse` are those of `MessageClass.turn`: the generated classes differ in the
`switch` over the field numbers, which is `fields`. Each kind of field has one lemma here, which
says that what is written of it is read back: `parse_string`, `parse_int32`, `parse_message`,
`parse_unknown`.
-/

import IkunSvr.Lib.Records
import IkunSvr.Lib.Varint
import IkunSvr.Memory

namespace IkunSvr

open Framing

/-- The longest block that is read: `INT_MAX - kSlopBytes`. -/
def sizeLimit : ℕ := 2 ^ 31 - 17

/-- A text of bytes below 128. -/
def ascii (str : Bytes) : Bool := str.all fun byte => byte < 128

/-- The runtime's encodings. -/
structure Wire where
  tag : Codec UInt8 (BitVec 32)
  varint : Codec UInt8 (BitVec 64)
  length : Codec UInt8 ℕ
  Payload : Type
  payload : BitVec 32 → Codec UInt8 Payload
  verifyUTF8 : Bytes → Bool
  tag_valid : ∀ number, tag.Valid number
  tag_size : ∀ number, number.toNat < 128 → tag.size number = 1
  varint_valid : ∀ value, varint.Valid value
  varint_size : ∀ value, value.toNat < 128 → varint.size value = 1
  length_valid : ∀ size, size ≤ sizeLimit → length.Valid size
  length_size : ∀ size, size < 128 → length.size size = 1
  verifyUTF8_ascii : ∀ str, ascii str = true → verifyUTF8 str = true

/-- `MakeTag`. -/
def makeTag (number type : ℕ) : BitVec 32 := BitVec.ofNat 32 (number * 8 + type)

namespace Wire

variable (wire : Wire)

/-- `UnknownFieldSet`: fields that no `case` of the parser names, each with its tag. -/
abbrev UnknownFieldSet : Type := List (BitVec 32 × wire.Payload)

/-- A block behind its length: a string, or a message in a message. -/
def block : Codec UInt8 Bytes := Codec.delimited wire.length

theorem block_valid {str : Bytes} (small : str.length ≤ sizeLimit) : wire.block.Valid str :=
  wire.length_valid _ small

/-! ### Reading -/

/-- `ReadTag`. -/
def readTag (ptr : Bytes) : Option (BitVec 32 × Bytes) := wire.tag.next ptr

/-- `UnknownFieldParse`: the payload of a field with the tag. -/
def unknownFieldParse (tag : BitVec 32) (unknown : wire.UnknownFieldSet) (ptr : Bytes) :
    Option (wire.UnknownFieldSet × Bytes) :=
  ((wire.payload tag).next ptr).map fun read => (unknown ++ [(tag, read.1)], read.2)

/-! ### Writing -/

/-- `WriteStringMaybeAliased`. -/
def writeStringMaybeAliased (number : ℕ) (str : Bytes) : Bytes :=
  wire.tag.write (makeTag number 2) ++ wire.block.write str

/-- `WriteInt32ToArray`: a negative value is written with its sign extended to 64 bits. -/
def writeInt32ToArray (number : ℕ) (value : BitVec 32) : Bytes :=
  wire.tag.write (makeTag number 0) ++ wire.varint.write (value.signExtend 64)

/-- `InternalWriteMessage`: the length is the size that the message has cached. -/
def internalWriteMessage (number cachedSize : ℕ) (body : Bytes) : Bytes :=
  wire.tag.write (makeTag number 2) ++ (wire.length.write cachedSize ++ body)

/-- `InternalSerializeUnknownFieldsToArray`. -/
def serializeUnknownFields (unknown : wire.UnknownFieldSet) : Bytes :=
  unknown.flatMap fun field => wire.tag.write field.1 ++ (wire.payload field.1).write field.2

/-- `StringSize`. -/
def stringSize (str : Bytes) : ℕ := wire.block.size str

/-- `Int32Size`. -/
def int32Size (value : BitVec 32) : ℕ := wire.varint.size (value.signExtend 64)

/-- `MessageSize`, of a message whose `ByteSizeLong` is `size`. -/
def messageSize (size : ℕ) : ℕ := wire.length.size size + size

/-- What `ComputeUnknownFieldsSize` adds. -/
def unknownFieldsSize (unknown : wire.UnknownFieldSet) : ℕ :=
  (unknown.map fun field => wire.tag.size field.1 + (wire.payload field.1).size field.2).sum

theorem length_string {number : ℕ} (small : number < 16) (str : Bytes) :
    (wire.writeStringMaybeAliased number str).length = 1 + wire.stringSize str := by
  have tag : (makeTag number 2).toNat < 128 := by
    rw [makeTag, BitVec.toNat_ofNat]
    omega
  rw [writeStringMaybeAliased, List.length_append, wire.tag.length_write, wire.tag_size _ tag,
    wire.block.length_write]
  rfl

theorem length_int32 {number : ℕ} (small : number < 16) (value : BitVec 32) :
    (wire.writeInt32ToArray number value).length = 1 + wire.int32Size value := by
  have tag : (makeTag number 0).toNat < 128 := by
    rw [makeTag, BitVec.toNat_ofNat]
    omega
  rw [writeInt32ToArray, List.length_append, wire.tag.length_write, wire.tag_size _ tag,
    wire.varint.length_write]
  rfl

theorem length_message {number : ℕ} (small : number < 16) (body : Bytes) :
    (wire.internalWriteMessage number body.length body).length =
      1 + wire.messageSize body.length := by
  have tag : (makeTag number 2).toNat < 128 := by
    rw [makeTag, BitVec.toNat_ofNat]
    omega
  rw [internalWriteMessage, List.length_append, List.length_append, wire.tag.length_write,
    wire.tag_size _ tag, wire.length.length_write]
  rfl

theorem length_unknown (unknown : wire.UnknownFieldSet) :
    (wire.serializeUnknownFields unknown).length = wire.unknownFieldsSize unknown := by
  rw [serializeUnknownFields, List.length_flatMap, unknownFieldsSize]
  congr 1
  refine List.map_congr_left fun field _ => ?_
  rw [List.length_append, wire.tag.length_write, (wire.payload field.1).length_write]

end Wire

/-! ### Fields -/

/-- A parser of a field's payload, which finds where it ends whatever stands behind it. -/
structure FieldParser (Msg : Type) where
  parse : Msg → Bytes → Option (Msg × Bytes)
  shrinks : ∀ {msg next ptr rest}, parse msg ptr = some (next, rest) → rest.length < ptr.length
  extends_next : ∀ {msg next ptr rest}, parse msg ptr = some (next, rest) →
    ∀ more, parse msg (ptr ++ more) = some (next, rest ++ more)

namespace FieldParser

variable {Msg Inner : Type}

/-- A codec's parser, with a use of what is read that may refuse it. -/
def ofCodec {Value : Type} (codec : Codec UInt8 Value) (use : Msg → Value → Option Msg) :
    FieldParser Msg where
  parse msg ptr := (codec.next ptr).bind fun read => (use msg read.1).map fun next => (next, read.2)
  shrinks {msg next ptr rest} parsed := by
    obtain ⟨⟨value, behind⟩, found, used⟩ := Option.bind_eq_some_iff.mp parsed
    obtain ⟨_, _, same⟩ := Option.map_eq_some_iff.mp used
    cases same
    exact codec.shrinks found
  extends_next {msg next ptr rest} parsed more := by
    obtain ⟨⟨value, behind⟩, found, used⟩ := Option.bind_eq_some_iff.mp parsed
    obtain ⟨_, accepted, same⟩ := Option.map_eq_some_iff.mp used
    cases same
    refine Option.bind_eq_some_iff.mpr ⟨_, codec.extends_next found more, ?_⟩
    exact Option.map_eq_some_iff.mpr ⟨_, accepted, rfl⟩

theorem ofCodec_write {Value : Type} {codec : Codec UInt8 Value} {use : Msg → Value → Option Msg}
    {msg next : Msg} {value : Value} (valid : codec.Valid value) (used : use msg value = some next)
    (more : Bytes) : (ofCodec codec use).parse msg (codec.write value ++ more) = some (next, more) := by
  refine Option.bind_eq_some_iff.mpr ⟨_, codec.next_write valid more, ?_⟩
  exact Option.map_eq_some_iff.mpr ⟨_, used, rfl⟩

theorem ofCodec_parsed {Value : Type} {codec : Codec UInt8 Value} {use : Msg → Value → Option Msg}
    {msg next : Msg} {ptr rest : Bytes} (parsed : (ofCodec codec use).parse msg ptr = some (next, rest)) :
    ∃ value, codec.Valid value ∧ use msg value = some next := by
  obtain ⟨⟨value, behind⟩, found, used⟩ := Option.bind_eq_some_iff.mp parsed
  obtain ⟨_, accepted, same⟩ := Option.map_eq_some_iff.mp used
  cases same
  exact ⟨value, codec.next_valid found, accepted⟩

variable (wire : Wire)

/-- `InlineGreedyStringParser` into a field of the message, and `VerifyUTF8`. -/
def string (set : Msg → Bytes → Msg) : FieldParser Msg :=
  ofCodec wire.block fun msg str => if wire.verifyUTF8 str then some (set msg str) else none

/-- `ReadVarint64` into a field of type `int32`. -/
def int32 (set : Msg → BitVec 32 → Msg) : FieldParser Msg :=
  ofCodec wire.varint fun msg value => some (set msg (value.setWidth 32))

/-- `ParseMessage` into the message `mutable` of the message: the block is parsed to its end. -/
def message (internalParse : Inner → Bytes → Parsed Inner) (mutable : Msg → Inner)
    (set : Msg → Inner → Msg) : FieldParser Msg :=
  ofCodec wire.block fun msg body => (internalParse (mutable msg) body).whole.map (set msg)

variable {wire}

theorem string_parsed {set : Msg → Bytes → Msg} {msg next : Msg} {ptr rest : Bytes}
    (parsed : (string wire set).parse msg ptr = some (next, rest)) :
    ∃ str, wire.verifyUTF8 str = true ∧ next = set msg str := by
  obtain ⟨str, _, used⟩ := ofCodec_parsed parsed
  split at used
  · rename_i legal
    cases used
    exact ⟨str, legal, rfl⟩
  · cases used

theorem int32_parsed {set : Msg → BitVec 32 → Msg} {msg next : Msg} {ptr rest : Bytes}
    (parsed : (int32 wire set).parse msg ptr = some (next, rest)) : ∃ value, next = set msg value := by
  obtain ⟨value, _, used⟩ := ofCodec_parsed parsed
  cases used
  exact ⟨_, rfl⟩

theorem message_parsed {internalParse : Inner → Bytes → Parsed Inner} {mutable : Msg → Inner}
    {set : Msg → Inner → Msg} {msg next : Msg} {ptr rest : Bytes}
    (parsed : (message wire internalParse mutable set).parse msg ptr = some (next, rest)) :
    ∃ body inner, internalParse (mutable msg) body = .done inner ∧ next = set msg inner := by
  obtain ⟨body, _, used⟩ := ofCodec_parsed parsed
  obtain ⟨inner, whole, same⟩ := Option.map_eq_some_iff.mp used
  exact ⟨body, inner, Parsed.whole_eq_some.mp whole, same.symm⟩

end FieldParser

/-! ### Messages -/

/-- A generated class: its `switch`, and the other functions that are generated for it. -/
structure MessageClass (wire : Wire) (Msg : Type) where
  /-- the message after `Clear` -/
  clear : Msg
  /-- the parser behind the `case` and the test of the tag, if they name one -/
  fields : BitVec 32 → Option (FieldParser Msg)
  /-- `_internal_metadata_.mutable_unknown_fields` -/
  unknown : Msg → wire.UnknownFieldSet
  setUnknown : Msg → wire.UnknownFieldSet → Msg
  unknown_setUnknown : ∀ msg set, unknown (setUnknown msg set) = set
  setUnknown_setUnknown : ∀ msg set other, setUnknown (setUnknown msg set) other = setUnknown msg other
  setUnknown_unknown : ∀ msg, setUnknown msg (unknown msg) = msg
  byteSizeLong : Msg → ℕ
  /-- `_InternalSerialize`, after a call of `ByteSizeLong` -/
  internalSerialize : Msg → Bytes
  mergeFrom : Msg → Msg → Msg

namespace MessageClass

variable {wire : Wire} {Msg : Type} (cls : MessageClass wire Msg)

/-- A tag that ends a message: an end of group, or zero. -/
def EndTag (tag : BitVec 32) : Prop := tag &&& 7 = 4 ∨ tag = 0

instance (tag : BitVec 32) : Decidable (EndTag tag) := inferInstanceAs (Decidable (_ ∨ _))

/-- One turn of the loop of `_InternalParse`. -/
def turn (msg : Msg) (ptr : Bytes) : Turn UInt8 Msg :=
  match wire.readTag ptr with
  | none => .fail
  | some (tag, ptr) =>
      match cls.fields tag with
      | some field =>
          match field.parse msg ptr with
          | some (next, ptr) => .next next ptr
          | none => .fail
      | none =>
          if EndTag tag then .stop msg
          else match wire.unknownFieldParse tag (cls.unknown msg) ptr with
            | some (unknown, ptr) => .next (cls.setUnknown msg unknown) ptr
            | none => .fail

/-- `_InternalParse`. -/
def internalParse (msg : Msg) (ptr : Bytes) : Parsed Msg := parse cls.turn msg ptr

/-- `ParseFromString`; what it leaves in the message when it returns `false` is not said. -/
def parseFromString (data : Bytes) : Option Msg := (cls.internalParse cls.clear data).whole

/-- `SerializeToString`. -/
def serializeToString (msg : Msg) : Option Bytes :=
  if cls.byteSizeLong msg ≤ intMax.toNat then some (cls.internalSerialize msg) else none

/-- `CopyFrom`. -/
def copyFrom (source : Msg) : Msg := cls.mergeFrom cls.clear source

/-- What a turn that goes on has read. -/
theorem turn_next {msg next : Msg} {ptr rest : Bytes} (took : cls.turn msg ptr = .next next rest) :
    ∃ tag behind, wire.tag.next ptr = some (tag, behind) ∧
      ((∃ field, cls.fields tag = some field ∧ field.parse msg behind = some (next, rest)) ∨
        (cls.fields tag = none ∧ ¬ EndTag tag) ∧ ∃ payload,
          (wire.payload tag).next behind = some (payload, rest) ∧
          next = cls.setUnknown msg (cls.unknown msg ++ [(tag, payload)])) := by
  unfold turn at took
  split at took
  · cases took
  · rename_i tag behind read
    refine ⟨tag, behind, read, ?_⟩
    split at took
    · rename_i field known
      split at took
      · rename_i parsed
        cases took
        exact .inl ⟨field, known, parsed⟩
      · cases took
    · rename_i unnamed
      split at took
      · cases took
      · rename_i inside
        split at took
        · rename_i parsed
          cases took
          obtain ⟨⟨payload, _⟩, found, same⟩ := Option.map_eq_some_iff.mp parsed
          cases same
          exact .inr ⟨⟨unnamed, inside⟩, payload, found, rfl⟩
        · cases took

/-- A field that a `case` names. -/
theorem turn_field {msg next : Msg} {tag : BitVec 32} {field : FieldParser Msg} {ptr rest : Bytes}
    (known : cls.fields tag = some field) (parsed : field.parse msg ptr = some (next, rest)) :
    cls.turn msg (wire.tag.write tag ++ ptr) = .next next rest := by
  unfold turn Wire.readTag
  rw [wire.tag.next_write (wire.tag_valid tag)]
  simp only [known, parsed]

/-- A field that no `case` names. -/
theorem turn_unknown {msg : Msg} {tag : BitVec 32} {payload : wire.Payload} {ptr rest : Bytes}
    (unnamed : cls.fields tag = none) (inside : ¬ EndTag tag)
    (parsed : (wire.payload tag).next ptr = some (payload, rest)) :
    cls.turn msg (wire.tag.write tag ++ ptr) =
      .next (cls.setUnknown msg (cls.unknown msg ++ [(tag, payload)])) rest := by
  unfold turn Wire.readTag Wire.unknownFieldParse
  rw [wire.tag.next_write (wire.tag_valid tag)]
  simp only [unnamed, if_neg inside, parsed, Option.map_some]

/-- **A record is found whatever stands behind it.** -/
theorem turn_local : Local cls.turn where
  shrinks {msg next ptr rest} took := by
    obtain ⟨tag, behind, read, ⟨field, _, parsed⟩ | ⟨_, payload, found, _⟩⟩ := cls.turn_next took
    · exact (field.shrinks parsed).trans (wire.tag.shrinks read)
    · exact ((wire.payload tag).shrinks found).trans (wire.tag.shrinks read)
  extends_next {msg next ptr rest} took more := by
    obtain ⟨tag, behind, read, ⟨field, known, parsed⟩ | ⟨⟨unnamed, inside⟩, payload, found, rfl⟩⟩ :=
      cls.turn_next took
    · unfold turn Wire.readTag
      rw [wire.tag.extends_next read]
      simp only [known, field.extends_next parsed]
    · unfold turn Wire.readTag Wire.unknownFieldParse
      rw [wire.tag.extends_next read]
      simp only [unnamed, if_neg inside, (wire.payload tag).extends_next found, Option.map_some]

/-! ### What is written is read back -/

/-- The low half of a value whose sign was extended. -/
theorem setWidth_signExtend (value : BitVec 32) : (value.signExtend 64).setWidth 32 = value := by
  refine BitVec.eq_of_getLsbD_eq fun bit low => ?_
  have within : bit < 64 := by omega
  rw [BitVec.getLsbD_setWidth, BitVec.getLsbD_signExtend, if_pos low]
  simp only [low, within, decide_true, Bool.true_and]

theorem parse_field {msg next : Msg} {tag : BitVec 32} {field : FieldParser Msg} {ptr rest : Bytes}
    (known : cls.fields tag = some field) (parsed : field.parse msg ptr = some (next, rest)) :
    cls.internalParse msg (wire.tag.write tag ++ ptr) = cls.internalParse next rest :=
  cls.turn_local.parse_next (cls.turn_field known parsed)

theorem parse_string {number : ℕ} {set : Msg → Bytes → Msg} {str : Bytes}
    (known : cls.fields (makeTag number 2) = some (.string wire set))
    (legal : wire.verifyUTF8 str = true) (small : str.length ≤ sizeLimit) (msg : Msg) (more : Bytes) :
    cls.internalParse msg (wire.writeStringMaybeAliased number str ++ more) =
      cls.internalParse (set msg str) more := by
  rw [Wire.writeStringMaybeAliased, List.append_assoc]
  refine cls.parse_field known (FieldParser.ofCodec_write (wire.block_valid small) ?_ more)
  rw [if_pos legal]

theorem parse_int32 {number : ℕ} {set : Msg → BitVec 32 → Msg}
    (known : cls.fields (makeTag number 0) = some (.int32 wire set)) (value : BitVec 32) (msg : Msg)
    (more : Bytes) :
    cls.internalParse msg (wire.writeInt32ToArray number value ++ more) =
      cls.internalParse (set msg value) more := by
  rw [Wire.writeInt32ToArray, List.append_assoc]
  refine cls.parse_field known (FieldParser.ofCodec_write (wire.varint_valid _) ?_ more)
  rw [setWidth_signExtend]

theorem parse_message {Inner : Type} {number : ℕ} {internalParse : Inner → Bytes → Parsed Inner}
    {mutable : Msg → Inner} {set : Msg → Inner → Msg} {msg : Msg} {parsed : Inner} {body : Bytes}
    (known : cls.fields (makeTag number 2) = some (.message wire internalParse mutable set))
    (inner : internalParse (mutable msg) body = .done parsed) (small : body.length ≤ sizeLimit)
    (more : Bytes) :
    cls.internalParse msg (wire.internalWriteMessage number body.length body ++ more) =
      cls.internalParse (set msg parsed) more := by
  have written : wire.internalWriteMessage number body.length body ++ more =
      wire.tag.write (makeTag number 2) ++ (wire.block.write body ++ more) := by
    rw [Wire.internalWriteMessage, List.append_assoc]
    rfl
  rw [written]
  refine cls.parse_field known (FieldParser.ofCodec_write (wire.block_valid small) ?_ more)
  rw [inner]
  rfl

/-- A field that no `case` names, as it is kept. -/
structure Foreign (field : BitVec 32 × wire.Payload) : Prop where
  unnamed : cls.fields field.1 = none
  inside : ¬ EndTag field.1
  valid : (wire.payload field.1).Valid field.2

/-- The unknown fields are written last. -/
theorem parse_unknown {unknown : wire.UnknownFieldSet} (foreign : ∀ field ∈ unknown, cls.Foreign field)
    (msg : Msg) :
    cls.internalParse msg (wire.serializeUnknownFields unknown) =
      .done (cls.setUnknown msg (cls.unknown msg ++ unknown)) := by
  induction unknown generalizing msg with
  | nil =>
      rw [List.append_nil, cls.setUnknown_unknown]
      rfl
  | cons field unknown ih =>
      have first := foreign field List.mem_cons_self
      have written : wire.serializeUnknownFields (field :: unknown) =
          wire.tag.write field.1 ++ ((wire.payload field.1).write field.2 ++
            wire.serializeUnknownFields unknown) := by
        rw [Wire.serializeUnknownFields, List.flatMap_cons, List.append_assoc]
        rfl
      rw [written, internalParse, cls.turn_local.parse_next (cls.turn_unknown first.unnamed
        first.inside ((wire.payload field.1).next_write first.valid _))]
      refine (ih (fun other member => foreign other (List.mem_cons_of_mem _ member)) _).trans ?_
      rw [cls.unknown_setUnknown, cls.setUnknown_setUnknown, List.append_assoc]
      rfl

theorem foreign_append {unknown : wire.UnknownFieldSet} (foreign : ∀ field ∈ unknown, cls.Foreign field)
    {tag : BitVec 32} {payload : wire.Payload} {ptr rest : Bytes} (unnamed : cls.fields tag = none)
    (inside : ¬ EndTag tag) (found : (wire.payload tag).next ptr = some (payload, rest)) :
    ∀ field ∈ unknown ++ [(tag, payload)], cls.Foreign field := by
  intro field member
  rcases List.mem_append.mp member with earlier | now
  · exact foreign field earlier
  · obtain rfl := List.mem_singleton.mp now
    exact ⟨unnamed, inside, (wire.payload tag).next_valid found⟩

/-! ### Faithful classes -/

/-- What a generated class is to be: the size announced is the size written, parsing what is written
of a legal message merges that message, a copy is the message copied, and whatever is parsed is
legal. -/
structure Faithful (Legal : Msg → Prop) : Prop where
  length : ∀ msg, (cls.internalSerialize msg).length = cls.byteSizeLong msg
  parse : ∀ msg, Legal msg → cls.byteSizeLong msg ≤ sizeLimit → ∀ into,
    cls.internalParse into (cls.internalSerialize msg) = .done (cls.mergeFrom into msg)
  copy : ∀ msg, cls.copyFrom msg = msg
  clear : Legal cls.clear
  kept : ∀ {msg next ptr rest}, Legal msg → cls.turn msg ptr = .next next rest → Legal next

variable {cls} {Legal : Msg → Prop}

/-- **Messages written one after the other are parsed into their merge.** -/
theorem Faithful.parse_all (faithful : cls.Faithful Legal) {msgs : List Msg}
    (fit : ∀ msg ∈ msgs, Legal msg ∧ cls.byteSizeLong msg ≤ sizeLimit) (into : Msg) :
    cls.internalParse into (msgs.flatMap cls.internalSerialize) =
      .done (msgs.foldl cls.mergeFrom into) := by
  induction msgs generalizing into with
  | nil => rfl
  | cons msg msgs ih =>
      obtain ⟨legal, small⟩ := fit msg List.mem_cons_self
      rw [List.flatMap_cons, internalParse,
        cls.turn_local.parse_append _ (faithful.parse msg legal small into)]
      exact ih (fun other member => fit other (List.mem_cons_of_mem _ member)) _

/-- **A legal message is written in as many bytes as announced, and read back.** -/
theorem Faithful.round_trip (faithful : cls.Faithful Legal) {msg : Msg} (legal : Legal msg)
    (small : cls.byteSizeLong msg ≤ sizeLimit) :
    ∃ data, cls.serializeToString msg = some data ∧ data.length = cls.byteSizeLong msg ∧
      cls.parseFromString data = some msg := by
  refine ⟨cls.internalSerialize msg, if_pos ?_, faithful.length msg, ?_⟩
  · exact le_trans small (by decide)
  · rw [parseFromString, faithful.parse msg legal small]
    exact congrArg some (faithful.copy msg)

theorem Faithful.legal_of_done (faithful : cls.Faithful Legal) {into msg : Msg} {data : Bytes}
    (legal : Legal into) (parsed : cls.internalParse into data = .done msg) : Legal msg :=
  cls.turn_local.parse_kept Legal (fun legal took => faithful.kept legal took) legal parsed

/-- **What is accepted is legal.** -/
theorem Faithful.legal_of_parsed (faithful : cls.Faithful Legal) {data : Bytes} {msg : Msg}
    (parsed : cls.parseFromString data = some msg) : Legal msg :=
  faithful.legal_of_done faithful.clear (Parsed.whole_eq_some.mp parsed)

variable (cls Legal)

/-- Legal messages that are not too long are each written in `ByteSizeLong` bytes and read back, and
written one after the other they are read as their merge. -/
def RoundTrips : Prop :=
  ∀ msgs : List Msg, (∀ msg ∈ msgs, Legal msg ∧ cls.byteSizeLong msg ≤ sizeLimit) →
    (∀ msg ∈ msgs, ∃ data, cls.serializeToString msg = some data ∧
      data.length = cls.byteSizeLong msg ∧ cls.parseFromString data = some msg) ∧
    cls.parseFromString (msgs.flatMap cls.internalSerialize) =
      some (msgs.foldl cls.mergeFrom cls.clear)

/-- Whatever is accepted is legal, and if it is not too long, it is written and read back. -/
def Normalizes : Prop :=
  ∀ data msg, cls.parseFromString data = some msg → Legal msg ∧
    (cls.byteSizeLong msg ≤ sizeLimit → ∃ written, cls.serializeToString msg = some written ∧
      written.length = cls.byteSizeLong msg ∧ cls.parseFromString written = some msg)

variable {cls Legal}

theorem Faithful.roundTrips (faithful : cls.Faithful Legal) : cls.RoundTrips Legal := by
  intro msgs fit
  refine ⟨fun msg member => faithful.round_trip (fit msg member).1 (fit msg member).2, ?_⟩
  rw [parseFromString, faithful.parse_all fit]
  rfl

theorem Faithful.normalizes (faithful : cls.Faithful Legal) : cls.Normalizes Legal := by
  intro data msg parsed
  have legal := faithful.legal_of_parsed parsed
  exact ⟨legal, faithful.round_trip legal⟩

end MessageClass

/-! ### Base 128 -/

/-- A continuation byte of UTF-8, between two bounds. -/
def continues (low high byte : UInt8) : Bool := low ≤ byte && byte ≤ high

/-- The bounds of the byte behind a first byte of UTF-8, and how many more continuation bytes follow
that one. -/
def utf8Second (first : UInt8) : Option (UInt8 × UInt8 × ℕ) :=
  if 0xC2 ≤ first ∧ first ≤ 0xDF then some (0x80, 0xBF, 0)
  else if first = 0xE0 then some (0xA0, 0xBF, 1)
  else if first = 0xED then some (0x80, 0x9F, 1)
  else if 0xE1 ≤ first ∧ first ≤ 0xEF then some (0x80, 0xBF, 1)
  else if first = 0xF0 then some (0x90, 0xBF, 2)
  else if 0xF1 ≤ first ∧ first ≤ 0xF3 then some (0x80, 0xBF, 2)
  else if first = 0xF4 then some (0x80, 0x8F, 2)
  else none

/-- Whether a text is UTF-8, `expected` being the bounds of the byte that a character is waiting for
and how many continuation bytes follow that one. -/
def utf8 : Option (UInt8 × UInt8 × ℕ) → Bytes → Bool
  | none, [] => true
  | some _, [] => false
  | none, byte :: str =>
      if byte < 0x80 then utf8 none str
      else match utf8Second byte with
        | none => false
        | some second => utf8 (some second) str
  | some (low, high, more), byte :: str =>
      continues low high byte && match more with
        | 0 => utf8 none str
        | more + 1 => utf8 (some (0x80, 0xBF, more)) str

theorem utf8_ascii {str : Bytes} (low : ascii str = true) : utf8 none str = true := by
  induction str with
  | nil => rfl
  | cons byte str ih =>
      rw [ascii, List.all_cons, Bool.and_eq_true] at low
      rw [utf8, if_pos (of_decide_eq_true low.1)]
      exact ih low.2

namespace Wire

/-- Lengths, in at most five bytes. -/
def lengths : Codec UInt8 ℕ := Varint.bounded 4 sizeLimit (by decide)

theorem fixed32_pos : 0 < 4 := by decide

/-- The payloads of the wire types but groups. -/
def payloads (tag : BitVec 32) : Codec UInt8 (BitVec 64 ⊕ Bytes) :=
  if tag >>> 3 = 0 then .refused
  else match (tag &&& 7).toNat with
    | 0 => (Varint.bits 9 64 (by decide)).mapped .inl (Sum.elim id fun _ => 0) fun _ => rfl
    | 1 => (Codec.fixed 8 (by decide)).mapped .inr (Sum.elim (fun _ => []) id) fun _ => rfl
    | 2 => (Codec.delimited lengths).mapped .inr (Sum.elim (fun _ => []) id) fun _ => rfl
    | 5 => (Codec.fixed 4 fixed32_pos).mapped .inr (Sum.elim (fun _ => []) id) fun _ => rfl
    | _ => .refused

/-- The runtime without groups. -/
def base128 : Wire where
  tag := Varint.bits 4 32 (by decide)
  varint := Varint.bits 9 64 (by decide)
  length := lengths
  Payload := BitVec 64 ⊕ Bytes
  payload := payloads
  verifyUTF8 := utf8 none
  tag_valid _ := trivial
  tag_size number low := if_pos low
  varint_valid _ := trivial
  varint_size value low := if_pos low
  length_valid _ small := small
  length_size size low := if_pos low
  verifyUTF8_ascii _ := utf8_ascii

end Wire

end IkunSvr
