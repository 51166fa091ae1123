/-
**Incremental framing of a stream.**

A `Parser` takes one message off the front of a buffer; it consumes what it takes (`shrinks`), and
bytes that arrive behind a message do not change it (`extends_next`). `Drains` is the exhausted
parser: the messages taken off a buffer until none is left to take, and the rest.

* `Drains.append` — draining what a first part left, once more bytes have arrived behind it, gives
  what draining everything at once gives: a stream may be cut anywhere.

A `LengthPrefix` is a header format of fixed width, and `parser` its parser. For payloads within the
format's limit:

* `next_frame`, `next_incomplete` — a whole frame is taken, a proper prefix of one is not;
* `drains_stream` — a whole stream drains to its payloads;
* `drains_take` — the first `count` symbols of a stream of frames drain to the payloads whose
  frames are complete among them (`complete`);
* `Drains.stream_split` — what a drained prefix leaves behind continues the stream of the payloads
  not yet taken.
-/

import Mathlib.Data.List.Basic
import Mathlib.Data.List.Infix
import Mathlib.Tactic.TypeStar

namespace Framing

variable {α μ : Type*}

/-! ### Parsers -/

/-- A parser that takes one message off the front of a buffer. -/
structure Parser (α μ : Type*) where
  next : List α → Option (μ × List α)
  shrinks : ∀ {input message rest}, next input = some (message, rest) → rest.length < input.length
  extends_next : ∀ {input message rest}, next input = some (message, rest) →
    ∀ more, next (input ++ more) = some (message, rest ++ more)

/-- Taking messages off `input` until none is left gives `messages` and leaves `rest`. -/
inductive Drains (parser : Parser α μ) : List α → List μ → List α → Prop
  | done {input : List α} : parser.next input = none → Drains parser input [] input
  | take {input rest final : List α} {message : μ} {messages : List μ} :
      parser.next input = some (message, rest) → Drains parser rest messages final →
      Drains parser input (message :: messages) final

namespace Drains

variable {parser : Parser α μ}

/-- Every buffer drains. -/
theorem total (parser : Parser α μ) (input : List α) :
    ∃ messages rest, Drains parser input messages rest := by
  induction size : input.length using Nat.strongRecOn generalizing input with
  | ind size ih =>
      cases found : parser.next input with
      | none => exact ⟨[], input, .done found⟩
      | some taken =>
          obtain ⟨message, rest⟩ := taken
          obtain ⟨messages, final, later⟩ := ih rest.length (size ▸ parser.shrinks found) rest rfl
          exact ⟨message :: messages, final, .take found later⟩

/-- A buffer drains in one way. -/
theorem unique {input rest rest' : List α} {messages messages' : List μ}
    (first : Drains parser input messages rest) (second : Drains parser input messages' rest') :
    messages = messages' ∧ rest = rest' := by
  induction first generalizing messages' with
  | done empty =>
      cases second with
      | done _ => exact ⟨rfl, rfl⟩
      | take found _ => rw [empty] at found; cases found
  | take found _ ih =>
      cases second with
      | done empty => rw [empty] at found; cases found
      | take found' later =>
          rw [found] at found'
          cases found'
          obtain ⟨same, sameRest⟩ := ih later
          exact ⟨by rw [same], sameRest⟩

/-- **Cutting a stream.** Draining a first part, and then what it left with more behind it, is
draining both parts together. -/
theorem append {input more rest final : List α} {messages later : List μ}
    (first : Drains parser input messages rest)
    (second : Drains parser (rest ++ more) later final) :
    Drains parser (input ++ more) (messages ++ later) final := by
  induction first with
  | done _ => exact second
  | take found _ ih => exact .take (parser.extends_next found more) (ih second)

end Drains

/-! ### Length-prefixed frames -/

/-- A header of fixed width that carries the length of what follows; `decode` is partial, since not
every header need be a length. -/
structure LengthPrefix (α : Type*) where
  width : Nat
  limit : Nat
  encode : Nat → List α
  decode : List α → Option Nat
  width_pos : 0 < width
  encode_length : ∀ size, (encode size).length = width
  decode_encode : ∀ size, size ≤ limit → decode (encode size) = some size

namespace LengthPrefix

variable (format : LengthPrefix α)

/-- A payload behind its header. -/
def frame (payload : List α) : List α :=
  format.encode payload.length ++ payload

/-- The frames of the payloads, one after the other. -/
def stream (payloads : List (List α)) : List α :=
  payloads.flatMap format.frame

/-- Every payload's length fits the header. -/
def Fits (payloads : List (List α)) : Prop :=
  ∀ payload ∈ payloads, payload.length ≤ format.limit

/-- Take one complete frame off the front, if there is one. -/
def next (input : List α) : Option (List α × List α) :=
  if input.length < format.width then none
  else match format.decode (input.take format.width) with
    | none => none
    | some size =>
        if input.length < format.width + size then none
        else some ((input.drop format.width).take size, input.drop (format.width + size))

/-- The payloads whose frames lie within the first `count` symbols of their stream. -/
def complete : List (List α) → Nat → List (List α)
  | [], _ => []
  | payload :: payloads, count =>
      if (format.frame payload).length ≤ count then
        payload :: complete payloads (count - (format.frame payload).length)
      else []

variable {format}

theorem frame_length (payload : List α) :
    (format.frame payload).length = format.width + payload.length := by
  rw [frame, List.length_append, format.encode_length]

theorem stream_cons (payload : List α) (payloads : List (List α)) :
    format.stream (payload :: payloads) = format.frame payload ++ format.stream payloads := rfl

theorem Fits.tail {payload : List α} {payloads : List (List α)}
    (fits : format.Fits (payload :: payloads)) : format.Fits payloads :=
  fun other member => fits other (List.mem_cons_of_mem _ member)

/-- What a found frame looks like. -/
theorem next_eq_some {input message rest : List α}
    (found : format.next input = some (message, rest)) :
    ∃ size, format.decode (input.take format.width) = some size ∧
      format.width + size ≤ input.length ∧ message = (input.drop format.width).take size ∧
      rest = input.drop (format.width + size) := by
  unfold next at found
  split at found
  · cases found
  · split at found
    · cases found
    · rename_i size decoded
      split at found
      · cases found
      · cases found
        exact ⟨size, decoded, by omega, rfl, rfl⟩

/-- **The parser of a header format.** -/
def parser (format : LengthPrefix α) : Parser α (List α) where
  next := format.next
  shrinks := by
    intro input message rest found
    obtain ⟨size, _, within, _, rfl⟩ := next_eq_some found
    have := format.width_pos
    rw [List.length_drop]
    omega
  extends_next := by
    intro input message rest found more
    obtain ⟨size, decoded, within, rfl, rfl⟩ := next_eq_some found
    have header : (input ++ more).take format.width = input.take format.width :=
      List.take_append_of_le_length (by omega)
    have body : (input ++ more).drop format.width = input.drop format.width ++ more :=
      List.drop_append_of_le_length (by omega)
    have rest : (input ++ more).drop (format.width + size) =
        input.drop (format.width + size) ++ more :=
      List.drop_append_of_le_length within
    have long : format.width + size ≤ (input ++ more).length := by
      rw [List.length_append]
      omega
    unfold next
    rw [if_neg (by omega), header, decoded]
    simp only
    rw [if_neg (by omega), body, rest,
      List.take_append_of_le_length (by rw [List.length_drop]; omega)]

theorem parser_next : format.parser.next = format.next := rfl

/-- **A whole frame is taken**, whatever follows it. -/
theorem next_frame {payload : List α} (small : payload.length ≤ format.limit) (more : List α) :
    format.next (format.frame payload ++ more) = some (payload, more) := by
  have width := format.encode_length payload.length
  have long : format.width + payload.length ≤ (format.frame payload ++ more).length := by
    rw [List.length_append, frame_length]
    omega
  have header : (format.frame payload ++ more).take format.width = format.encode payload.length := by
    rw [frame, List.append_assoc, List.take_left' width]
  have body : (format.frame payload ++ more).drop format.width = payload ++ more := by
    rw [frame, List.append_assoc, List.drop_left' width]
  have behind : (format.frame payload ++ more).drop (format.width + payload.length) = more :=
    List.drop_left' (frame_length payload)
  unfold next
  rw [if_neg (by omega), header, format.decode_encode _ small]
  simp only
  rw [if_neg (by omega), body, behind, List.take_left]

/-- **A proper prefix of a frame is not taken.** -/
theorem next_incomplete {payload input more : List α} (small : payload.length ≤ format.limit)
    (split : input ++ more = format.frame payload) (short : input.length < (format.frame payload).length) :
    format.next input = none := by
  by_cases header : input.length < format.width
  · unfold next
    rw [if_pos header]
  · have width := format.encode_length payload.length
    have front : input.take format.width = format.encode payload.length := by
      have whole := congrArg (List.take format.width) split
      rw [List.take_append_of_le_length (by omega), frame, List.take_left' width] at whole
      exact whole
    unfold next
    rw [if_neg header, front, format.decode_encode _ small]
    simp only
    rw [if_pos (by rw [← frame_length]; exact short)]

/-! ### A stream of frames -/

/-- The complete payloads are a prefix of the payloads. -/
theorem complete_prefix (payloads : List (List α)) (count : Nat) :
    format.complete payloads count <+: payloads := by
  induction payloads generalizing count with
  | nil => exact List.nil_prefix
  | cons payload payloads ih =>
      unfold complete
      split
      · exact (List.prefix_cons_inj payload).mpr (ih _)
      · exact List.nil_prefix

/-- In the whole stream every frame is complete. -/
theorem complete_all (payloads : List (List α)) :
    format.complete payloads (format.stream payloads).length = payloads := by
  induction payloads with
  | nil => rfl
  | cons payload payloads ih =>
      unfold complete
      rw [stream_cons, List.length_append, if_pos (by omega), Nat.add_sub_cancel_left, ih]

theorem next_nil : format.next [] = none := by
  unfold next
  rw [if_pos (by simpa using format.width_pos)]

theorem drains_nil : Drains format.parser [] [] [] :=
  .done next_nil

/-- The whole stream drains to its payloads and leaves nothing. -/
theorem drains_stream {payloads : List (List α)} (fits : format.Fits payloads) :
    Drains format.parser (format.stream payloads) payloads [] := by
  induction payloads with
  | nil => exact drains_nil
  | cons payload payloads ih =>
      exact .take (next_frame (fits payload List.mem_cons_self) _) (ih fits.tail)

/-- **A prefix of a stream drains to the payloads complete in it.** -/
theorem drains_take {payloads : List (List α)} (fits : format.Fits payloads) {input more : List α}
    (split : input ++ more = format.stream payloads) :
    ∃ rest, Drains format.parser input (format.complete payloads input.length) rest := by
  induction payloads generalizing input with
  | nil =>
      have empty : input = [] := (List.append_eq_nil_iff.mp split).1
      subst empty
      exact ⟨[], drains_nil⟩
  | cons payload payloads ih =>
      have small : payload.length ≤ format.limit := fits payload List.mem_cons_self
      rw [stream_cons] at split
      by_cases whole : (format.frame payload).length ≤ input.length
      · obtain ⟨behind, rfl⟩ : ∃ behind, input = format.frame payload ++ behind :=
          ⟨input.drop (format.frame payload).length, by
            have front := congrArg (List.take (format.frame payload).length) split
            rw [List.take_append_of_le_length whole, List.take_left] at front
            conv_lhs => rw [← List.take_append_drop (format.frame payload).length input, front]⟩
        rw [List.append_assoc, List.append_cancel_left_eq] at split
        obtain ⟨rest, drains⟩ := ih fits.tail split
        refine ⟨rest, ?_⟩
        unfold complete
        rw [if_pos whole, List.length_append, Nat.add_sub_cancel_left]
        exact .take (next_frame small behind) drains
      · refine ⟨input, ?_⟩
        unfold complete
        rw [if_neg whole]
        have front := congrArg (List.take input.length) split
        rw [List.take_left, List.take_append_of_le_length (by omega)] at front
        have cut : input ++ (format.frame payload).drop input.length = format.frame payload := by
          conv_rhs => rw [← List.take_append_drop input.length (format.frame payload), ← front]
        exact .done (next_incomplete small cut (by omega))

/-- What a prefix of a stream drains to are the payloads complete in it. -/
theorem Drains.eq_complete {payloads messages : List (List α)} {input more rest : List α}
    (drains : Drains format.parser input messages rest) (fits : format.Fits payloads)
    (split : input ++ more = format.stream payloads) :
    messages = format.complete payloads input.length := by
  obtain ⟨_, prefixDrains⟩ := drains_take fits split
  exact (drains.unique prefixDrains).1

/-- A message taken off the front of a stream is its first payload. -/
theorem next_stream {payloads : List (List α)} (fits : format.Fits payloads)
    {input more message rest : List α} (found : format.next input = some (message, rest))
    (split : input ++ more = format.stream payloads) :
    ∃ behind, payloads = message :: behind ∧ format.Fits behind ∧
      rest ++ more = format.stream behind := by
  have taken : format.next (input ++ more) = some (message, rest ++ more) :=
    format.parser.extends_next found more
  rw [split] at taken
  cases payloads with
  | nil =>
      have := format.parser.shrinks taken
      simp [stream] at this
  | cons payload payloads =>
      rw [stream_cons, next_frame (fits payload List.mem_cons_self)] at taken
      simp only [Option.some.injEq, Prod.mk.injEq] at taken
      obtain ⟨rfl, behind⟩ := taken
      exact ⟨payloads, rfl, fits.tail, behind.symm⟩

/-- **What a drained prefix leaves continues the stream** of the payloads not yet taken. -/
theorem Drains.stream_split {payloads messages : List (List α)} {input more rest : List α}
    (drains : Drains format.parser input messages rest) (fits : format.Fits payloads)
    (split : input ++ more = format.stream payloads) :
    ∃ later, payloads = messages ++ later ∧ format.Fits later ∧
      rest ++ more = format.stream later := by
  induction drains generalizing payloads with
  | done _ => exact ⟨payloads, rfl, fits, split⟩
  | take found _ ih =>
      obtain ⟨behind, rfl, fitsBehind, splitBehind⟩ := next_stream fits found split
      obtain ⟨later, rfl, fitsLater, tail⟩ := ih fitsBehind splitBehind
      exact ⟨later, rfl, fitsLater, tail⟩

end LengthPrefix

end Framing
