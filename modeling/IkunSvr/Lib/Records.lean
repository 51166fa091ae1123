/-
**Parsing a message record by record.**

A message's parser is a loop: each turn takes one record off the front of the input and changes the
message by it, until the input is used up, a record ends the message early, or one is malformed.
Where a record is found whatever stands behind it (`Local`):

* `parse_next` — a turn, and then the rest;
* `parse_append` — **a message and more input behind it**: parsing both together is parsing the more
  into the message of the first;
* `parse_kept` — what every record keeps, a whole parse keeps.
-/

import Mathlib.Data.List.Basic
import Mathlib.Tactic.TypeStar

namespace Framing

variable {α Msg : Type*}

/-- What a turn of the loop comes to. -/
inductive Turn (α Msg : Type*)
  /-- the record is taken, with the message after it and the input behind it -/
  | next (msg : Msg) (rest : List α)
  /-- the record ends the message -/
  | stop (msg : Msg)
  /-- the record is malformed -/
  | fail

/-- How a parse ends. -/
inductive Parsed (Msg : Type*)
  /-- with the input -/
  | done (msg : Msg)
  /-- with a record that ends the message -/
  | stopped (msg : Msg)
  | failed

/-- The message, where the parse ends with the input. -/
def Parsed.whole : Parsed Msg → Option Msg
  | .done msg => some msg
  | .stopped _ => none
  | .failed => none

theorem Parsed.whole_eq_some {parsed : Parsed Msg} {msg : Msg} :
    parsed.whole = some msg ↔ parsed = .done msg := by
  cases parsed with
  | done final => simp [Parsed.whole]
  | stopped final => simp [Parsed.whole]
  | failed => simp [Parsed.whole]

variable (turn : Msg → List α → Turn α Msg)

/-- The loop, within `fuel` turns. -/
def turns : ℕ → Msg → List α → Parsed Msg
  | _, msg, [] => .done msg
  | 0, _, _ :: _ => .failed
  | fuel + 1, msg, symbol :: input =>
      match turn msg (symbol :: input) with
      | .next next rest => turns fuel next rest
      | .stop next => .stopped next
      | .fail => .failed

/-- The loop: a turn takes a symbol at least. -/
def parse (msg : Msg) (input : List α) : Parsed Msg :=
  turns turn input.length msg input

/-- A record is not empty, and is found whatever stands behind it. -/
structure Local : Prop where
  shrinks : ∀ {msg next input rest}, turn msg input = .next next rest → rest.length < input.length
  extends_next : ∀ {msg next input rest}, turn msg input = .next next rest →
    ∀ more, turn msg (input ++ more) = .next next (rest ++ more)

/-- Turns take the whole input off, and leave the message `final`. -/
inductive Takes : Msg → List α → Msg → Prop
  | done (msg : Msg) : Takes msg [] msg
  | next {msg next final : Msg} {input rest : List α} :
      turn msg input = .next next rest → Takes next rest final → Takes msg input final

variable {turn}

@[simp] theorem parse_nil (msg : Msg) : parse turn msg [] = .done msg :=
  rfl

namespace Local

variable (loc : Local turn)
include loc

/-- More turns than symbols are not needed. -/
theorem turns_eq {fuel more : ℕ} {msg : Msg} {input : List α} (enough : input.length ≤ fuel)
    (enough' : input.length ≤ more) : turns turn fuel msg input = turns turn more msg input := by
  induction fuel generalizing more msg input with
  | zero =>
      rw [List.eq_nil_of_length_eq_zero (Nat.le_zero.mp enough)]
      cases more <;> rfl
  | succ fuel ih =>
      cases input with
      | nil => cases more <;> rfl
      | cons symbol input =>
          cases more with
          | zero => cases Nat.not_succ_le_zero _ enough'
          | succ more =>
              simp only [turns]
              split
              · rename_i next rest found
                have shorter := loc.shrinks found
                exact ih (by omega) (by omega)
              · rfl
              · rfl

/-- **A turn, and then the rest.** -/
theorem parse_next {msg next : Msg} {input rest : List α} (found : turn msg input = .next next rest) :
    parse turn msg input = parse turn next rest := by
  have shorter := loc.shrinks found
  cases input with
  | nil => cases Nat.not_lt_zero _ shorter
  | cons symbol input =>
      rw [parse, List.length_cons, turns, found]
      exact loc.turns_eq (Nat.le_of_lt_succ shorter) (Nat.le_refl _)

/-- A parse that ends with the input is a chain of turns. -/
theorem takes_of_parse {msg final : Msg} {input : List α}
    (parsed : parse turn msg input = .done final) : Takes turn msg input final := by
  induction size : input.length using Nat.strongRecOn generalizing msg input with
  | ind size ih =>
      cases input with
      | nil =>
          cases parsed
          exact .done _
      | cons symbol input =>
          cases found : turn msg (symbol :: input) with
          | next next rest =>
              have shorter := loc.shrinks found
              rw [loc.parse_next found] at parsed
              exact .next found (ih rest.length (size ▸ shorter) parsed rfl)
          | stop next =>
              simp only [parse, List.length_cons, turns, found] at parsed
              cases parsed
          | fail =>
              simp only [parse, List.length_cons, turns, found] at parsed
              cases parsed

/-- **A message and more input behind it.** -/
theorem parse_append {msg final : Msg} {input : List α} (more : List α)
    (parsed : parse turn msg input = .done final) :
    parse turn msg (input ++ more) = parse turn final more := by
  induction loc.takes_of_parse parsed with
  | done msg => rfl
  | next found _ ih =>
      rw [loc.parse_next (loc.extends_next found more)]
      exact ih (loc.parse_next found ▸ parsed)

/-- **What every record keeps, a whole parse keeps.** -/
theorem parse_kept (holds : Msg → Prop)
    (kept : ∀ {msg next input rest}, holds msg → turn msg input = .next next rest → holds next)
    {msg final : Msg} {input : List α} (first : holds msg)
    (parsed : parse turn msg input = .done final) : holds final := by
  induction loc.takes_of_parse parsed with
  | done msg => exact first
  | next found _ ih => exact ih (kept first found) (loc.parse_next found ▸ parsed)

end Local

end Framing
