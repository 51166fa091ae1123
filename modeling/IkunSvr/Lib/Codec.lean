/-
**Codecs: values written so that a reader finds where they end.**

A `Codec` is a parser together with a writer. What is written for a valid value is read back, whatever
stands behind it (`next_write`), what is read is valid (`next_valid`), and the length of what is
written is known beforehand (`length_write`).

* `delimited` — a block of symbols behind its length;
* `fixed` — a block of symbols of one length;
* `mapped` — a codec whose values are carried by another type;
* `refused` — the codec of no value.
-/

import IkunSvr.Lib.Framing

namespace Framing

variable {α μ ν : Type*}

/-- A parser, and a writer of what it reads. -/
structure Codec (α μ : Type*) extends Parser α μ where
  Valid : μ → Prop
  write : μ → List α
  size : μ → ℕ
  next_write : ∀ {message}, Valid message → ∀ more, next (write message ++ more) = some (message, more)
  next_valid : ∀ {input message rest}, next input = some (message, rest) → Valid message
  length_write : ∀ message, (write message).length = size message

namespace Codec

/-! ### Blocks behind their length -/

/-- The symbols that the length in front announces, once they are all there. -/
def takeBlock (input : ℕ × List α) : Option (List α × List α) :=
  if input.1 ≤ input.2.length then some (input.2.take input.1, input.2.drop input.1) else none

theorem takeBlock_eq_some {count : ℕ} {input block rest : List α} :
    takeBlock (count, input) = some (block, rest) ↔ block.length = count ∧ input = block ++ rest := by
  unfold takeBlock
  constructor
  · intro taken
    split at taken
    · rename_i enough
      cases taken
      exact ⟨List.length_take_of_le enough, (List.take_append_drop count input).symm⟩
    · cases taken
  · rintro ⟨rfl, rfl⟩
    rw [if_pos (by simp), List.take_left, List.drop_left]

/-- A block of symbols behind its length. -/
def delimited (length : Codec α ℕ) : Codec α (List α) where
  next input := (length.next input).bind takeBlock
  shrinks {input block rest} read := by
    obtain ⟨⟨count, behind⟩, headed, taken⟩ := Option.bind_eq_some_iff.mp read
    obtain ⟨_, rfl⟩ := takeBlock_eq_some.mp taken
    refine Nat.lt_of_le_of_lt ?_ (length.shrinks headed)
    rw [List.length_append]
    exact Nat.le_add_left ..
  extends_next {input block rest} read more := by
    obtain ⟨⟨count, behind⟩, headed, taken⟩ := Option.bind_eq_some_iff.mp read
    obtain ⟨counted, rfl⟩ := takeBlock_eq_some.mp taken
    refine Option.bind_eq_some_iff.mpr ⟨_, length.extends_next headed more, ?_⟩
    exact takeBlock_eq_some.mpr ⟨counted, List.append_assoc ..⟩
  Valid block := length.Valid block.length
  write block := length.write block.length ++ block
  size block := length.size block.length + block.length
  next_write {block} valid more := by
    rw [List.append_assoc, length.next_write valid]
    exact takeBlock_eq_some.mpr ⟨rfl, rfl⟩
  next_valid {input block rest} read := by
    obtain ⟨⟨count, behind⟩, headed, taken⟩ := Option.bind_eq_some_iff.mp read
    obtain ⟨rfl, _⟩ := takeBlock_eq_some.mp taken
    exact length.next_valid headed
  length_write block := by
    rw [List.length_append, length.length_write]

/-- A block of `width` symbols. -/
def fixed (width : ℕ) (pos : 0 < width) : Codec α (List α) where
  next input := takeBlock (width, input)
  shrinks {input block rest} read := by
    obtain ⟨counted, rfl⟩ := takeBlock_eq_some.mp read
    rw [List.length_append]
    omega
  extends_next {input block rest} read more := by
    obtain ⟨counted, rfl⟩ := takeBlock_eq_some.mp read
    exact takeBlock_eq_some.mpr ⟨counted, List.append_assoc ..⟩
  Valid block := block.length = width
  write block := block
  size block := block.length
  next_write valid more := takeBlock_eq_some.mpr ⟨valid, rfl⟩
  next_valid read := (takeBlock_eq_some.mp read).1
  length_write _ := rfl

/-! ### Codecs from codecs -/

/-- The values of a codec, carried by another type that they can be told from. -/
def mapped (codec : Codec α μ) (into : μ → ν) (back : ν → μ) (known : ∀ value, back (into value) = value) :
    Codec α ν where
  next input := (codec.next input).map fun read => (into read.1, read.2)
  shrinks {input value rest} read := by
    obtain ⟨⟨message, behind⟩, found, same⟩ := Option.map_eq_some_iff.mp read
    cases same
    exact codec.shrinks found
  extends_next {input value rest} read more := by
    obtain ⟨⟨message, behind⟩, found, same⟩ := Option.map_eq_some_iff.mp read
    cases same
    rw [codec.extends_next found more]
    rfl
  Valid value := codec.Valid (back value) ∧ into (back value) = value
  write value := codec.write (back value)
  size value := codec.size (back value)
  next_write {value} valid more := by
    rw [codec.next_write valid.1, Option.map_some, valid.2]
  next_valid {input value rest} read := by
    obtain ⟨⟨message, behind⟩, found, same⟩ := Option.map_eq_some_iff.mp read
    cases same
    rw [known]
    exact ⟨codec.next_valid found, rfl⟩
  length_write value := codec.length_write (back value)

/-- The codec of no value. -/
def refused : Codec α μ where
  next _ := none
  shrinks read := by cases read
  extends_next read := by cases read
  Valid _ := False
  write _ := []
  size _ := 0
  next_write valid := valid.elim
  next_valid read := by cases read
  length_write _ := rfl

end Codec

end Framing
