/-
**Base-128 numbers.**

A number is written as bytes of seven bits each, the lowest first, every byte but the last with its
high bit set; `behind` is how many bytes may stand behind the first.

* `decode_encode` — what is written is read back, whatever stands behind it;
* `bits`, `bounded` — the codecs of the bit vectors of a width, of which a longer number is cut off,
  and of the numbers up to a bound, above which none is read.
-/

import IkunSvr.Lib.Codec
import Mathlib.Algebra.Order.Ring.Nat

namespace Framing

namespace Varint

/-! ### Numbers -/

/-- The bytes of a number. -/
def encode : ℕ → ℕ → List UInt8
  | 0, value => [UInt8.ofNat value]
  | behind + 1, value =>
      if value < 128 then [UInt8.ofNat value]
      else UInt8.ofNat (value % 128 + 128) :: encode behind (value / 128)

/-- How many bytes a number has. -/
def size : ℕ → ℕ → ℕ
  | 0, _ => 1
  | behind + 1, value => if value < 128 then 1 else size behind (value / 128) + 1

/-- The number in front, and the bytes behind it. -/
def decode : ℕ → List UInt8 → Option (ℕ × List UInt8)
  | _, [] => none
  | 0, byte :: rest => if byte.toNat < 128 then some (byte.toNat, rest) else none
  | behind + 1, byte :: rest =>
      if byte.toNat < 128 then some (byte.toNat, rest)
      else (decode behind rest).map fun read => (byte.toNat - 128 + 128 * read.1, read.2)

theorem toNat_byte {value : ℕ} (small : value < 256) : (UInt8.ofNat value).toNat = value :=
  UInt8.toNat_ofNat_of_lt' small

theorem length_encode (behind value : ℕ) : (encode behind value).length = size behind value := by
  induction behind generalizing value with
  | zero => rfl
  | succ behind ih =>
      unfold encode size
      split
      · rfl
      · rw [List.length_cons, ih]

/-- A byte below 128 ends a number. -/
theorem decode_last {behind : ℕ} {byte : UInt8} (last : byte.toNat < 128) (rest : List UInt8) :
    decode behind (byte :: rest) = some (byte.toNat, rest) := by
  cases behind with
  | zero => exact if_pos last
  | succ behind => exact if_pos last

theorem decode_encode {behind value : ℕ} (small : value < 128 ^ (behind + 1)) (more : List UInt8) :
    decode behind (encode behind value ++ more) = some (value, more) := by
  have ends : ∀ {behind value : ℕ}, value < 128 →
      decode behind (UInt8.ofNat value :: more) = some (value, more) := by
    intro behind value low
    have byte : (UInt8.ofNat value).toNat = value := toNat_byte (by omega)
    rw [decode_last (by omega), byte]
  induction behind generalizing value with
  | zero => exact ends (by simpa using small)
  | succ behind ih =>
      unfold encode
      split
      · rename_i low
        exact ends low
      · have byte : (UInt8.ofNat (value % 128 + 128)).toNat = value % 128 + 128 :=
          toNat_byte (by omega)
        have quotient : value / 128 < 128 ^ (behind + 1) := by
          refine Nat.div_lt_of_lt_mul ?_
          rw [← Nat.pow_succ']
          exact small
        rw [List.cons_append, decode, if_neg (by omega), ih quotient, byte]
        simp only [Option.map_some, Option.some.injEq, Prod.mk.injEq, and_true]
        omega

/-- A number that is read leaves the bytes behind it, and is read whatever follows these. -/
theorem decode_local {behind value : ℕ} {input rest : List UInt8}
    (read : decode behind input = some (value, rest)) :
    rest.length < input.length ∧
      ∀ more, decode behind (input ++ more) = some (value, rest ++ more) := by
  induction input generalizing behind value with
  | nil =>
      unfold decode at read
      cases read
  | cons byte input ih =>
      by_cases last : byte.toNat < 128
      · rw [decode_last last] at read
        cases read
        exact ⟨Nat.lt_succ_self _, fun more => decode_last last _⟩
      · cases behind with
        | zero =>
            rw [decode, if_neg last] at read
            cases read
        | succ behind =>
            rw [decode, if_neg last] at read
            obtain ⟨⟨high, left⟩, found, same⟩ := Option.map_eq_some_iff.mp read
            cases same
            obtain ⟨shorter, extends_it⟩ := ih found
            refine ⟨Nat.lt_succ_of_lt shorter, fun more => ?_⟩
            rw [List.cons_append, decode, if_neg last, extends_it]
            rfl

/-! ### Codecs -/

/-- Bit vectors: the bits of a number beyond the width are dropped. -/
def bits (behind width : ℕ) (fits : 2 ^ width ≤ 128 ^ (behind + 1)) : Codec UInt8 (BitVec width) where
  next input := (decode behind input).map fun read => (BitVec.ofNat width read.1, read.2)
  shrinks {input value rest} read := by
    obtain ⟨⟨number, behind⟩, found, same⟩ := Option.map_eq_some_iff.mp read
    cases same
    exact (decode_local found).1
  extends_next {input value rest} read more := by
    obtain ⟨⟨number, behind⟩, found, same⟩ := Option.map_eq_some_iff.mp read
    cases same
    rw [(decode_local found).2]
    rfl
  Valid _ := True
  write value := encode behind value.toNat
  size value := size behind value.toNat
  next_write {value} _ more := by
    rw [decode_encode (Nat.lt_of_lt_of_le value.isLt fits), Option.map_some, BitVec.ofNat_toNat,
      BitVec.setWidth_eq]
  next_valid _ := trivial
  length_write value := length_encode behind value.toNat

/-- Numbers up to a bound. -/
def bounded (behind bound : ℕ) (fits : bound < 128 ^ (behind + 1)) : Codec UInt8 ℕ where
  next input := (decode behind input).filter fun read => read.1 ≤ bound
  shrinks {input value rest} read := (decode_local (Option.filter_eq_some_iff.mp read).1).1
  extends_next {input value rest} read more := by
    obtain ⟨found, within⟩ := Option.filter_eq_some_iff.mp read
    exact Option.filter_eq_some_iff.mpr ⟨(decode_local found).2 more, within⟩
  Valid value := value ≤ bound
  write value := encode behind value
  size value := size behind value
  next_write {value} valid more := by
    refine Option.filter_eq_some_iff.mpr ⟨decode_encode (Nat.lt_of_le_of_lt valid fits) more, ?_⟩
    exact decide_eq_true valid
  next_valid {input value rest} read := of_decide_eq_true (Option.filter_eq_some_iff.mp read).2
  length_write value := length_encode behind value

end Varint

end Framing
