/-
**What the C++ code runs on: bytes, machine integers, objects in memory, and the ways a run stops.**

* `Stop` — a call that does not return: `exit(-1)`, an uncaught standard exception, or undefined
  behaviour (nothing is said about a program after it).
* `Block` — an object's bytes; no object is larger than `maxSize`.
* `toInt`, `toSize`, `addInt` — conversion to `int`, conversion of an `int` to `size_t`, and the
  addition of two `int`s.
* `readInt`, `sizeBytes` — `memcpy(&len, src, 4)` and the four bytes `(char*)&size, 4` on a
  little-endian host; `readInt_sizeBytes` relates the two.
-/

import Mathlib.Data.Nat.Digits.Defs
import Mathlib.Tactic.NormNum

namespace IkunSvr

/-- A string of bytes. -/
abbrev Bytes := List UInt8

/-- The reasons a call does not return. -/
inductive Stop
  /-- `::exit(-1)` -/
  | exit
  /-- `std::length_error`, thrown by `std::string::append` -/
  | lengthError
  /-- `std::out_of_range`, thrown by `std::string::substr` and `std::string::erase` -/
  | outOfRange
  /-- undefined behaviour: a signed addition that overflows -/
  | intOverflow
  /-- undefined behaviour: an access outside an object -/
  | outOfBounds
  deriving DecidableEq, Repr

section Returns

variable {First Second : Type} {first : Except Stop First} {result : Second}

/-- Two computations in a row return when both do. -/
theorem bind_eq_ok {second : First → Except Stop Second} :
    first.bind second = .ok result ↔
      ∃ value, first = .ok value ∧ second value = .ok result := by
  cases first with
  | error stop => simp [Except.bind]
  | ok value => simp [Except.bind]

/-- A computation whose result is converted returns when it does. -/
theorem map_eq_ok {convert : First → Second} :
    first.map convert = .ok result ↔ ∃ value, first = .ok value ∧ convert value = result := by
  cases first with
  | error stop => simp [Except.map]
  | ok value => simp [Except.map]

/-- The computation does not end in `::exit`. -/
def NoExit (run : Except Stop First) : Prop :=
  run ≠ .error .exit

theorem NoExit.bind {second : First → Except Stop Second} (firstStays : NoExit first)
    (secondStays : ∀ value, NoExit (second value)) : NoExit (first.bind second) := by
  cases first with
  | error stop =>
      intro exits
      cases exits
      exact firstStays rfl
  | ok value => exact secondStays value

theorem NoExit.map {convert : First → Second} (stays : NoExit first) :
    NoExit (first.map convert) := by
  cases first with
  | error stop =>
      intro exits
      cases exits
      exact stays rfl
  | ok value =>
      intro exits
      cases exits

theorem noExit_ok (value : First) : NoExit (.ok value) :=
  fun exits => by cases exits

/-- A check that stops in some other way. -/
theorem NoExit.guard {fails : Prop} [Decidable fails] {stop : Stop} (other : stop ≠ .exit)
    (stays : NoExit first) : NoExit (if fails then .error stop else first) := by
  split
  · intro exits
    exact other (Except.error.inj exits)
  · exact stays

end Returns

/-! ### Integers -/

/-- `PTRDIFF_MAX`: the bound of every object and of every `std::string`. -/
def maxSize : Nat := 2 ^ 63 - 1

/-- The largest `int`. -/
def intMax : Int := 2 ^ 31 - 1

/-- The smallest `int`. -/
def intMin : Int := -2 ^ 31

/-- The `int` with the low 32 bits of a value. -/
def toInt (value : Int) : Int :=
  if value % 2 ^ 32 < 2 ^ 31 then value % 2 ^ 32 else value % 2 ^ 32 - 2 ^ 32

/-- An `int` converted to `size_t`. -/
def toSize (value : Int) : Nat :=
  (value % 2 ^ 64).toNat

/-- `int` addition: undefined when the sum is not an `int`. -/
def addInt (first second : Int) : Except Stop Int :=
  if first + second < intMin ∨ intMax < first + second then .error .intOverflow
  else .ok (first + second)

theorem toInt_of_small {value : Int} (nonneg : 0 ≤ value) (small : value ≤ intMax) :
    toInt value = value := by
  unfold intMax at small
  unfold toInt
  rw [Int.emod_eq_of_lt nonneg (by omega), if_pos (by omega)]

theorem toInt_range (value : Int) : intMin ≤ toInt value ∧ toInt value ≤ intMax := by
  unfold toInt intMin intMax
  split <;> omega

theorem toSize_of_nonneg {value : Int} (nonneg : 0 ≤ value) (small : value ≤ intMax) :
    toSize value = value.toNat := by
  unfold intMax at small
  unfold toSize
  rw [Int.emod_eq_of_lt nonneg (by omega)]

/-- A negative `int` becomes a size beyond every string. -/
theorem maxSize_lt_toSize {value : Int} (negative : value < 0) (inRange : intMin ≤ value) :
    maxSize < toSize value := by
  unfold intMin at inRange
  unfold maxSize toSize
  omega

theorem addInt_ok {first second : Int} (low : intMin ≤ first + second)
    (high : first + second ≤ intMax) : addInt first second = .ok (first + second) := by
  unfold addInt
  rw [if_neg (by omega)]

theorem addInt_overflow {first second : Int} (high : intMax < first + second) :
    addInt first second = .error .intOverflow := by
  unfold addInt
  rw [if_pos (Or.inr high)]

theorem addInt_eq_ok {first second sum : Int} (added : addInt first second = .ok sum) :
    first + second ≤ intMax ∧ sum = first + second := by
  unfold addInt at added
  split at added
  · cases added
  · cases added
    exact ⟨by omega, rfl⟩

theorem addInt_noExit (first second : Int) : NoExit (addInt first second) :=
  .guard (by decide) (noExit_ok _)

/-! ### Objects -/

/-- The bytes of an object; an object has an address range, so it is no larger than `maxSize`. -/
structure Block where
  bytes : Bytes
  fits : bytes.length ≤ maxSize

/-- `memcpy` of `count` bytes out of an object. -/
def memcpy (src : Bytes) (count : Nat) : Except Stop Bytes :=
  if src.length < count then .error .outOfBounds else .ok (src.take count)

/-- `memcpy(&len, src, 4)` on a little-endian host. -/
def readInt (src : Bytes) : Int :=
  toInt (Nat.ofDigits 256 ((src.take 4).map UInt8.toNat) : Nat)

/-- The four bytes `(char*)&size, 4` of a `size_t` on a little-endian host. -/
def sizeBytes (size : Nat) : Bytes :=
  [UInt8.ofNat size, UInt8.ofNat (size / 2 ^ 8), UInt8.ofNat (size / 2 ^ 16),
    UInt8.ofNat (size / 2 ^ 24)]

theorem memcpy_noExit (src : Bytes) (count : Nat) : NoExit (memcpy src count) :=
  .guard (by decide) (noExit_ok _)

theorem sizeBytes_length (size : Nat) : (sizeBytes size).length = 4 := rfl

/-- Only the first four bytes are read. -/
theorem readInt_append {src : Bytes} (long : 4 ≤ src.length) (more : Bytes) :
    readInt (src ++ more) = readInt src := by
  unfold readInt
  rw [List.take_append_of_le_length long]

theorem readInt_range (src : Bytes) : intMin ≤ readInt src ∧ readInt src ≤ intMax :=
  toInt_range _

theorem readInt_cons (b₀ b₁ b₂ b₃ : UInt8) (rest : Bytes) :
    readInt (b₀ :: b₁ :: b₂ :: b₃ :: rest) =
      toInt (b₀.toNat + 256 * (b₁.toNat + 256 * (b₂.toNat + 256 * b₃.toNat)) : Nat) := by
  simp [readInt, Nat.ofDigits_cons]

/-- **Round trip**: the four low bytes of a size read back as the size, as far as an `int` goes. -/
theorem readInt_sizeBytes {size : Nat} (small : (size : Int) ≤ intMax) (more : Bytes) :
    readInt (sizeBytes size ++ more) = size := by
  have value : (size % 256 + 256 * (size / 2 ^ 8 % 256 + 256 * (size / 2 ^ 16 % 256 +
      256 * (size / 2 ^ 24 % 256))) : Nat) = size := by
    unfold intMax at small
    omega
  unfold sizeBytes
  simp only [List.cons_append, List.nil_append]
  rw [readInt_cons]
  simp only [UInt8.toNat_ofNat']
  rw [value, toInt_of_small (by omega) small]

theorem exists_four {src : Bytes} (long : 4 ≤ src.length) :
    ∃ b₀ b₁ b₂ b₃ rest, src = b₀ :: b₁ :: b₂ :: b₃ :: rest :=
  match src, long with
  | b₀ :: b₁ :: b₂ :: b₃ :: rest, _ => ⟨b₀, b₁, b₂, b₃, rest, rfl⟩

/-- **The other way round**: a header that is not negative is the four bytes of its value. -/
theorem sizeBytes_readInt {src : Bytes} (long : 4 ≤ src.length) (nonneg : 0 ≤ readInt src) :
    sizeBytes (readInt src).toNat = src.take 4 := by
  obtain ⟨b₀, b₁, b₂, b₃, rest, rfl⟩ := exists_four long
  have b₀_lt := b₀.toNat_lt
  have b₁_lt := b₁.toNat_lt
  have b₂_lt := b₂.toNat_lt
  have b₃_lt := b₃.toNat_lt
  rw [readInt_cons] at nonneg ⊢
  have value : (toInt (b₀.toNat + 256 * (b₁.toNat + 256 * (b₂.toNat + 256 * b₃.toNat)) :
      Nat)).toNat = b₀.toNat + 256 * (b₁.toNat + 256 * (b₂.toNat + 256 * b₃.toNat)) := by
    unfold toInt at nonneg ⊢
    split at nonneg
    · rename_i small
      rw [if_pos small]
      omega
    · omega
  rw [value]
  unfold sizeBytes
  simp only [List.take_succ_cons, List.take_zero, List.cons.injEq, and_true, ← UInt8.toNat_inj,
    UInt8.toNat_ofNat']
  omega

end IkunSvr
