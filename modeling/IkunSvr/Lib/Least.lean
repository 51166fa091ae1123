/-
**Looking for the least of several values while they fall.**

A scan goes through positions 0, 1, …, `n` and keeps the position `idx` of the least value it has
found. At position `i` it reads the value there (`left`) and, once more, the value at `idx` (`right`),
in either order, and moves `idx` to `i` if the first is smaller. Between any two reads any of the
values may fall.

* `Tracks` — against the values that there were at first: nothing that the scan has passed was, at
  first, below what is now at `idx`;
* `Tracks.read_left`, `Tracks.read_right`, `Tracks.test`, `Tracks.fall` — what the scan does, and what
  it does not see, keeps that, so that behind the last position `idx` is at most the least of the
  first values (`Tracks.least_of_end`);
* `Picks` — with values that do not change, `idx` is the lowest position of the least value;
* `Level` — values that are within one of each other stay so when a least one of them grows by one
  (`Level.raise`).
-/

import Mathlib.Logic.Function.Basic
import Mathlib.Order.Fin.Basic

namespace Least

variable {Value : Type*} [LinearOrder Value] {n : ℕ}

/-! ### Falling values -/

/-- Where the scan is, with the values as they were and as they are. -/
structure Tracks (first now : Fin (n + 1) → Value) (i : ℕ) (idx : Fin (n + 1))
    (left right : Option Value) : Prop where
  fallen : now ≤ first
  least : ∀ pos : Fin (n + 1), pos.1 < i → now idx ≤ first pos
  left : ∀ value ∈ left, ∀ pos : Fin (n + 1), pos.1 = i → now pos ≤ value ∧ value ≤ first pos
  right : ∀ value ∈ right, now idx ≤ value ∧ ∀ pos : Fin (n + 1), pos.1 < i → value ≤ first pos

section Falling

variable {first now : Fin (n + 1) → Value} {i : ℕ} {idx : Fin (n + 1)} {left right : Option Value}

theorem Tracks.start (first : Fin (n + 1) → Value) (idx : Fin (n + 1)) :
    Tracks first first 0 idx none none where
  fallen := le_rfl
  least := nofun
  left := nofun
  right := nofun

/-- Values that fall keep what the scan knows. -/
theorem Tracks.fall (tracks : Tracks first now i idx left right) {later : Fin (n + 1) → Value}
    (fallen : later ≤ now) : Tracks first later i idx left right where
  fallen := fallen.trans tracks.fallen
  least := fun pos passed => (fallen idx).trans (tracks.least pos passed)
  left := fun value read pos here =>
    ⟨(fallen pos).trans (tracks.left value read pos here).1, (tracks.left value read pos here).2⟩
  right := fun value read =>
    ⟨(fallen idx).trans (tracks.right value read).1, (tracks.right value read).2⟩

theorem Tracks.read_left (tracks : Tracks first now i idx left right) (inside : i < n + 1) :
    Tracks first now i idx (some (now ⟨i, inside⟩)) right where
  fallen := tracks.fallen
  least := tracks.least
  left := by
    rintro value ⟨⟩ pos here
    obtain rfl : pos = ⟨i, inside⟩ := Fin.ext here
    exact ⟨le_rfl, tracks.fallen _⟩
  right := tracks.right

theorem Tracks.read_right (tracks : Tracks first now i idx left right) :
    Tracks first now i idx left (some (now idx)) where
  fallen := tracks.fallen
  least := tracks.least
  left := tracks.left
  right := by
    rintro value ⟨⟩
    exact ⟨le_rfl, tracks.least⟩

/-- **The comparison of two values read earlier** is good enough: what is smaller now was read
smaller. -/
theorem Tracks.test {here best : Value} (tracks : Tracks first now i idx (some here) (some best))
    (inside : i < n + 1) :
    Tracks first now (i + 1) (if here < best then ⟨i, inside⟩ else idx) none none where
  fallen := tracks.fallen
  least := by
    intro pos passed
    obtain ⟨fallen, bound⟩ := tracks.left here rfl ⟨i, inside⟩ rfl
    obtain ⟨fallenBest, passedBest⟩ := tracks.right best rfl
    rcases Nat.lt_succ_iff_lt_or_eq.mp passed with before | last
    · split
      next smaller => exact fallen.trans (smaller.le.trans (passedBest pos before))
      next => exact tracks.least pos before
    · obtain rfl : pos = ⟨i, inside⟩ := Fin.ext last
      split
      next => exact fallen.trans bound
      next larger => exact fallenBest.trans ((not_lt.mp larger).trans bound)
  left := nofun
  right := nofun

/-- A scan may go back. -/
theorem Tracks.back (tracks : Tracks first now i idx none none) {before : ℕ} (le : before ≤ i) :
    Tracks first now before idx none none where
  fallen := tracks.fallen
  least := fun pos passed => tracks.least pos (passed.trans_le le)
  left := nofun
  right := nofun

/-- **Behind the last position** the value at `idx` is at most the least of the first values. -/
theorem Tracks.least_of_end (tracks : Tracks first now i idx left right) (ended : n + 1 ≤ i)
    (pos : Fin (n + 1)) : now idx ≤ first pos :=
  tracks.least pos (pos.2.trans_le ended)

end Falling

/-! ### Values that do not change -/

/-- Where the scan is, with values that do not change: `idx` is the lowest position of the least value
passed. -/
structure Picks (values : Fin (n + 1) → Value) (i : ℕ) (idx : Fin (n + 1))
    (left right : Option Value) : Prop where
  least : ∀ pos : Fin (n + 1), pos.1 < i → values idx ≤ values pos
  lowest : ∀ pos, pos < idx → values idx < values pos
  left : ∀ value ∈ left, ∀ pos : Fin (n + 1), pos.1 = i → value = values pos
  right : ∀ value ∈ right, value = values idx

section Fixed

variable {values : Fin (n + 1) → Value} {i : ℕ} {idx : Fin (n + 1)} {left right : Option Value}

theorem Picks.start (values : Fin (n + 1) → Value) : Picks values 0 0 none none where
  least := nofun
  lowest := fun pos below => absurd below (Fin.not_lt_zero pos)
  left := nofun
  right := nofun

theorem Picks.read_left (picks : Picks values i idx left right) (inside : i < n + 1) :
    Picks values i idx (some (values ⟨i, inside⟩)) right where
  least := picks.least
  lowest := picks.lowest
  left := by
    rintro value ⟨⟩ pos here
    obtain rfl : pos = ⟨i, inside⟩ := Fin.ext here
    rfl
  right := picks.right

theorem Picks.read_right (picks : Picks values i idx left right) :
    Picks values i idx left (some (values idx)) where
  least := picks.least
  lowest := picks.lowest
  left := picks.left
  right := by
    rintro value ⟨⟩
    rfl

theorem Picks.test {here best : Value} (picks : Picks values i idx (some here) (some best))
    (inside : i < n + 1) :
    Picks values (i + 1) (if here < best then ⟨i, inside⟩ else idx) none none := by
  obtain rfl := picks.left here rfl ⟨i, inside⟩ rfl
  obtain rfl := picks.right best rfl
  split
  next smaller =>
    refine ⟨fun pos passed => ?_, fun pos below => ?_, nofun, nofun⟩
    · rcases Nat.lt_succ_iff_lt_or_eq.mp passed with before | last
      · exact smaller.le.trans (picks.least pos before)
      · obtain rfl : pos = ⟨i, inside⟩ := Fin.ext last
        exact le_rfl
    · exact smaller.trans_le (picks.least pos below)
  next larger =>
    refine ⟨fun pos passed => ?_, picks.lowest, nofun, nofun⟩
    rcases Nat.lt_succ_iff_lt_or_eq.mp passed with before | last
    · exact picks.least pos before
    · obtain rfl : pos = ⟨i, inside⟩ := Fin.ext last
      exact not_lt.mp larger

theorem Picks.back (picks : Picks values i idx none none) {before : ℕ} (le : before ≤ i) :
    Picks values before idx none none where
  least := fun pos passed => picks.least pos (passed.trans_le le)
  lowest := picks.lowest
  left := nofun
  right := nofun

/-- **Behind the last position** the value at `idx` is a least one. -/
theorem Picks.least_of_end (picks : Picks values i idx left right) (ended : n + 1 ≤ i)
    (pos : Fin (n + 1)) : values idx ≤ values pos :=
  picks.least pos (pos.2.trans_le ended)

end Fixed

/-! ### Values within one of each other -/

/-- No value is more than one above another. -/
def Level {Pos : Type*} (values : Pos → ℕ) : Prop :=
  ∀ pos other, values pos ≤ values other + 1

/-- **A least value that grows by one** leaves the values within one of each other. -/
theorem Level.raise {Pos : Type*} {values later : Pos → ℕ} {idx : Pos} (level : Level values)
    (least : ∀ pos, values idx ≤ values pos) (raised : later idx = values idx + 1)
    (same : ∀ pos, pos ≠ idx → later pos = values pos) : Level later := by
  intro pos other
  by_cases first : pos = idx <;> by_cases second : other = idx
  · rw [first, second]
    exact Nat.le_succ _
  · rw [first, raised, same other second]
    exact Nat.succ_le_succ (least other)
  · rw [second, raised, same pos first]
    exact (level pos idx).trans (Nat.le_succ _)
  · rw [same pos first, same other second]
    exact level pos other

end Least
