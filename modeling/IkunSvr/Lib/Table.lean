/-
**Tables with natural keys**, as association lists.

`set`, `erase` and `get` are the operations of an ordered map; `seek` is its iterator: the first key
at or behind a given one. The membership rules `mem_set`, `mem_erase`, `mem_of_get` say which entries
each of them leaves or finds.
-/

import Mathlib.Data.List.Basic

/-- The entries of a map with keys in `Nat`. -/
abbrev Table (Value : Type) := List (Nat × Value)

namespace Table

variable {Value : Type} {table : Table Value} {key : Nat} {value : Value}

/-- Drop the entry of a key. -/
def erase (table : Table Value) (key : Nat) : Table Value :=
  table.filter fun entry => entry.1 ≠ key

/-- Bind a key, in place of an entry it has. -/
def set (table : Table Value) (key : Nat) (value : Value) : Table Value :=
  (key, value) :: erase table key

/-- The value of a key. -/
def get (table : Table Value) (key : Nat) : Option Value :=
  (table.find? fun entry => entry.1 = key).map Prod.snd

/-- The first key at or behind the given one. -/
def seek (table : Table Value) (key : Nat) : Option Nat :=
  ((table.map Prod.fst).filter fun other => key ≤ other).min?

theorem mem_erase {entry : Nat × Value} :
    entry ∈ erase table key ↔ entry ∈ table ∧ entry.1 ≠ key := by
  simp [erase]

theorem mem_set {entry : Nat × Value} :
    entry ∈ set table key value ↔ entry = (key, value) ∨ entry ∈ table ∧ entry.1 ≠ key := by
  rw [set, List.mem_cons, mem_erase]

theorem mem_of_get (found : get table key = some value) : (key, value) ∈ table := by
  unfold get at found
  rw [Option.map_eq_some_iff] at found
  obtain ⟨⟨other, bound⟩, at_key, rfl⟩ := found
  have same := List.find?_some at_key
  simp only [decide_eq_true_eq] at same
  rw [← same]
  exact List.mem_of_find?_eq_some at_key

end Table
