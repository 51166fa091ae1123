/-
**Who waits for whom.**

A relation `waits` between any things that may wait for each other. It is `Acyclic` if nobody waits,
through others or directly, for itself.

* `Acyclic.add_iff` — one more who waits closes a cycle exactly when the one waited for waited,
  through others or directly, for the one that waits now;
* `Acyclic.mono`, `acyclic_of_rank` — fewer waits close no cycle, and waits that climb close none;
* `Acyclic.exists_end` — among finitely many, everyone waits for somebody in the end who waits for
  nobody;
* `cycle_of_kept` — a cycle stays as long as those on it wait as they did.
-/

import Mathlib.Data.Fintype.Card
import Mathlib.Logic.Relation
import Mathlib.Order.WellFounded

namespace Waits

open Relation

variable {Node : Type*} {waits more : Node → Node → Prop}

/-- Nobody waits for itself. -/
def Acyclic (waits : Node → Node → Prop) : Prop :=
  ∀ node, ¬ TransGen waits node node

/-- One more waits: `waiter` for `waited`. -/
def Joined (waits : Node → Node → Prop) (waiter waited : Node) : Node → Node → Prop :=
  fun first second => waits first second ∨ first = waiter ∧ second = waited

theorem Acyclic.mono (acyclic : Acyclic waits)
    (fewer : ∀ first second, more first second → waits first second) : Acyclic more :=
  fun node cycle => acyclic node (TransGen.mono fewer _ _ cycle)

/-- Waits that climb a rank close no cycle. -/
theorem acyclic_of_rank {Rank : Type*} [Preorder Rank] (rank : Node → Rank)
    (climbs : ∀ first second, waits first second → rank first < rank second) : Acyclic waits := by
  have up : ∀ first second, TransGen waits first second → rank first < rank second := by
    intro first second path
    induction path with
    | single waiting => exact climbs _ _ waiting
    | tail _ waiting ih => exact ih.trans (climbs _ _ waiting)
  exact fun node cycle => lt_irrefl _ (up node node cycle)

/-- A path that uses the new wait goes to the waiter first, and leaves from the one waited for. -/
theorem Joined.path {waiter waited first second : Node}
    (path : TransGen (Joined waits waiter waited) first second) :
    TransGen waits first second ∨
      ReflTransGen waits first waiter ∧ ReflTransGen waits waited second := by
  induction path with
  | single waiting =>
      rcases waiting with old | ⟨rfl, rfl⟩
      · exact .inl (.single old)
      · exact .inr ⟨.refl, .refl⟩
  | tail _ waiting ih =>
      rcases waiting with old | ⟨rfl, rfl⟩
      · rcases ih with before | ⟨into, out⟩
        · exact .inl (before.tail old)
        · exact .inr ⟨into, out.tail old⟩
      · rcases ih with before | ⟨into, -⟩
        · exact .inr ⟨before.to_reflTransGen, .refl⟩
        · exact .inr ⟨into, .refl⟩

/-- **One more wait closes a cycle exactly when there was a way back.** -/
theorem Acyclic.add_iff (acyclic : Acyclic waits) {waiter waited : Node} :
    Acyclic (Joined waits waiter waited) ↔ ¬ ReflTransGen waits waited waiter := by
  constructor
  · intro joined back
    have old : waits ≤ Joined waits waiter waited := fun _ _ => .inl
    exact joined waiter (.head' (.inr ⟨rfl, rfl⟩) (ReflTransGen.mono old _ _ back))
  · intro noWay node cycle
    rcases Joined.path cycle with before | ⟨into, out⟩
    · exact acyclic node before
    · exact noWay (out.trans into)

/-- **Among finitely many, everyone waits in the end for somebody who waits for nobody.** -/
theorem Acyclic.exists_end [Finite Node] (acyclic : Acyclic waits) (node : Node) :
    ∃ last, ReflTransGen waits node last ∧ ∀ other, ¬ waits last other := by
  have trans : IsTrans Node (TransGen (Function.swap waits)) := ⟨fun _ _ _ => TransGen.trans⟩
  have irrefl : Std.Irrefl (TransGen (Function.swap waits)) :=
    ⟨fun node cycle => acyclic node (transGen_swap.mp cycle)⟩
  have wf : WellFounded (TransGen (Function.swap waits)) :=
    Finite.wellFounded_of_trans_of_irrefl _
  induction node using wf.induction with
  | _ node ih =>
  by_cases waiting : ∃ other, waits node other
  · obtain ⟨other, first⟩ := waiting
    obtain ⟨last, path, ends⟩ := ih other (.single first)
    exact ⟨last, path.head first, ends⟩
  · exact ⟨node, .refl, not_exists.mp waiting⟩

/-- **A cycle stays**, if everyone on it goes on waiting as it does. -/
theorem cycle_of_kept {node : Node}
    (kept : ∀ first second, TransGen waits first first → waits first second → more first second)
    (cycle : TransGen waits node node) : TransGen more node node := by
  have path : ∀ first, TransGen waits first node → ReflTransGen waits node first →
      TransGen more first node := by
    intro first path
    induction path using TransGen.head_induction_on with
    | single last => exact fun back => .single (kept _ _ (.head' last back) last)
    | head next rest ih =>
        intro back
        have here := kept _ _ (.head' next (rest.to_reflTransGen.trans back)) next
        exact .head here (ih (back.tail next))
  exact path node cycle .refl

end Waits
