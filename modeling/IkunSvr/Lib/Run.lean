/-
**Runs of a labelled transition system.**

A system is a partial step function `step : State → Label → Option State`: a label that is not
enabled in a state has no successor. Over a list of labels:

* `exec` — the state the labels lead to;
* `Always` — a property of states holds in every state the run passes through;
* `Along` — a property of steps holds of every step the run takes.

The rules relate the two: an invariant kept by allowed steps holds always along an allowed run
(`always_of_along`), and where a step keeps the invariant *exactly* when it is allowed, the run
keeps it exactly when all its steps are (`always_iff_along`). A measure that every step lowers bounds
the length of every run (`length_le_of_measure`); one that sums over threads changes by the share of
the thread that moves (`sum_update`).

`only` is the system left to the steps of one kind, and `Rests` says that it has come to rest.
-/

import Mathlib.Algebra.BigOperators.Group.Finset.Basic
import Mathlib.Tactic.Abel
import Mathlib.Tactic.TypeStar

namespace Run

variable {State Label : Type*} (step : State → Label → Option State)

/-- The state a list of labels leads to, if every label is enabled in turn. -/
def exec : State → List Label → Option State
  | state, [] => some state
  | state, label :: labels => (step state label).bind fun next => exec next labels

/-- `holds` is true in every state of the run, the first and the last included. -/
def Always (holds : State → Prop) : State → List Label → Prop
  | state, [] => holds state
  | state, label :: labels =>
      holds state ∧ ∀ next, step state label = some next → Always holds next labels

/-- Every step the run takes is an allowed one. -/
def Along (allowed : State → Label → Prop) : State → List Label → Prop
  | _, [] => True
  | state, label :: labels =>
      ∀ next, step state label = some next → allowed state label ∧ Along allowed next labels

/-- The states some list of labels leads to from `first`. -/
def Reachable (first state : State) : Prop :=
  ∃ labels, exec step first labels = some state

/-- A run of two parts goes on where the first one ends. -/
theorem exec_append (state : State) (labels more : List Label) :
    exec step state (labels ++ more) =
      (exec step state labels).bind fun next => exec step next more := by
  induction labels generalizing state with
  | nil => rfl
  | cons label labels ih =>
      rw [List.cons_append, exec, exec, Option.bind_assoc]
      congr
      funext next
      exact ih next

variable {step}

/-! ### Invariants -/

section Rules

variable {holds : State → Prop} {allowed : State → Label → Prop}

theorem Always.head {state : State} {labels : List Label} (always : Always step holds state labels) :
    holds state := by
  cases labels with
  | nil => exact always
  | cons label labels => exact always.1

theorem Always.mono {weaker : State → Prop} (implies : ∀ state, holds state → weaker state)
    {state : State} {labels : List Label} (always : Always step holds state labels) :
    Always step weaker state labels := by
  induction labels generalizing state with
  | nil => exact implies state always
  | cons label labels ih =>
      exact ⟨implies state always.1, fun next took => ih (always.2 next took)⟩

theorem Always.and {other : State → Prop} {state : State} {labels : List Label}
    (always : Always step holds state labels) (alwaysToo : Always step other state labels) :
    Always step (fun state => holds state ∧ other state) state labels := by
  induction labels generalizing state with
  | nil => exact ⟨always, alwaysToo⟩
  | cons label labels ih =>
      exact ⟨⟨always.1, alwaysToo.1⟩, fun next took => ih (always.2 next took) (alwaysToo.2 next took)⟩

/-- What holds in every state of a run holds where the run ends. -/
theorem Always.last {state final : State} {labels : List Label}
    (always : Always step holds state labels) (ran : exec step state labels = some final) :
    holds final := by
  induction labels generalizing state with
  | nil =>
      cases ran
      exact always
  | cons label labels ih =>
      rw [exec, Option.bind_eq_some_iff] at ran
      obtain ⟨next, took, rest⟩ := ran
      exact ih (always.2 next took) rest

theorem Along.and {other : State → Label → Prop} {state : State} {labels : List Label}
    (along : Along step allowed state labels) (alongToo : Along step other state labels) :
    Along step (fun state label => allowed state label ∧ other state label) state labels := by
  induction labels generalizing state with
  | nil => trivial
  | cons label labels ih =>
      intro next took
      exact ⟨⟨(along next took).1, (alongToo next took).1⟩,
        ih (along next took).2 (alongToo next took).2⟩

/-- **The invariant rule for guarded runs.** What every allowed step preserves holds in every state
of a run all of whose steps are allowed. -/
theorem always_of_along
    (preserved : ∀ state label next, holds state → allowed state label →
      step state label = some next → holds next)
    {state : State} {labels : List Label} (start : holds state)
    (along : Along step allowed state labels) : Always step holds state labels := by
  induction labels generalizing state with
  | nil => exact start
  | cons label labels ih =>
      refine ⟨start, fun next took => ?_⟩
      obtain ⟨allow, rest⟩ := along next took
      exact ih (preserved state label next start allow took) rest

/-- Labels that are allowed in every state. -/
theorem along_of_forall {state : State} {labels : List Label}
    (allow : ∀ label ∈ labels, ∀ state, allowed state label) :
    Along step allowed state labels := by
  induction labels generalizing state with
  | nil => trivial
  | cons label labels ih =>
      exact fun next _ => ⟨allow label List.mem_cons_self state,
        ih fun other member => allow other (List.mem_cons_of_mem _ member)⟩

/-- Labels that are allowed in the states of an invariant. -/
theorem along_of_invariant {inside : State → Prop}
    (kept : ∀ state label next, inside state → step state label = some next → inside next)
    (allow : ∀ state label, inside state → allowed state label) {state : State}
    (start : inside state) (labels : List Label) : Along step allowed state labels := by
  induction labels generalizing state with
  | nil => trivial
  | cons label labels ih =>
      exact fun next took => ⟨allow state label start, ih (kept state label next start took)⟩

theorem along_append {state : State} {labels more : List Label}
    (first : Along step allowed state labels)
    (second : ∀ next, exec step state labels = some next → Along step allowed next more) :
    Along step allowed state (labels ++ more) := by
  induction labels generalizing state with
  | nil => exact second state rfl
  | cons label labels ih =>
      intro next took
      obtain ⟨allow, rest⟩ := first next took
      refine ⟨allow, ih rest fun last ran => second last ?_⟩
      rw [exec, took]
      exact ran

/-- **The exact rule, through an invariant.** Where from a good state an allowed step leads to a good
state, and only an allowed one to a state where the property holds, the property holds always along
a run from a good state exactly when all its steps are allowed. -/
theorem always_iff_along_through {good : State → Prop} (implies : ∀ state, good state → holds state)
    (kept : ∀ state label next, good state → allowed state label → step state label = some next →
      good next)
    (forced : ∀ state label next, good state → step state label = some next → holds next →
      allowed state label)
    {state : State} {labels : List Label} (start : good state) :
    Always step holds state labels ↔ Along step allowed state labels := by
  induction labels generalizing state with
  | nil => exact ⟨fun _ => trivial, fun _ => implies state start⟩
  | cons label labels ih =>
      constructor
      · intro always next took
        have later := always.2 next took
        have allow := forced state label next start took later.head
        exact ⟨allow, (ih (kept state label next start allow took)).mp later⟩
      · intro along
        refine ⟨implies state start, fun next took => ?_⟩
        obtain ⟨allow, rest⟩ := along next took
        exact (ih (kept state label next start allow took)).mpr rest

/-- **The exact rule, inside an invariant.** Where a step from a good state inside leads to a good
state exactly when it is allowed, a run from a good state inside stays good exactly when all its
steps are allowed. -/
theorem always_iff_along_within {inside : State → Prop}
    (kept : ∀ state label next, inside state → step state label = some next → inside next)
    (exact_step : ∀ state label next, inside state → holds state → step state label = some next →
      (holds next ↔ allowed state label))
    {state : State} {labels : List Label} (within : inside state) (start : holds state) :
    Always step holds state labels ↔ Along step allowed state labels := by
  refine always_iff_along_through (fun _ => And.right) ?_ ?_ (And.intro within start)
  · rintro state label next ⟨within, good⟩ allow took
    exact ⟨kept state label next within took,
      (exact_step state label next within good took).mpr allow⟩
  · rintro state label next ⟨within, good⟩ took later
    exact (exact_step state label next within good took).mp later

/-- **The exact rule.** Where a step from a good state leads to a good state exactly when it is
allowed, a run from a good state stays good exactly when all its steps are allowed. -/
theorem always_iff_along
    (exact_step : ∀ state label next, holds state → step state label = some next →
      (holds next ↔ allowed state label))
    {state : State} {labels : List Label} (start : holds state) :
    Always step holds state labels ↔ Along step allowed state labels :=
  always_iff_along_through (fun _ => id)
    (fun state label next good allow took => (exact_step state label next good took).mpr allow)
    (fun state label next good took later => (exact_step state label next good took).mp later) start

/-- **The backward rule, inside an invariant.** What a step inside reflects back holds in every
state of a run that ends with it. -/
theorem always_of_last {inside : State → Prop}
    (kept : ∀ state label next, inside state → step state label = some next → inside next)
    (reflected : ∀ state label next, inside state → step state label = some next →
      holds next → holds state)
    {state final : State} {labels : List Label} (within : inside state)
    (ran : exec step state labels = some final) (last : holds final) :
    Always step holds state labels := by
  induction labels generalizing state with
  | nil =>
      cases ran
      exact last
  | cons label labels ih =>
      rw [exec, Option.bind_eq_some_iff] at ran
      obtain ⟨next, took, rest⟩ := ran
      have later := ih (kept state label next within took) rest
      refine ⟨reflected state label next within took later.head, fun other same => ?_⟩
      rw [took] at same
      cases same
      exact later

/-- What every step preserves holds in every state of every run. -/
theorem always_of_step
    (preserved : ∀ state label next, holds state → step state label = some next → holds next)
    {state : State} (start : holds state) (labels : List Label) :
    Always step holds state labels := by
  induction labels generalizing state with
  | nil => exact start
  | cons label labels ih =>
      exact ⟨start, fun next took => ih (preserved state label next start took)⟩

/-- **The exact rule, for runs that end.** Where from a good state an allowed step leads to a good
state and any other to a bad one, and bad states are never left, a run from a good state that does
not end in a bad one takes allowed steps only. -/
theorem along_of_last {good bad : State → Prop}
    (kept : ∀ state label next, good state → allowed state label → step state label = some next →
      good next)
    (missed : ∀ state label next, good state → ¬ allowed state label →
      step state label = some next → bad next)
    (stuck : ∀ state label next, bad state → step state label = some next → bad next)
    {state final : State} {labels : List Label} (start : good state)
    (ran : exec step state labels = some final) (fine : ¬ bad final) :
    Along step allowed state labels := by
  induction labels generalizing state with
  | nil => trivial
  | cons label labels ih =>
      rw [exec, Option.bind_eq_some_iff] at ran
      obtain ⟨next, took, rest⟩ := ran
      have allow : allowed state label := by
        refine Classical.byContradiction fun forbidden => ?_
        have fallen := missed state label next start forbidden took
        exact fine ((always_of_step stuck fallen labels).last rest)
      intro other same
      rw [took] at same
      cases same
      exact ⟨allow, ih (kept state label next start allow took) rest⟩

/-- **The invariant rule.** What every step preserves holds in every reachable state. -/
theorem Reachable.invariant
    (preserved : ∀ state label next, holds state → step state label = some next → holds next)
    {first state : State} (start : holds first) (reach : Reachable step first state) :
    holds state := by
  obtain ⟨labels, ran⟩ := reach
  induction labels generalizing first with
  | nil =>
      cases ran
      exact start
  | cons label labels ih =>
      rw [exec, Option.bind_eq_some_iff] at ran
      obtain ⟨next, took, rest⟩ := ran
      exact ih (preserved first label next start took) rest

end Rules

/-! ### The steps of one kind -/

section Kinds

variable (step) (kind : Label → Bool)

/-- The steps of one kind, and no others. -/
def only (state : State) (label : Label) : Option State :=
  if kind label then step state label else none

/-- No step of the kind can be taken. -/
def Rests (state : State) : Prop :=
  ∀ label, kind label = true → step state label = none

variable {step kind}

theorem only_eq_some {state next : State} {label : Label} :
    only step kind state label = some next ↔ kind label = true ∧ step state label = some next := by
  unfold only
  split <;> simp [*]

/-- A run of steps of the kind is a run. -/
theorem exec_of_only {state final : State} {labels : List Label}
    (ran : exec (only step kind) state labels = some final) : exec step state labels = some final := by
  induction labels generalizing state with
  | nil => exact ran
  | cons label labels ih =>
      rw [exec, Option.bind_eq_some_iff] at ran ⊢
      obtain ⟨next, took, rest⟩ := ran
      exact ⟨next, (only_eq_some.mp took).2, ih rest⟩

/-- A step leads from a reachable state to a reachable one. -/
theorem Reachable.next {first state next : State} {label : Label} (reach : Reachable step first state)
    (took : step state label = some next) : Reachable step first next := by
  obtain ⟨labels, ran⟩ := reach
  refine ⟨labels ++ [label], ?_⟩
  rw [exec_append, ran]
  simp [exec, took]

/-- Steps of the kind lead from reachable states to reachable ones. -/
theorem Reachable.only {first state final : State} {labels : List Label}
    (reach : Reachable step first state) (ran : exec (Run.only step kind) state labels = some final) :
    Reachable step first final := by
  obtain ⟨before, reached⟩ := reach
  refine ⟨before ++ labels, ?_⟩
  rw [exec_append, reached]
  exact exec_of_only ran

/-- What every step of the kind preserves holds at the end of a run of them. -/
theorem only_kept (holds : State → Prop)
    (preserved : ∀ state label next, kind label = true → holds state →
      step state label = some next → holds next)
    {state final : State} (start : holds state) {labels : List Label}
    (ran : exec (only step kind) state labels = some final) : holds final := by
  have kept : Always (only step kind) holds state labels := by
    refine always_of_step (fun now label later holds took => ?_) start labels
    obtain ⟨own, stepped⟩ := only_eq_some.mp took
    exact preserved now label later own holds stepped
  exact kept.last ran

end Kinds

/-! ### Measures -/

/-- **What every step lowers bounds the length of every run.** -/
theorem length_le_of_measure {measure : State → ℕ}
    (lowers : ∀ state label next, step state label = some next → measure next < measure state)
    {state final : State} {labels : List Label} (ran : exec step state labels = some final) :
    labels.length ≤ measure state := by
  induction labels generalizing state with
  | nil => exact Nat.zero_le _
  | cons label labels ih =>
      rw [exec, Option.bind_eq_some_iff] at ran
      obtain ⟨next, took, rest⟩ := ran
      exact (ih rest).trans_lt (lowers state label next took)

/-- **What every step of one kind lowers bounds the length of every run of them.** -/
theorem only_ends {kind : Label → Bool} {measure : State → ℕ}
    (lowers : ∀ state label next, kind label = true → step state label = some next →
      measure next < measure state)
    {state final : State} {labels : List Label}
    (ran : exec (only step kind) state labels = some final) : labels.length ≤ measure state := by
  refine length_le_of_measure (fun now label later took => ?_) ran
  obtain ⟨own, stepped⟩ := only_eq_some.mp took
  exact lowers now label later own stepped

/-- **The same, inside an invariant.** -/
theorem only_ends_within {kind : Label → Bool} {measure : State → ℕ} {inside : State → Prop}
    (kept : ∀ state label next, inside state → step state label = some next → inside next)
    (lowers : ∀ state label next, inside state → kind label = true →
      step state label = some next → measure next < measure state)
    {state final : State} {labels : List Label} (within : inside state)
    (ran : exec (only step kind) state labels = some final) : labels.length ≤ measure state := by
  induction labels generalizing state with
  | nil => exact Nat.zero_le _
  | cons label labels ih =>
      rw [exec, Option.bind_eq_some_iff] at ran
      obtain ⟨next, took, rest⟩ := ran
      obtain ⟨own, stepped⟩ := only_eq_some.mp took
      exact (ih (kept state label next within stepped) rest).trans_lt
        (lowers state label next within own stepped)

/-- One thread's share of a sum over the threads is replaced. -/
theorem sum_update {Thread Place Weight : Type*} [Fintype Thread] [DecidableEq Thread]
    [AddCommMonoid Weight] (weigh : Place → Weight) (places : Thread → Place) (thread : Thread)
    (place : Place) :
    (∑ other, weigh (Function.update places thread place other)) + weigh (places thread) =
      (∑ other, weigh (places other)) + weigh place := by
  have rest : ∑ other ∈ Finset.univ.erase thread, weigh (Function.update places thread place other) =
      ∑ other ∈ Finset.univ.erase thread, weigh (places other) := by
    apply Finset.sum_congr rfl
    intro other member
    rw [Function.update_of_ne (Finset.ne_of_mem_erase member)]
  rw [← Finset.add_sum_erase _ _ (Finset.mem_univ thread), rest, Function.update_self,
    ← Finset.add_sum_erase _ (fun other => weigh (places other)) (Finset.mem_univ thread)]
  abel

end Run
