/-
**Creating actors.**

`mgr::create` starts a thread that makes an actor, appends it to `_actors[def]`, and calls `start()`
on the last element of `_actors[def]`, which need not be its own by then. `Creation` is any number of
such threads.

* `Grows` — a thread finds its own actor, or one that was appended later;
* `owns_of_once` — once every actor is started by exactly one of the threads, each thread has found
  its own;
* `create_starts_each_iff` — **every actor is started exactly once exactly when each thread computes
  its index with its own actor the last one**;
* `two_pushes_then_start` — two threads append, and both start the second actor.
-/

import IkunSvr.Lib.Run
import Mathlib.Algebra.Order.BigOperators.Group.Finset
import Mathlib.Algebra.BigOperators.Fin
import Mathlib.Data.List.Basic

namespace IkunSvr

open Run

/-- Where a thread of `mgr::create` is. -/
inductive CreatePc
  | begun
  /-- it has made its actor -/
  | made
  /-- behind `push_back` -/
  | pushed
  /-- behind `size() - 1` -/
  | indexed (idx : ℕ)
  /-- behind the call of `start()`, whose session does not return -/
  | started (idx : ℕ)
  deriving DecidableEq, Repr

namespace CreatePc

/-- The thread has appended its actor. -/
def registered : CreatePc → Bool
  | .begun | .made => false
  | .pushed | .indexed _ | .started _ => true

/-- The index the thread has computed. -/
def index : CreatePc → Option ℕ
  | .indexed idx | .started idx => some idx
  | .begun | .made | .pushed => none

end CreatePc

/-- `count` threads of `mgr::create`, and `_actors[def]`, each actor named by the thread that made
it. -/
structure Creation (count : ℕ) where
  threads : Fin count → CreatePc
  actors : List (Fin count) := []

namespace Creation

variable {count : ℕ}

/-- No thread has taken a step. -/
def create : Creation count where
  threads := fun _ => .begun

/-- The thread goes on to `pc`. -/
def goTo (state : Creation count) (thread : Fin count) (pc : CreatePc) : Creation count :=
  { state with threads := Function.update state.threads thread pc }

/-- The next step of a thread. -/
def step (state : Creation count) (thread : Fin count) : Option (Creation count) :=
  match state.threads thread with
  | .begun => some (state.goTo thread .made)
  | .made => some { state.goTo thread .pushed with actors := state.actors ++ [thread] }
  | .pushed => some (state.goTo thread (.indexed (state.actors.length - 1)))
  | .indexed idx => some (state.goTo thread (.started idx))
  | .started _ => none

/-! ### Who starts whom -/

/-- Every thread has called `start()`. -/
def AllStarted (state : Creation count) : Prop :=
  ∀ thread, ∃ idx, state.threads thread = .started idx

/-- Every actor has had `start()` called on it by exactly one thread. -/
def StartedOnce (state : Creation count) : Prop :=
  ∀ idx, idx < state.actors.length → ∃! thread, state.threads thread = .started idx

/-- A thread computes its index only with its own actor the last one. -/
def IndexesOwn (state : Creation count) (thread : Fin count) : Prop :=
  state.threads thread = .pushed → state.actors.getLast? = some thread

/-- Some thread has the index of an actor that is not its own. -/
def Strays (state : Creation count) : Prop :=
  ∃ thread idx, (state.threads thread).index = some idx ∧ state.actors[idx]? ≠ some thread

/-! ### What holds in every state -/

/-- Each thread appends its actor once, and computes the index of that one or a later one. -/
structure Grows (state : Creation count) : Prop where
  member : ∀ thread, thread ∈ state.actors ↔ (state.threads thread).registered = true
  apart : state.actors.Nodup
  later : ∀ thread idx, (state.threads thread).index = some idx →
    idx < state.actors.length ∧ state.actors.idxOf thread ≤ idx

variable {state next : Creation count} {thread : Fin count}

theorem grows_create : (create : Creation count).Grows where
  member := by
    intro thread
    show thread ∈ [] ↔ false = true
    simp
  apart := List.nodup_nil
  later := nofun

/-- A thread goes on while `_actors[def]` has `size` elements, and appends nothing. -/
inductive Moves (size : ℕ) : CreatePc → CreatePc → Prop
  | make : Moves size .begun .made
  | index : Moves size .pushed (.indexed (size - 1))
  | start (idx : ℕ) : Moves size (.indexed idx) (.started idx)

theorem Moves.registered {size : ℕ} {here pc : CreatePc} (moves : Moves size here pc) :
    pc.registered = here.registered := by
  cases moves <;> rfl

/-- The index stays, or is that of the last element. -/
theorem Moves.index_cases {size : ℕ} {here pc : CreatePc} (moves : Moves size here pc) :
    pc.index = here.index ∨ here = .pushed ∧ pc.index = some (size - 1) := by
  cases moves with
  | make | start => exact .inl rfl
  | index => exact .inr ⟨rfl, rfl⟩

/-- **What a step does**: the thread appends its actor, or goes on. -/
theorem step_cases (took : step state thread = some next) :
    (state.threads thread = .made ∧
      next = { state.goTo thread .pushed with actors := state.actors ++ [thread] }) ∨
    ∃ pc, next = state.goTo thread pc ∧
      Moves state.actors.length (state.threads thread) pc := by
  unfold step at took
  split at took
  next begun =>
    cases took
    exact .inr ⟨_, rfl, begun ▸ .make⟩
  next made =>
    cases took
    exact .inl ⟨made, rfl⟩
  next pushed =>
    cases took
    exact .inr ⟨_, rfl, pushed ▸ .index⟩
  next idx indexed =>
    cases took
    exact .inr ⟨_, rfl, indexed ▸ .start idx⟩
  next => cases took

/-- The position of an actor does not change. -/
theorem idxOf_append (member : thread ∈ state.actors) (more : List (Fin count)) :
    (state.actors ++ more).idxOf thread = state.actors.idxOf thread :=
  List.idxOf_append_of_mem member

/-- An index stands with the thread that goes on, or stood before. -/
theorem index_goTo {pc : CreatePc} {other : Fin count} {idx : ℕ}
    (found : ((state.goTo thread pc).threads other).index = some idx) :
    other = thread ∧ pc.index = some idx ∨
      other ≠ thread ∧ (state.threads other).index = some idx := by
  change (Function.update state.threads thread pc other).index = some idx at found
  by_cases here : other = thread
  · subst here
    rw [Function.update_self] at found
    exact .inl ⟨rfl, found⟩
  · rw [Function.update_of_ne here] at found
    exact .inr ⟨here, found⟩

/-- A thread appends its actor. -/
theorem Grows.append (grows : state.Grows) (made : state.threads thread = .made) :
    Grows { state.goTo thread .pushed with actors := state.actors ++ [thread] } where
  member := by
    intro other
    show other ∈ state.actors ++ [thread] ↔
      (Function.update state.threads thread .pushed other).registered = true
    by_cases here : other = thread
    · subst here
      simp [CreatePc.registered]
    · rw [Function.update_of_ne here, ← grows.member]
      simp [here]
  apart := by
    have absent : thread ∉ state.actors := by
      rw [grows.member, made]
      nofun
    show (state.actors ++ [thread]).Nodup
    rw [List.nodup_append]
    refine ⟨grows.apart, List.nodup_singleton _, fun other member last final same => ?_⟩
    rw [List.mem_singleton] at final
    exact absent (final ▸ same ▸ member)
  later := by
    intro other idx found
    rcases index_goTo found with ⟨rfl, none⟩ | ⟨-, before⟩
    · cases none
    · obtain ⟨inside, behind⟩ := grows.later other idx before
      have member : other ∈ state.actors := by
        rw [← List.idxOf_lt_length_iff]
        omega
      show idx < (state.actors ++ [thread]).length ∧ (state.actors ++ [thread]).idxOf other ≤ idx
      rw [idxOf_append member, List.length_append]
      exact ⟨by omega, behind⟩

/-- A thread goes on without appending. -/
theorem Grows.move (grows : state.Grows) {pc : CreatePc}
    (moves : Moves state.actors.length (state.threads thread) pc) : (state.goTo thread pc).Grows where
  member := by
    intro other
    show other ∈ state.actors ↔ (Function.update state.threads thread pc other).registered = true
    rw [grows.member]
    by_cases here : other = thread
    · subst here
      rw [Function.update_self, moves.registered]
    · rw [Function.update_of_ne here]
  apart := grows.apart
  later := by
    intro other idx found
    rcases index_goTo found with ⟨rfl, index⟩ | ⟨-, before⟩
    · rcases moves.index_cases with same | ⟨pushed, last⟩
      · exact grows.later other idx (same ▸ index)
      · obtain rfl := Option.some.inj (last.symm.trans index)
        have member : other ∈ state.actors := by
          rw [grows.member, pushed]
          rfl
        have inside := List.idxOf_lt_length_iff.mpr member
        show _ < state.actors.length ∧ state.actors.idxOf other ≤ _
        omega
    · exact grows.later other idx before

/-- **Every step keeps the bookkeeping.** -/
theorem grows_step (grows : state.Grows) (took : step state thread = some next) : next.Grows := by
  rcases step_cases took with ⟨made, rfl⟩ | ⟨pc, rfl, moves⟩
  · exact grows.append made
  · exact grows.move moves

/-! ### Threads that find another one's actor -/

/-- An element stays where it is. -/
theorem getElem?_append_of_lt {idx : ℕ} (inside : idx < state.actors.length)
    (more : List (Fin count)) : (state.actors ++ more)[idx]? = state.actors[idx]? :=
  List.getElem?_append_left inside

/-- **A thread that strays goes on straying.** -/
theorem strays_step (grows : state.Grows) (strays : state.Strays)
    (took : step state thread = some next) : next.Strays := by
  obtain ⟨other, idx, found, elsewhere⟩ := strays
  have inside := (grows.later other idx found).1
  rcases step_cases took with ⟨made, rfl⟩ | ⟨pc, rfl, moves⟩
  · have apart : other ≠ thread := by
      rintro rfl
      rw [made] at found
      cases found
    refine ⟨other, idx, ?_, ?_⟩
    · show (Function.update state.threads thread .pushed other).index = some idx
      rw [Function.update_of_ne apart, found]
    · show (state.actors ++ [thread])[idx]? ≠ some other
      rwa [getElem?_append_of_lt inside]
  · refine ⟨other, idx, ?_, elsewhere⟩
    show (Function.update state.threads thread pc other).index = some idx
    by_cases here : other = thread
    · subst here
      rw [Function.update_self]
      rcases moves.index_cases with same | ⟨pushed, -⟩
      · rw [same, found]
      · rw [pushed] at found
        cases found
    · rw [Function.update_of_ne here, found]

/-- A step that computes an index with its own actor the last one leads nobody astray. -/
theorem finds_step (grows : state.Grows) (finds : ¬ state.Strays) (own : IndexesOwn state thread)
    (took : step state thread = some next) : ¬ next.Strays := by
  rintro ⟨other, idx, found, elsewhere⟩
  rcases step_cases took with ⟨made, rfl⟩ | ⟨pc, rfl, moves⟩
  · rcases index_goTo found with ⟨rfl, none⟩ | ⟨-, before⟩
    · cases none
    · have inside := (grows.later other idx before).1
      change (state.actors ++ [thread])[idx]? ≠ some other at elsewhere
      rw [getElem?_append_of_lt inside] at elsewhere
      exact finds ⟨other, idx, before, elsewhere⟩
  · rcases index_goTo found with ⟨rfl, index⟩ | ⟨-, before⟩
    · rcases moves.index_cases with same | ⟨pushed, last⟩
      · exact finds ⟨other, idx, same ▸ index, elsewhere⟩
      · obtain rfl := Option.some.inj (last.symm.trans index)
        change state.actors[state.actors.length - 1]? ≠ some other at elsewhere
        rw [← List.getLast?_eq_getElem?] at elsewhere
        exact elsewhere (own pushed)
    · exact finds ⟨other, idx, before, elsewhere⟩

/-- A step that computes an index with another actor the last one leads its thread astray. -/
theorem strays_of_missed (missed : ¬ IndexesOwn state thread)
    (took : step state thread = some next) : next.Strays := by
  unfold IndexesOwn at missed
  rw [Classical.not_imp] at missed
  obtain ⟨pushed, other⟩ := missed
  have indexed : next = state.goTo thread (.indexed (state.actors.length - 1)) := by
    unfold step at took
    rw [pushed] at took
    exact (Option.some.inj took).symm
  subst indexed
  refine ⟨thread, state.actors.length - 1, ?_, ?_⟩
  · show (Function.update state.threads thread _ thread).index = _
    rw [Function.update_self]
    rfl
  · rwa [List.getLast?_eq_getElem?] at other

/-! ### When every thread has called `start()` -/

/-- **With nobody astray, every actor is started by the thread that made it**, and by no other. -/
theorem once_of_owns (grows : state.Grows) (finds : ¬ state.Strays) (all : state.AllStarted) :
    state.StartedOnce := by
  have own : ∀ thread idx, state.threads thread = .started idx →
      state.actors[idx]? = some thread := by
    intro thread idx started
    by_contra elsewhere
    exact finds ⟨thread, idx, by rw [started]; rfl, elsewhere⟩
  intro idx inside
  obtain ⟨at_idx, started⟩ := all state.actors[idx]
  have same : at_idx = idx := by
    have found := own _ _ started
    rw [← List.getElem?_eq_getElem inside] at found
    exact ((List.getElem?_inj inside grows.apart).mp found.symm).symm
  rw [same] at started
  refine ⟨state.actors[idx], started, fun other startedToo => ?_⟩
  have found := own other idx startedToo
  rw [List.getElem?_eq_getElem inside] at found
  exact (Option.some.inj found).symm

/-- **With every actor started exactly once, nobody is astray**: each thread starts its own actor or
a later one, and the indices started are those of the actors, so their sums agree. -/
theorem owns_of_once (grows : state.Grows) (all : state.AllStarted) (once : state.StartedOnce) :
    ¬ state.Strays := by
  choose idx started using all
  have bound : ∀ thread, idx thread < state.actors.length ∧
      state.actors.idxOf thread ≤ idx thread :=
    fun thread => grows.later thread _ (by rw [started thread]; rfl)
  have member : ∀ thread, thread ∈ state.actors := by
    intro thread
    rw [grows.member, started thread]
    rfl
  let place : Fin count → Fin state.actors.length :=
    fun thread => ⟨state.actors.idxOf thread, List.idxOf_lt_length_iff.mpr (member thread)⟩
  let starts : Fin count → Fin state.actors.length := fun thread => ⟨idx thread, (bound thread).1⟩
  have placed : Function.Bijective place := by
    constructor
    · intro first second same
      exact (List.idxOf_inj (member first)).mp (congrArg Fin.val same)
    · intro at_idx
      refine ⟨state.actors[at_idx], Fin.ext ?_⟩
      exact List.Nodup.idxOf_getElem grows.apart at_idx.1 at_idx.2
  have startsEach : Function.Bijective starts := by
    constructor
    · intro first second same
      obtain ⟨_, _, unique⟩ := once (idx first) (bound first).1
      have equal : idx first = idx second := congrArg Fin.val same
      rw [unique first (started first), unique second (equal ▸ started second)]
    · intro at_idx
      obtain ⟨thread, here, _⟩ := once at_idx.1 at_idx.2
      refine ⟨thread, Fin.ext ?_⟩
      exact CreatePc.started.inj ((started thread).symm.trans here)
  have sums : ∑ thread, state.actors.idxOf thread = ∑ thread, idx thread :=
    (placed.sum_comp fun at_idx => (at_idx : ℕ)).trans
      (startsEach.sum_comp fun at_idx => (at_idx : ℕ)).symm
  have same := (Finset.sum_eq_sum_iff_of_le fun thread _ => (bound thread).2).mp sums
  rintro ⟨thread, at_idx, found, elsewhere⟩
  rw [started thread] at found
  obtain rfl := Option.some.inj found
  rw [← same thread (Finset.mem_univ thread)] at elsewhere
  exact elsewhere (List.getElem?_idxOf (member thread))

/-- **When each created actor is started exactly once.** In a run in which every thread computes its
index with its own actor the last one, every actor has been started by exactly one thread by the
time all threads have called `start()`. And in a run in which they all have, that is so exactly when
each computed its index like that. -/
theorem create_starts_each_iff :
    (∀ labels : List (Fin count), Along step IndexesOwn create labels →
      Always step (fun state => state.AllStarted → state.StartedOnce) create labels) ∧
    (∀ (labels : List (Fin count)) (final : Creation count),
      exec step create labels = some final → final.AllStarted →
        (final.StartedOnce ↔ Along step IndexesOwn create labels)) := by
  have nobody : ¬ (create : Creation count).Strays := by
    rintro ⟨thread, idx, found, -⟩
    cases found
  have always : ∀ labels : List (Fin count), Along step IndexesOwn create labels →
      Always step (fun state => state.Grows ∧ ¬ state.Strays) create labels := by
    intro labels along
    refine always_of_along ?_ ⟨grows_create, nobody⟩ along
    rintro state thread next ⟨grows, finds⟩ own took
    exact ⟨grows_step grows took, finds_step grows finds own took⟩
  constructor
  · intro labels along
    exact (always labels along).mono fun _ both => once_of_owns both.1 both.2
  · intro labels final ran all
    have grows : final.Grows :=
      Reachable.invariant (fun _ _ _ grows took => grows_step grows took) grows_create ⟨labels, ran⟩
    constructor
    · intro once
      have stuck : ∀ (state : Creation count) (thread : Fin count) (next : Creation count),
          state.Grows ∧ state.Strays → step state thread = some next → next.Grows ∧ next.Strays :=
        fun _ _ _ both took => ⟨grows_step both.1 took, strays_step both.1 both.2 took⟩
      have fine : ¬ (final.Grows ∧ final.Strays) := fun both => owns_of_once grows all once both.2
      refine along_of_last ?_ ?_ stuck grows_create ran fine
      · exact fun _ _ _ grows _ took => grows_step grows took
      · exact fun _ _ _ grows missed took => ⟨grows_step grows took, strays_of_missed missed took⟩
    · intro along
      have last := (always labels along).last ran
      exact once_of_owns last.1 last.2 all

/-- Two threads, one after the other as far as the index. -/
theorem create_starts_each_iff_apart :
    ∃ final : Creation 2, final.AllStarted ∧
      (final.StartedOnce ↔ Along step IndexesOwn (create : Creation 2) [0, 0, 0, 1, 1, 1, 1, 0]) := by
  have run : ∃ final : Creation 2,
      exec step (create : Creation 2) [0, 0, 0, 1, 1, 1, 1, 0] = some final ∧
        final.threads 0 = .started 0 ∧ final.threads 1 = .started 1 :=
    ⟨_, rfl, rfl, rfl⟩
  obtain ⟨final, ran, first, second⟩ := run
  have all : final.AllStarted := fun thread =>
    match thread with
    | 0 => ⟨0, first⟩
    | 1 => ⟨1, second⟩
  exact ⟨final, all, create_starts_each_iff.2 _ final ran all⟩

/-- **Two threads append, and then compute their indices**: both call `start()` on the second actor,
and nobody on the first. -/
theorem two_pushes_then_start :
    ∃ final : Creation 2, exec step create [0, 0, 1, 1, 0, 1, 0, 1] = some final ∧
      final.AllStarted ∧ final.actors = [0, 1] ∧ ¬ final.StartedOnce := by
  have run : ∃ final : Creation 2,
      exec step (create : Creation 2) [0, 0, 1, 1, 0, 1, 0, 1] = some final ∧
        final.actors = [0, 1] ∧ final.threads 0 = .started 1 ∧ final.threads 1 = .started 1 :=
    ⟨_, rfl, rfl, rfl, rfl⟩
  obtain ⟨final, ran, actors, first, second⟩ := run
  refine ⟨final, ran, fun thread => ?_, actors, fun once => ?_⟩
  · match thread with
    | 0 => exact ⟨1, first⟩
    | 1 => exact ⟨1, second⟩
  · obtain ⟨_, _, unique⟩ := once 1 (by rw [actors]; decide)
    have same : (0 : Fin 2) = 1 := (unique 0 first).trans (unique 1 second).symm
    cases same

end Creation

end IkunSvr
