/-
**Threads that take mutexes.**

A call is a list of actions, each of which locks or unlocks a mutex; what else it does is left out. A
thread begins a call when it is in none. `State` has the owner of each mutex, and what each thread has
still to do of its call. A mutex that its owner locks again is never obtained.

* `Orderly` — a thread that holds some mutexes locks only what ranks above them, unlocks first what it
  locked last, and holds nothing in the end; `Nests` is the rule for a part of a call, and
  `nests_guarded` the one for a scope with a guard;
* `sound_step` — orderly calls stay orderly, whatever the other threads do;
* `Sound.acyclic` — **then nobody waits, through others or directly, for itself**;
* `Sound.returned`, `goes_end` — where nobody can go on every call has returned, and that comes;
* `divert` — a thread does something else and never gets back to its call. Where it needs what it
  still owns it stands for good (`stays_stuck`), and otherwise it comes through (`diverted_returned`).
-/

import IkunSvr.Lib.Run
import IkunSvr.Lib.Waits
import Mathlib.Data.Fintype.EquivFin
import Mathlib.Data.List.Nodup
import Mathlib.Order.WithBot

namespace Locks

open Run Relation

/-- What a thread does with a mutex. -/
inductive Act (Mutex : Type*)
  | lock (mutex : Mutex)
  | unlock (mutex : Mutex)
  deriving DecidableEq, Repr

/-- A scope with a guard of the mutex. -/
def guarded {Mutex : Type*} (mutex : Mutex) (body : List (Act Mutex)) : List (Act Mutex) :=
  .lock mutex :: (body ++ [.unlock mutex])

/-- Who owns which mutex, and what each thread has still to do. -/
structure State (Thread Mutex : Type*) where
  owner : Mutex → Option Thread := fun _ => none
  todo : Thread → List (Act Mutex) := fun _ => []

/-- A step: a thread begins a call, or takes the next action of its own. -/
inductive Label (Thread Call : Type*)
  | call (thread : Thread) (call : Call)
  | go (thread : Thread)

/-- The next action of a call that has begun. -/
def Label.goes {Thread Call : Type*} : Label Thread Call → Bool
  | .call _ _ => false
  | .go _ => true

variable {Thread Mutex Call Rank : Type*}

namespace State

section Step

variable [DecidableEq Thread] [DecidableEq Mutex]

/-- In the middle of its call the thread does something else, and never gets back. -/
def divert (state : State Thread Mutex) (thread : Thread) (body : List (Act Mutex)) :
    State Thread Mutex :=
  { state with todo := Function.update state.todo thread body }

/-- What the thread would do later, if it got back. -/
def postpone (state : State Thread Mutex) (thread : Thread) (later : List (Act Mutex)) :
    State Thread Mutex :=
  { state with todo := Function.update state.todo thread (state.todo thread ++ later) }

/-- The state after the thread's next action: the owner of the mutex, and what follows. -/
def act (state : State Thread Mutex) (thread : Thread) (mutex : Mutex) (owner : Option Thread)
    (rest : List (Act Mutex)) : State Thread Mutex where
  owner := Function.update state.owner mutex owner
  todo := Function.update state.todo thread rest

/-- The next action of a thread: it waits for a mutex that is owned, and unlocks what it owns. -/
def go (state : State Thread Mutex) (thread : Thread) : Option (State Thread Mutex) :=
  match state.todo thread with
  | [] => none
  | .lock mutex :: rest =>
      if state.owner mutex = none then some (state.act thread mutex (some thread) rest) else none
  | .unlock mutex :: rest =>
      if state.owner mutex = some thread then some (state.act thread mutex none rest) else none

/-- A step; `body` is what a call does. -/
def step (body : Call → List (Act Mutex)) (state : State Thread Mutex) :
    Label Thread Call → Option (State Thread Mutex)
  | .call thread call =>
      if state.todo thread = [] then
        some { state with todo := Function.update state.todo thread (body call) }
      else none
  | .go thread => state.go thread

/-- **What a thread's next action can be.** -/
theorem go_cases {state next : State Thread Mutex} {thread : Thread}
    (took : state.go thread = some next) : ∃ mutex rest,
      (state.todo thread = .lock mutex :: rest ∧ state.owner mutex = none ∧
        next = state.act thread mutex (some thread) rest) ∨
      (state.todo thread = .unlock mutex :: rest ∧ state.owner mutex = some thread ∧
        next = state.act thread mutex none rest) := by
  unfold go at took
  split at took
  next => cases took
  next mutex rest todo =>
    obtain ⟨free, same⟩ := Option.ite_none_right_eq_some.mp took
    exact ⟨mutex, rest, .inl ⟨todo, free, (Option.some.inj same).symm⟩⟩
  next mutex rest todo =>
    obtain ⟨owned, same⟩ := Option.ite_none_right_eq_some.mp took
    exact ⟨mutex, rest, .inr ⟨todo, owned, (Option.some.inj same).symm⟩⟩

end Step

/-- The next action of `waiter` is to lock what `waited` owns. -/
def Waits (state : State Thread Mutex) (waiter waited : Thread) : Prop :=
  ∃ mutex rest, state.todo waiter = .lock mutex :: rest ∧ state.owner mutex = some waited

/-- How many actions there are still to do. -/
def measure [Fintype Thread] (state : State Thread Mutex) : ℕ :=
  ∑ thread, (state.todo thread).length

end State

/-! ### The order of the mutexes -/

section Order

variable [Preorder Rank]

/-- Who holds `held`, the last one first, locks above them, unlocks in turn and ends with nothing. -/
def Orderly (rank : Mutex → Rank) : List Mutex → List (Act Mutex) → Prop
  | held, [] => held = []
  | held, .lock mutex :: rest =>
      (∀ other ∈ held, rank other < rank mutex) ∧ Orderly rank (mutex :: held) rest
  | held, .unlock mutex :: rest => ∃ before, held = mutex :: before ∧ Orderly rank before rest

/-- Who holds `held` may do this first, and then go on as before. -/
def Nests (rank : Mutex → Rank) (held : List Mutex) (body : List (Act Mutex)) : Prop :=
  ∀ rest, Orderly rank held rest → Orderly rank held (body ++ rest)

variable {rank : Mutex → Rank} {held : List Mutex} {body more : List (Act Mutex)}

theorem nests_nil : Nests rank held [] :=
  fun _ orderly => orderly

theorem Nests.append (nests : Nests rank held body) (nestsToo : Nests rank held more) :
    Nests rank held (body ++ more) := by
  intro rest orderly
  rw [List.append_assoc]
  exact nests _ (nestsToo rest orderly)

/-- **The rule for a guard.** -/
theorem nests_guarded {mutex : Mutex} (above : ∀ other ∈ held, rank other < rank mutex)
    (inside : Nests rank (mutex :: held) body) : Nests rank held (guarded mutex body) := by
  intro rest orderly
  refine ⟨above, ?_⟩
  show Orderly rank (mutex :: held) (body ++ [.unlock mutex] ++ rest)
  rw [List.append_assoc]
  exact inside _ ⟨held, rfl, orderly⟩

theorem nests_flatten {parts : List (List (Act Mutex))} (each : ∀ part ∈ parts, Nests rank held part) :
    Nests rank held parts.flatten := by
  induction parts with
  | nil => exact nests_nil
  | cons part parts ih =>
      rw [List.flatten_cons]
      exact (each part List.mem_cons_self).append
        (ih fun other member => each other (List.mem_cons_of_mem _ member))

theorem nests_replicate (count : ℕ) (nests : Nests rank held body) :
    Nests rank held (List.replicate count body).flatten :=
  nests_flatten fun part member => by
    rw [List.eq_of_mem_replicate member]
    exact nests

theorem nests_map {Item : Type*} (items : List Item) {part : Item → List (Act Mutex)}
    (each : ∀ item, Nests rank held (part item)) : Nests rank held (items.map part).flatten := by
  refine nests_flatten fun whole member => ?_
  obtain ⟨item, -, rfl⟩ := List.mem_map.mp member
  exact each item

/-- A call that nests in nothing is orderly. -/
theorem Nests.orderly (nests : Nests rank [] body) : Orderly rank [] body := by
  have whole := nests [] rfl
  rwa [List.append_nil] at whole

end Order

/-! ### Sound states -/

namespace State

section Sound

variable [Preorder Rank]

/-- The thread owns `held`, and goes on in order. -/
structure Tidy (rank : Mutex → Rank) (state : State Thread Mutex) (thread : Thread)
    (held : List Mutex) : Prop where
  nodup : held.Nodup
  owns : ∀ mutex, state.owner mutex = some thread ↔ mutex ∈ held
  orderly : Orderly rank held (state.todo thread)

/-- Every thread goes on in order. -/
def Sound (rank : Mutex → Rank) (state : State Thread Mutex) : Prop :=
  ∀ thread, ∃ held, state.Tidy rank thread held

theorem sound_start (rank : Mutex → Rank) : Sound rank ({} : State Thread Mutex) :=
  fun _ => ⟨[], List.nodup_nil, by simp, rfl⟩

variable {rank : Mutex → Rank} {body : Call → List (Act Mutex)} {state next : State Thread Mutex}
  {thread other : Thread} {held : List Mutex}

/-- The others have nothing to do with a mutex that passes between a thread and nobody. -/
theorem Tidy.frame (tidy : state.Tidy rank other held)
    (owner : ∀ mutex, next.owner mutex = some other ↔ state.owner mutex = some other)
    (todo : next.todo other = state.todo other) : next.Tidy rank other held where
  nodup := tidy.nodup
  owns mutex := (owner mutex).trans (tidy.owns mutex)
  orderly := by
    rw [todo]
    exact tidy.orderly

variable [DecidableEq Thread] [DecidableEq Mutex]

omit [Preorder Rank] [DecidableEq Thread] in
/-- A mutex that the thread takes, or gives back, is none of the others'. -/
theorem owner_update {mutex : Mutex} {before after : Option Thread}
    (owned : state.owner mutex = before) (apart : before ≠ some other) (apartToo : after ≠ some other)
    (any : Mutex) :
    Function.update state.owner mutex after any = some other ↔ state.owner any = some other := by
  by_cases same : any = mutex
  · subst same
    rw [Function.update_self, owned]
    exact iff_of_false apartToo apart
  · rw [Function.update_of_ne same]

/-- A thread that locks a free mutex holds one more. -/
theorem Tidy.lock {mutex : Mutex} {rest : List (Act Mutex)} (tidy : state.Tidy rank thread held)
    (todo : state.todo thread = .lock mutex :: rest) (free : state.owner mutex = none) :
    (state.act thread mutex (some thread) rest).Tidy rank thread (mutex :: held) := by
  have orderly := tidy.orderly
  rw [todo] at orderly
  have absent : mutex ∉ held := fun member => by
    rw [(tidy.owns mutex).mpr member] at free
    cases free
  refine ⟨List.nodup_cons.mpr ⟨absent, tidy.nodup⟩, fun any => ?_, ?_⟩
  · show Function.update state.owner mutex (some thread) any = some thread ↔ any ∈ mutex :: held
    by_cases same : any = mutex
    · subst same
      simp
    · simp [same, tidy.owns any]
  · show Orderly rank (mutex :: held) (Function.update state.todo thread rest thread)
    rw [Function.update_self]
    exact orderly.2

/-- A thread that unlocks a mutex holds the others as before. -/
theorem Tidy.unlock {mutex : Mutex} {rest : List (Act Mutex)} (tidy : state.Tidy rank thread held)
    (todo : state.todo thread = .unlock mutex :: rest) :
    ∃ before, (state.act thread mutex none rest).Tidy rank thread before := by
  have orderly := tidy.orderly
  rw [todo] at orderly
  obtain ⟨before, rfl, later⟩ := orderly
  obtain ⟨absent, nodup⟩ := List.nodup_cons.mp tidy.nodup
  refine ⟨before, nodup, fun any => ?_, ?_⟩
  · show Function.update state.owner mutex none any = some thread ↔ any ∈ before
    by_cases same : any = mutex
    · subst same
      simp [absent]
    · simp [same, tidy.owns any]
  · show Orderly rank before (Function.update state.todo thread rest thread)
    rw [Function.update_self]
    exact later

/-- **A step of a thread leaves every call orderly.** -/
theorem sound_go (sound : state.Sound rank) (took : state.go thread = some next) :
    next.Sound rank := by
  intro other
  obtain ⟨held, tidy⟩ := sound other
  obtain ⟨mutex, rest, ⟨todo, free, rfl⟩ | ⟨todo, owned, rfl⟩⟩ := go_cases took
  all_goals by_cases same : other = thread
  · subst same
    exact ⟨_, tidy.lock todo free⟩
  · refine ⟨held, tidy.frame (owner_update free (by simp) ?_) (Function.update_of_ne same _ _)⟩
    exact fun owns => same (Option.some.inj owns).symm
  · subst same
    exact tidy.unlock todo
  · refine ⟨held, tidy.frame (owner_update owned ?_ (by simp)) (Function.update_of_ne same _ _)⟩
    exact fun owns => same (Option.some.inj owns).symm

/-- **A step leaves every call orderly**, where the calls are. -/
theorem sound_step (orderly : ∀ call, Nests rank [] (body call)) {label : Label Thread Call}
    (sound : state.Sound rank) (took : state.step body label = some next) : next.Sound rank := by
  cases label with
  | go thread => exact sound_go sound took
  | call thread call =>
      intro other
      obtain ⟨held, tidy⟩ := sound other
      simp only [step] at took
      split at took
      next idle =>
        cases took
        by_cases same : other = thread
        · subst same
          have nothing := tidy.orderly
          rw [idle] at nothing
          obtain rfl : held = [] := nothing
          refine ⟨[], tidy.nodup, tidy.owns, ?_⟩
          show Orderly rank [] (Function.update state.todo other (body call) other)
          rw [Function.update_self]
          exact (orderly call).orderly
        · exact ⟨held, tidy.frame (fun _ => Iff.rfl) (Function.update_of_ne same _ _)⟩
      next => cases took

/-! ### Nobody waits for itself -/

/-- How high a thread waits: at the mutex it locks next, and above them all if it locks none. -/
def height (rank : Mutex → Rank) (state : State Thread Mutex) (thread : Thread) : WithTop Rank :=
  match state.todo thread with
  | .lock mutex :: _ => (rank mutex : WithTop Rank)
  | _ => ⊤

omit [DecidableEq Thread] [DecidableEq Mutex] in
/-- **Nobody waits, through others or directly, for itself**: the waits climb. -/
theorem Sound.acyclic (sound : state.Sound rank) : Waits.Acyclic state.Waits := by
  refine Waits.acyclic_of_rank (state.height rank) ?_
  rintro waiter waited ⟨mutex, rest, todo, owned⟩
  obtain ⟨held, tidy⟩ := sound waited
  have member := (tidy.owns mutex).mp owned
  have orderly := tidy.orderly
  simp only [height, todo]
  split
  next higher later next_todo =>
    rw [next_todo] at orderly
    exact WithTop.coe_lt_coe.mpr (orderly.1 mutex member)
  next => exact WithTop.coe_lt_top _

omit [DecidableEq Thread] [DecidableEq Mutex] in
/-- A thread that owns a mutex has still to do something. -/
theorem Sound.busy (sound : state.Sound rank) {mutex : Mutex} (owned : state.owner mutex = some thread) :
    state.todo thread ≠ [] := by
  intro idle
  obtain ⟨held, tidy⟩ := sound thread
  have orderly := tidy.orderly
  rw [idle] at orderly
  obtain rfl : held = [] := orderly
  exact absurd ((tidy.owns mutex).mp owned) List.not_mem_nil

/-- A thread in a call that waits for nobody can go on. -/
theorem Sound.goes_on (sound : state.Sound rank) (busy : state.todo thread ≠ [])
    (free : ∀ waited, ¬ state.Waits thread waited) : state.go thread ≠ none := by
  intro stuck
  unfold go at stuck
  split at stuck
  next idle => exact busy idle
  next mutex rest todo =>
    split at stuck
    next => cases stuck
    next owned =>
      obtain ⟨waited, owner⟩ := Option.ne_none_iff_exists'.mp owned
      exact free waited ⟨mutex, rest, todo, owner⟩
  next mutex rest todo =>
    split at stuck
    next => cases stuck
    next foreign =>
      obtain ⟨held, tidy⟩ := sound thread
      have orderly := tidy.orderly
      rw [todo] at orderly
      obtain ⟨before, rfl, -⟩ := orderly
      exact foreign ((tidy.owns mutex).mpr List.mem_cons_self)

/-- As long as a thread is in a call, some thread can go on. -/
theorem Sound.some_goes [Finite Thread] (sound : state.Sound rank) (busy : state.todo thread ≠ []) :
    ∃ last, state.go last ≠ none := by
  obtain ⟨last, path, ends⟩ := sound.acyclic.exists_end thread
  have working : state.todo last ≠ [] := by
    rcases path.cases_tail with same | ⟨before, -, mutex, rest, -, owned⟩
    · rwa [same]
    · exact sound.busy owned
  exact ⟨last, sound.goes_on working ends⟩

/-- **Where nobody can go on, every call has returned.** -/
theorem Sound.returned [Finite Thread] (sound : state.Sound rank)
    (rests : Rests (step body) Label.goes state) (thread : Thread) : state.todo thread = [] := by
  by_contra busy
  obtain ⟨last, goes⟩ := sound.some_goes busy
  exact goes (rests (.go last) rfl)

/-! ### A thread that does not get back -/

omit [Preorder Rank] [DecidableEq Mutex] in
theorem postpone_owner (later : List (Act Mutex)) :
    (state.postpone thread later).owner = state.owner :=
  rfl

omit [Preorder Rank] in
/-- What comes later changes nothing about the next action. -/
theorem go_postpone {later : List (Act Mutex)} (busy : other = thread → state.todo thread ≠ []) :
    (state.postpone thread later).go other = (state.go other).map (·.postpone thread later) := by
  by_cases same : other = thread
  · subst same
    obtain ⟨act, rest, todo⟩ := List.exists_cons_of_ne_nil (busy rfl)
    have whole : (state.postpone other later).todo other = act :: (rest ++ later) := by
      simp [postpone, todo]
    have after : ∀ mutex owner, (state.postpone other later).act other mutex owner (rest ++ later) =
        (state.act other mutex owner rest).postpone other later := by
      simp [postpone, State.act]
    cases act <;> simp only [go, whole, todo, after, postpone_owner, apply_ite (Option.map _),
      Option.map_some, Option.map_none]
  · have whole : (state.postpone thread later).todo other = state.todo other :=
      Function.update_of_ne same _ _
    have after : ∀ mutex owner rest, (state.postpone thread later).act other mutex owner rest =
        (state.act other mutex owner rest).postpone thread later := by
      intro mutex owner rest
      simp [postpone, State.act, Function.update_comm same, Function.update_of_ne (Ne.symm same)]
    cases todo : state.todo other with
    | nil => simp only [go, whole, todo, Option.map_none]
    | cons act rest =>
        cases act <;> simp only [go, whole, todo, after, postpone_owner, apply_ite (Option.map _),
          Option.map_some, Option.map_none]

omit [DecidableEq Mutex] in
/-- What is in order with all that the thread holds is in order with its call still to come. -/
theorem sound_divert {first : List (Act Mutex)} (sound : state.Sound rank)
    (nests : ∀ held, state.Tidy rank thread held → Nests rank held first) :
    ((state.divert thread first).postpone thread (state.todo thread)).Sound rank := by
  intro other
  obtain ⟨held, tidy⟩ := sound other
  by_cases same : other = thread
  · subst same
    refine ⟨held, tidy.nodup, tidy.owns, ?_⟩
    have whole : ((state.divert other first).postpone other (state.todo other)).todo other =
        first ++ state.todo other := by
      simp [postpone, divert]
    rw [whole]
    exact nests held tidy _ tidy.orderly
  · refine ⟨held, tidy.frame (fun _ => Iff.rfl) ?_⟩
    simp [postpone, divert, Function.update_of_ne same]

/-- A step leaves every call orderly, the one that is still to come included. -/
theorem sound_go_postponed {later : List (Act Mutex)} (sound : (state.postpone thread later).Sound rank)
    (took : state.go other = some next) : (next.postpone thread later).Sound rank := by
  have busy : other = thread → state.todo thread ≠ [] := by
    rintro rfl
    obtain ⟨mutex, rest, ⟨todo, -⟩ | ⟨todo, -⟩⟩ := go_cases took
    · exact todo ▸ List.cons_ne_nil _ _
    · exact todo ▸ List.cons_ne_nil _ _
  have tookToo : (state.postpone thread later).go other = some (next.postpone thread later) := by
    rw [go_postpone busy, took]
    rfl
  exact sound_go sound tookToo

/-- **Where nobody can go on, what the thread did instead has returned.** -/
theorem diverted_returned [Finite Thread] {later : List (Act Mutex)}
    (sound : (state.postpone thread later).Sound rank) (rests : Rests (step body) Label.goes state) :
    state.todo thread = [] := by
  by_contra busy
  have more : (state.postpone thread later).todo thread ≠ [] := by
    simp [postpone, busy]
  obtain ⟨last, goes⟩ := sound.some_goes more
  rw [go_postpone fun _ => busy, show state.go last = none from rests (.go last) rfl] at goes
  exact goes rfl

end Sound

/-! ### How long it takes -/

section Measure

variable [DecidableEq Thread] [DecidableEq Mutex] {body : Call → List (Act Mutex)}
  {state next : State Thread Mutex} {thread : Thread}

/-- A step of a thread takes the first of its actions away. -/
theorem todo_go (took : state.go thread = some next) :
    ∃ act rest, state.todo thread = act :: rest ∧
      next.todo = Function.update state.todo thread rest := by
  obtain ⟨mutex, rest, ⟨todo, -, rfl⟩ | ⟨todo, -, rfl⟩⟩ := go_cases took
  · exact ⟨_, rest, todo, rfl⟩
  · exact ⟨_, rest, todo, rfl⟩

theorem measure_go [Fintype Thread] (took : state.go thread = some next) :
    next.measure + 1 = state.measure := by
  obtain ⟨act, rest, todo, later⟩ := todo_go took
  have share := sum_update List.length state.todo thread rest
  rw [todo, List.length_cons] at share
  unfold measure
  rw [later]
  omega

/-- Calls that have begun take as many steps at most as they have actions. -/
theorem goes_end [Fintype Thread] {final : State Thread Mutex} {labels : List (Label Thread Call)}
    (ran : exec (only (step body) Label.goes) state labels = some final) :
    labels.length ≤ state.measure := by
  refine only_ends (fun now label later goes took => ?_) ran
  cases label with
  | call => cases goes
  | go thread => exact Nat.lt_of_succ_le (measure_go took).le

/-- Nobody begins a call until nobody can go on. -/
theorem exists_rest [Fintype Thread] (body : Call → List (Act Mutex)) (state : State Thread Mutex) :
    ∃ labels final, exec (only (step body) Label.goes) state labels = some final ∧
      Rests (step body) Label.goes final := by
  induction bound : state.measure generalizing state with
  | zero =>
      refine ⟨[], state, rfl, fun label goes => ?_⟩
      cases label with
      | call => cases goes
      | go thread =>
          refine Option.eq_none_iff_forall_ne_some.mpr fun next took => ?_
          have less := measure_go took
          omega
  | succ bound ih =>
      by_cases rests : Rests (step body) Label.goes state
      · exact ⟨[], state, rfl, rests⟩
      · unfold Rests at rests
        push Not at rests
        obtain ⟨label, goes, moves⟩ := rests
        obtain ⟨next, took⟩ := Option.ne_none_iff_exists'.mp moves
        cases label with
        | call => cases goes
        | go thread =>
            have less := measure_go took
            obtain ⟨labels, final, ran, still⟩ := ih next (by omega)
            refine ⟨.go thread :: labels, final, ?_, still⟩
            rw [exec, only_eq_some.mpr ⟨rfl, took⟩]
            exact ran

/-! ### A mutex that is one's own -/

/-- **Who locks what it owns stands there for good.** -/
theorem stays_stuck {mutex : Mutex} {rest : List (Act Mutex)} {final : State Thread Mutex}
    {labels : List (Label Thread Call)} (owned : state.owner mutex = some thread)
    (todo : state.todo thread = .lock mutex :: rest)
    (ran : exec (step body) state labels = some final) :
    final.todo thread = .lock mutex :: rest := by
  have always : Always (step body) (fun now => now.owner mutex = some thread ∧
      now.todo thread = .lock mutex :: rest) state labels := by
    refine always_of_step ?_ ⟨owned, todo⟩ labels
    rintro now label later ⟨owned, todo⟩ took
    cases label with
    | call other call =>
        simp only [step] at took
        split at took
        next idle =>
          cases took
          have apart : thread ≠ other := fun same => by
            rw [same, idle] at todo
            cases todo
          exact ⟨owned, (Function.update_of_ne apart _ _).trans todo⟩
        next => cases took
    | go other =>
        have took : now.go other = some later := took
        have apart : thread ≠ other := by
          rintro rfl
          simp [go, todo, owned] at took
        obtain ⟨taken, left, ⟨-, free, rfl⟩ | ⟨-, own, rfl⟩⟩ := go_cases took
        · have different : mutex ≠ taken := fun same => by
            rw [← same, owned] at free
            cases free
          exact ⟨(Function.update_of_ne different _ _).trans owned,
            (Function.update_of_ne apart _ _).trans todo⟩
        · have different : mutex ≠ taken := fun same => by
            rw [← same, owned] at own
            exact apart (Option.some.inj own)
          exact ⟨(Function.update_of_ne different _ _).trans owned,
            (Function.update_of_ne apart _ _).trans todo⟩
  exact (always.last ran).2

end Measure

end State

end Locks
