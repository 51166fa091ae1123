/-
**`send` chooses a least-loaded actor.**

One thread sends, while the sessions drain the queues between its reads of `load()`. A queue is
shorter than `2 ^ 32`, so that `load()` is its length, and `sizes` is the lengths of all.

* `Scanning` — a scan tracks the least of the lengths there were when it began, and takes nothing
  from where it looks (`scanning_step`);
* `picks_least`, `picks_lowest` — **the actor chosen has at most the least of those lengths**, and is
  the lowest of a least length if no session takes a task meanwhile;
* `inScan_run`, `scan_ends` — **the scan takes at most three steps for each actor**, and then pushes
  once the session has left the mutex;
* `level_of_sends` — sends alone keep the queues within one task of each other;
* `longest_looks_empty` — a queue of `2 ^ 32` tasks.
-/

import IkunSvr.Actor.Mgr
import IkunSvr.Lib.Least

namespace IkunSvr

open Run WaitQueue WaitQueue.State

namespace Mgr

variable {n : ℕ} {Task : Type*}

/-- The lengths of the queues. -/
def sizes {Sender : Type*} (state : Mgr n Sender Task) (idx : Fin (n + 1)) : ℕ :=
  (state.actors idx).queue.length

/-- Each queue has a length that a `uint32_t` can say. -/
def Narrow (state : Mgr n Unit Task) : Prop :=
  ∀ idx, state.sizes idx < 2 ^ 32

theorem Narrow.load_eq {state : Mgr n Unit Task} (narrow : state.Narrow) (idx : Fin (n + 1)) :
    state.load idx = state.sizes idx :=
  Nat.mod_eq_of_lt (narrow idx)

/-- The step takes no task out of a queue. -/
def KeepsTasks (state : Mgr n Unit Task) (label : Label n Unit Task) : Prop :=
  ∀ next, step state label = some next → state.sizes ≤ next.sizes

/-- The step is one of a sender. -/
def Label.sends {Sender : Type*} : Label n Sender Task → Bool
  | .own .. => false
  | .send .. | .load .. | .test _ | .push _ | .notify .. => true

variable {state next first start here : Mgr n Unit Task} {label : Label n Unit Task}

/-- The sender stands where it goes. -/
theorem goTo_senders (state : Mgr n Unit Task) (pc : SendPc n (Sent Unit Task)) :
    (state.goTo () pc).senders () = pc := by
  show Function.update state.senders () pc () = pc
  rw [Function.update_self]

/-! ### What a step of an actor leaves in its queue -/

section Queue

variable {actor after : Actor Unit (Sent Unit Task)}

theorem queue_push {item : Sent Unit Task}
    (acted : Actor.step actor (.push () item) = some after) : after.queue = actor.queue ++ [item] :=
  (quiet_step (Actor.step_eq acted) nofun).1

theorem queue_notify {woken : Option Unit}
    (acted : Actor.step actor (.notifyOne () woken) = some after) : after.queue = actor.queue :=
  (quiet_step (Actor.step_eq acted) nofun).1.trans (List.append_nil _)

/-- A session takes from the front. -/
theorem queue_own {does : Own} (acted : Actor.step actor does.label = some after) :
    ∃ front, actor.queue = front ++ after.queue := by
  cases does with
  | session =>
      rcases work_cases (Actor.step_eq acted) with ⟨_, _, rfl, -⟩ | ⟨task, _, -, taken, rfl⟩ | ⟨_, -, rfl⟩
      · exact ⟨[], rfl⟩
      · exact ⟨[task], taken⟩
      · exact ⟨[], rfl⟩
  | spurious =>
      have same := (quiet_step (Actor.step_eq acted) nofun).1
      exact ⟨[], by rw [same]; exact (List.append_nil _).symm⟩
  | stop =>
      have same := (quiet_step (Actor.step_eq acted) nofun).1
      exact ⟨[], by rw [same]; exact (List.append_nil _).symm⟩

end Queue

/-- **Until the push the queues lose what the sessions take from their fronts**, and nothing else. -/
theorem queue_step (took : step state label = some next) (before : label ≠ .push ())
    (idx : Fin (n + 1)) : ∃ front, (state.actors idx).queue = front ++ (next.actors idx).queue := by
  cases step_turns took with
  | send | left | right | test => exact ⟨[], rfl⟩
  | push => exact absurd rfl before
  | notify sender woken at_idx actor stands acted =>
      refine forall_setActor (fun idx actor => ∃ front, (state.actors idx).queue = front ++ actor.queue)
        ?_ (fun other => ⟨[], rfl⟩) idx
      exact ⟨[], (queue_notify acted).symm⟩
  | own at_idx does actor acted =>
      exact forall_setActor (fun idx actor => ∃ front, (state.actors idx).queue = front ++ actor.queue)
        (queue_own acted) (fun other => ⟨[], rfl⟩) idx

/-- The queues only get shorter, until the push. -/
theorem sizes_fall (took : step state label = some next) (before : label ≠ .push ()) :
    next.sizes ≤ state.sizes := by
  intro idx
  obtain ⟨front, split⟩ := queue_step took before idx
  show (next.actors idx).queue.length ≤ (state.actors idx).queue.length
  rw [split, List.length_append]
  exact Nat.le_add_left _ _

/-- A step that takes nothing and pushes nothing leaves the lengths. -/
theorem sizes_stay (took : step state label = some next) (before : label ≠ .push ())
    (keeps : KeepsTasks state label) : next.sizes = state.sizes :=
  le_antisymm (sizes_fall took before) (keeps next took)

/-! ### The scan -/

/-- The sender is looking for an actor for `item`, against the lengths in `first`: nobody has pushed
since, and the sessions have taken from the fronts. -/
structure Scanning (first : Mgr n Unit Task) (item : Sent Unit Task) (state : Mgr n Unit Task) :
    Prop where
  stands : ∃ i idx left right, state.senders () = .scanning item i idx left right ∧
    Least.Tracks first.sizes state.sizes i idx left right
  routed : state.routed = first.routed
  taken : ∀ idx, ∃ front, (first.actors idx).queue = front ++ (state.actors idx).queue

/-- A scan that has just begun. -/
theorem scanning_send {task : Task} (called : step state (.send () task) = some next) :
    Scanning next (state.item () task) next := by
  cases step_turns called with
  | send sender task idle =>
      exact ⟨⟨0, 0, none, none, goTo_senders state _, .start _ 0⟩, rfl, fun idx => ⟨[], rfl⟩⟩

theorem Scanning.narrow {item : Sent Unit Task} (scanning : Scanning start item state)
    (narrow : start.Narrow) : state.Narrow := by
  obtain ⟨i, idx, left, right, -, tracks⟩ := scanning.stands
  exact fun idx => (tracks.fallen idx).trans_lt (narrow idx)

/-- **Every step before the push keeps track of the least length.** -/
theorem scanning_step (narrow : start.Narrow) {item : Sent Unit Task}
    (scanning : Scanning start item state) (took : step state label = some next)
    (before : label ≠ .push ()) : Scanning start item next := by
  have taken : ∀ idx, ∃ front, (start.actors idx).queue = front ++ (next.actors idx).queue := by
    intro idx
    obtain ⟨front, first⟩ := scanning.taken idx
    obtain ⟨more, second⟩ := queue_step took before idx
    exact ⟨front ++ more, by rw [first, second, List.append_assoc]⟩
  have load := (scanning.narrow narrow).load_eq
  have fall := sizes_fall took before
  obtain ⟨i, idx, left, right, stands, tracks⟩ := scanning.stands
  cases step_turns took with
  | send sender task idle =>
      simp [idle] at stands
  | left sender other i idx right inside standsToo =>
      cases stands.symm.trans standsToo
      refine ⟨⟨_, _, _, _, goTo_senders _ _, ?_⟩, scanning.routed, taken⟩
      rw [load]
      exact tracks.read_left inside
  | right sender other i idx left inside standsToo =>
      cases stands.symm.trans standsToo
      refine ⟨⟨_, _, _, _, goTo_senders _ _, ?_⟩, scanning.routed, taken⟩
      rw [load]
      exact tracks.read_right
  | test sender other i idx left right inside standsToo =>
      cases stands.symm.trans standsToo
      exact ⟨⟨_, _, _, _, goTo_senders _ _, (tracks.test inside).back (Nat.mod_le ..)⟩,
        scanning.routed, taken⟩
  | push => exact absurd rfl before
  | notify sender woken idx actor standsToo acted =>
      simp [standsToo] at stands
  | own at_idx does actor acted =>
      exact ⟨⟨i, idx, left, right, stands, tracks.fall fall⟩, scanning.routed, taken⟩

/-- No step of a run without a push pushes. -/
theorem along_before {labels : List (Label n Unit Task)} (scan : .push () ∉ labels) :
    Along step (fun _ label => label ≠ .push ()) state labels :=
  along_of_forall fun _ member _ same => scan (same ▸ member)

/-- **A run up to the push is a scan.** -/
theorem scanning_run {task : Task} {labels : List (Label n Unit Task)}
    (called : step state (.send () task) = some start) (narrow : start.Narrow)
    (ran : exec step start labels = some here) (scan : .push () ∉ labels) :
    Scanning start (state.item () task) here :=
  (always_of_along (fun _ _ _ scanning before took => scanning_step narrow scanning took before)
    (scanning_send called) (along_before scan)).last ran

/-- What a call of `send` comes to: the task is pushed to one actor, whose queue is no longer than any
was when the scan began; the other queues have only been taken from. -/
structure Picked (start here next : Mgr n Unit Task) (item : Sent Unit Task) (idx : Fin (n + 1)) :
    Prop where
  routed : next.routed = start.routed ++ [(idx, item)]
  pushed : (next.actors idx).queue = (here.actors idx).queue ++ [item]
  others : ∀ other, other ≠ idx → next.actors other = here.actors other
  taken : ∀ other, ∃ front, (start.actors other).queue = front ++ (here.actors other).queue
  least : ∀ other, here.sizes idx ≤ start.sizes other

/-- **The actor chosen has at most the least of the lengths there were when the scan began.** -/
theorem picks_least {item : Sent Unit Task} (scanning : Scanning start item here)
    (pushed : step here (.push ()) = some next) : ∃ idx, Picked start here next item idx ∧
      ∃ i left right, here.senders () = .scanning item i idx left right ∧ n + 1 ≤ i := by
  obtain ⟨i, idx, left, right, stands, tracks⟩ := scanning.stands
  cases step_turns pushed with
  | push sender other i idx left right actor ended standsToo acted =>
      cases stands.symm.trans standsToo
      refine ⟨idx, ⟨?_, ?_, ?_, scanning.taken, tracks.least_of_end ended⟩, i, left, right, stands,
        ended⟩
      · show here.routed ++ [(idx, item)] = start.routed ++ [(idx, item)]
        rw [scanning.routed]
      · show (Function.update here.actors idx actor idx).queue = _
        rw [Function.update_self]
        exact queue_push acted
      · intro other elsewhere
        exact Function.update_of_ne elsewhere ..

/-! ### Without dequeues -/

/-- A sender that is scanning has found the lowest of the least-loaded actors it has passed. -/
def Choosing (state : Mgr n Unit Task) : Prop :=
  ∀ item i idx left right, state.senders () = .scanning item i idx left right →
    Least.Picks state.sizes i idx left right

/-- Where the sender goes, it has chosen. -/
theorem choosing_goTo (state : Mgr n Unit Task) {pc : SendPc n (Sent Unit Task)}
    (picks : ∀ item i idx left right, pc = .scanning item i idx left right →
      Least.Picks state.sizes i idx left right) : (state.goTo () pc).Choosing := by
  intro item i idx left right stands
  exact picks item i idx left right ((goTo_senders state pc).symm.trans stands)

/-- **A step that takes nothing keeps the choice.** -/
theorem choosing_step (narrow : state.Narrow) (choosing : state.Choosing)
    (keeps : KeepsTasks state label) (took : step state label = some next) : next.Choosing := by
  have load := narrow.load_eq
  cases step_turns took with
  | send sender task idle =>
      refine choosing_goTo state ?_
      rintro item i idx left right ⟨⟩
      exact .start _
  | left sender item i idx right inside stands =>
      refine choosing_goTo _ ?_
      rintro item i idx left right ⟨⟩
      rw [load]
      exact (choosing _ _ _ _ _ stands).read_left inside
  | right sender item i idx left inside stands =>
      refine choosing_goTo _ ?_
      rintro item i idx left right ⟨⟩
      rw [load]
      exact (choosing _ _ _ _ _ stands).read_right
  | test sender item i idx left right inside stands =>
      refine choosing_goTo _ ?_
      rintro item i idx left right ⟨⟩
      exact ((choosing _ _ _ _ _ stands).test inside).back (Nat.mod_le ..)
  | push sender item i idx left right actor ended stands acted =>
      refine choosing_goTo { state.setActor idx actor with routed := _ } ?_
      nofun
  | notify sender woken idx actor stands acted =>
      refine choosing_goTo _ ?_
      nofun
  | own idx does actor acted =>
      have same := sizes_stay took nofun keeps
      intro item i idx left right stands
      rw [same]
      exact choosing item i idx left right stands

/-- A scan without dequeues: the lengths are those there were when it began. -/
structure Undisturbed (start state : Mgr n Unit Task) : Prop where
  choosing : state.Choosing
  same : state.sizes = start.sizes

theorem undisturbed_run {task : Task} {labels : List (Label n Unit Task)}
    (called : step state (.send () task) = some start) (narrow : start.Narrow)
    (ran : exec step start labels = some here) (scan : .push () ∉ labels)
    (along : Along step KeepsTasks start labels) : Undisturbed start here := by
  have first : Undisturbed start start := by
    refine ⟨?_, rfl⟩
    cases step_turns called with
    | send sender task idle =>
        refine choosing_goTo state ?_
        rintro item i idx left right ⟨⟩
        exact .start _
  have both := (along_before scan).and along
  refine (always_of_along (fun now label later undisturbed both took => ?_) first both).last ran
  have narrowNow : now.Narrow := fun idx => undisturbed.same ▸ narrow idx
  exact ⟨choosing_step narrowNow undisturbed.choosing both.2 took,
    (sizes_stay took both.1 both.2).trans undisturbed.same⟩

/-- **When no session takes a task meanwhile, the actor chosen is the lowest of a least length.** -/
theorem Undisturbed.picks_lowest (undisturbed : Undisturbed start here) {item : Sent Unit Task}
    {i : ℕ} {idx : Fin (n + 1)} {left right : Option ℕ}
    (stands : here.senders () = .scanning item i idx left right) (ended : n + 1 ≤ i) :
    (∀ other, start.sizes idx ≤ start.sizes other) ∧
      ∀ other, other < idx → start.sizes idx < start.sizes other := by
  have picks := undisturbed.choosing item i idx left right stands
  rw [undisturbed.same] at picks
  exact ⟨picks.least_of_end ended, picks.lowest⟩

/-- A push adds one task to a least-loaded queue. -/
theorem level_push (choosing : state.Choosing) (level : Least.Level state.sizes)
    (pushed : step state (.push ()) = some next) : Least.Level next.sizes := by
  cases step_turns pushed with
  | push sender item i idx left right actor ended stands acted =>
      have picks := choosing item i idx left right stands
      refine level.raise (picks.least_of_end ended) ?_ fun other elsewhere => ?_
      · show (Function.update state.actors idx actor idx).queue.length = _
        rw [Function.update_self, queue_push acted, List.length_append]
        rfl
      · show (Function.update state.actors idx actor other).queue.length = _
        rw [Function.update_of_ne elsewhere]
        rfl

/-- The step is taken with queues that a `uint32_t` can count, and takes no task. -/
def Fills (state : Mgr n Unit Task) (label : Label n Unit Task) : Prop :=
  state.Narrow ∧ KeepsTasks state label

/-- **Sends alone keep the queues within one task of each other.** -/
theorem level_of_sends (idle : state.senders () = .idle) (level : Least.Level state.sizes)
    {labels : List (Label n Unit Task)} (along : Along step Fills state labels) :
    Always step (fun state => Least.Level state.sizes) state labels := by
  have first : state.Choosing ∧ Least.Level state.sizes := by
    refine ⟨fun item i idx left right stands => ?_, level⟩
    simp [idle] at stands
  have kept : ∀ (state : Mgr n Unit Task) (label : Label n Unit Task) (next : Mgr n Unit Task),
      state.Choosing ∧ Least.Level state.sizes → Fills state label →
        step state label = some next → next.Choosing ∧ Least.Level next.sizes := by
    rintro state label next ⟨choosing, level⟩ fills took
    refine ⟨choosing_step fills.1 choosing fills.2 took, ?_⟩
    by_cases pushes : label = .push ()
    · subst pushes
      exact level_push choosing level took
    · rw [sizes_stay took pushes fills.2]
      exact level
  exact (always_of_along kept first along).mono fun _ both => both.2

/-! ### The end of the scan -/

/-- The sender has taken `steps` steps of its scan, of at most three for each actor. -/
def InScan (state : Mgr n Unit Task) (steps : ℕ) : Prop :=
  ∃ item i idx left right, state.senders () = .scanning item i idx left right ∧
    steps = 3 * i + left.toList.length + right.toList.length ∧ steps ≤ 3 * (n + 1)

/-- **A step of the scan counts.** -/
theorem inScan_step (small : n + 1 < 2 ^ 32) {steps : ℕ} (scans : state.InScan steps)
    (took : step state label = some next) (before : label ≠ .push ()) :
    next.InScan (steps + if label.sends then 1 else 0) := by
  obtain ⟨item, i, idx, left, right, stands, rfl, bound⟩ := scans
  cases step_turns took with
  | send sender task idle =>
      simp [idle] at stands
  | left sender other i idx right inside standsToo =>
      cases stands.symm.trans standsToo
      have read : right.toList.length ≤ 1 := Option.length_toList_le
      refine ⟨_, _, _, _, _, goTo_senders _ _, ?_, ?_⟩
      all_goals simp [Label.sends]
      all_goals omega
  | right sender other i idx left inside standsToo =>
      cases stands.symm.trans standsToo
      have read : left.toList.length ≤ 1 := Option.length_toList_le
      refine ⟨_, _, _, _, _, goTo_senders _ _, ?_, ?_⟩
      all_goals simp [Label.sends]
      all_goals omega
  | test sender other i idx left right inside standsToo =>
      cases stands.symm.trans standsToo
      have later : (i + 1) % 2 ^ 32 = i + 1 := Nat.mod_eq_of_lt (by omega)
      refine ⟨_, _, _, _, _, goTo_senders _ _, ?_, ?_⟩
      all_goals simp [Label.sends]
      all_goals omega
  | push => exact absurd rfl before
  | notify sender woken idx actor standsToo acted =>
      simp [standsToo] at stands
  | own at_idx does actor acted => exact ⟨item, i, idx, left, right, stands, rfl, bound⟩

/-- **The scan is over after three steps for each actor.** -/
theorem inScan_run (small : n + 1 < 2 ^ 32) {labels : List (Label n Unit Task)} {steps : ℕ}
    (scans : state.InScan steps) (ran : exec step state labels = some here)
    (scan : .push () ∉ labels) : here.InScan (steps + labels.countP Label.sends) := by
  induction labels generalizing state steps with
  | nil =>
      cases ran
      exact scans
  | cons label labels ih =>
      rw [exec, Option.bind_eq_some_iff] at ran
      obtain ⟨next, took, rest⟩ := ran
      obtain ⟨before, later⟩ := List.ne_and_not_mem_of_not_mem_cons scan
      have counted := ih (inScan_step small scans took (Ne.symm before)) rest later
      rw [List.countP_cons, Nat.add_comm _ (ite _ _ _), ← Nat.add_assoc]
      exact counted

/-- The actors are as their own steps leave them, and the sender is in `dispatch` of none but the one it
notifies. -/
structure Paired (state : Mgr n Unit Task) : Prop where
  sane : ∀ idx, Actor.Sane (state.actors idx)
  clients : ∀ idx, (state.actors idx).clients () = .idle ∨ state.senders () = .notifying idx

theorem paired_create : (create : Mgr n Unit Task).Paired where
  sane := fun _ => Actor.sane_create
  clients := fun _ => .inl rfl

section Clients

variable {actor after : Actor Unit (Sent Unit Task)}

theorem clients_own {does : Own} (acted : Actor.step actor does.label = some after) :
    after.clients = actor.clients := by
  have took := Actor.step_eq acted
  cases does with
  | session =>
      rcases work_cases took with ⟨_, _, rfl, -⟩ | ⟨_, _, -, -, rfl⟩ | ⟨_, -, rfl⟩ <;> rfl
  | spurious =>
      simp only [Own.label, WaitQueue.State.step] at took
      split at took <;> cases took
      rfl
  | stop =>
      simp only [Own.label, WaitQueue.State.step, shutDown] at took
      repeat' split at took
      all_goals cases took
      all_goals rfl

theorem clients_notify {woken : Option Unit}
    (acted : Actor.step actor (.notifyOne () woken) = some after) : after.clients () = .idle := by
  have took := Actor.step_eq acted
  simp only [WaitQueue.State.step] at took
  repeat' split at took
  all_goals cases took
  all_goals
    show Function.update actor.clients () .idle () = .idle
    rw [Function.update_self]

end Clients

/-- An actor takes a step. -/
theorem Paired.sane_setActor (paired : state.Paired) {idx : Fin (n + 1)}
    {acts : WaitQueue.Label Unit Unit (Sent Unit Task)} {actor : Actor Unit (Sent Unit Task)}
    (acted : Actor.step (state.actors idx) acts = some actor) :
    ∀ other, Actor.Sane ((state.setActor idx actor).actors other) :=
  forall_setActor (fun _ => Actor.Sane) (Actor.sane_step (paired.sane idx) acted) paired.sane

/-- A sender that is not in `dispatch` is a client of nobody. -/
theorem Paired.idle (paired : state.Paired) (idx : Fin (n + 1))
    (outside : ∀ other, state.senders () ≠ .notifying other) :
    (state.actors idx).clients () = .idle :=
  (paired.clients idx).resolve_right (outside idx)

/-- **Every step keeps the actors and the sender in step.** -/
theorem paired_step (paired : state.Paired) (took : step state label = some next) : next.Paired := by
  cases step_turns took with
  | send sender task idle =>
      exact ⟨paired.sane, fun idx => .inl (paired.idle idx fun _ => by simp [idle])⟩
  | left sender item i idx right inside stands =>
      exact ⟨paired.sane, fun idx => .inl (paired.idle idx fun _ => by simp [stands])⟩
  | right sender item i idx left inside stands =>
      exact ⟨paired.sane, fun idx => .inl (paired.idle idx fun _ => by simp [stands])⟩
  | test sender item i idx left right inside stands =>
      exact ⟨paired.sane, fun idx => .inl (paired.idle idx fun _ => by simp [stands])⟩
  | push sender item i idx left right actor ended stands acted =>
      refine ⟨paired.sane_setActor acted, fun other => ?_⟩
      by_cases here : other = idx
      · subst here
        exact .inr (goTo_senders (state.setActor other actor) _)
      · left
        show (Function.update state.actors idx actor other).clients () = .idle
        rw [Function.update_of_ne here]
        exact paired.idle other fun _ => by simp [stands]
  | notify sender woken idx actor stands acted =>
      refine ⟨paired.sane_setActor acted, fun other => .inl ?_⟩
      show (Function.update state.actors idx actor other).clients () = .idle
      by_cases here : other = idx
      · subst here
        rw [Function.update_self]
        exact clients_notify acted
      · rw [Function.update_of_ne here]
        refine (paired.clients other).resolve_right fun notifying => here ?_
        exact (SendPc.notifying.inj (stands.symm.trans notifying)).symm
  | own idx does actor acted =>
      refine ⟨paired.sane_setActor acted, fun other => ?_⟩
      show (Function.update state.actors idx actor other).clients () = .idle ∨ _
      by_cases here : other = idx
      · subst here
        rw [Function.update_self, clients_own acted]
        exact paired.clients other
      · rw [Function.update_of_ne here]
        exact paired.clients other

/-- In every reachable state they are. -/
theorem paired_reachable (reach : Reachable step create state) : state.Paired :=
  reach.invariant (fun _ _ _ paired took => paired_step paired took) paired_create

/-- How many steps a session is from leaving the mutex. -/
def toUnlock : WorkerPc (Sent Unit Task) → ℕ
  | .testing => 3
  | .checking => 2
  | .parking | .taking => 1
  | .top | .entering | .waiting | .woken | .running _ | .left => 0

theorem session_turn (actor : Actor Unit (Sent Unit Task)) (pc : WorkerPc (Sent Unit Task))
    (owner : Option Unit) : Actor.session (actor.turn () pc owner) = pc :=
  Actor.session_update () pc actor.workers

/-- **A session that has the mutex goes on.** -/
theorem session_goes_on {actor : Actor Unit (Sent Unit Task)} (sane : Actor.Sane actor)
    (locked : (Actor.session actor).locked = true) : ∃ after,
      Actor.step actor (.work ()) = some after ∧
        toUnlock (Actor.session after) < toUnlock (Actor.session actor) := by
  rw [Actor.step_work, work]
  cases here : Actor.session actor with
  | testing =>
      rw [show actor.workers () = _ from here]
      refine ⟨_, rfl, ?_⟩
      rw [session_turn]
      split <;> simp [toUnlock]
  | parking =>
      rw [show actor.workers () = _ from here]
      refine ⟨_, rfl, ?_⟩
      rw [session_turn]
      simp [toUnlock]
  | checking =>
      rw [show actor.workers () = _ from here]
      by_cases leaves : Actor.tests.leaves actor.stop actor.queue.isEmpty = true
      · refine ⟨_, if_pos leaves, ?_⟩
        rw [session_turn]
        simp [toUnlock]
      · refine ⟨_, if_neg leaves, ?_⟩
        rw [session_turn]
        simp [toUnlock]
  | taking =>
      obtain ⟨task, queue, front⟩ := List.exists_cons_of_ne_nil (sane.sound.front () here)
      rw [show actor.workers () = _ from here, front]
      exact ⟨_, rfl, Nat.zero_lt_one⟩
  | top | entering | waiting | woken | running | left =>
      simp [here, WorkerPc.locked] at locked

/-- A push finds the mutex free. -/
theorem push_of_free (paired : state.Paired) {item : Sent Unit Task} {i : ℕ} {idx : Fin (n + 1)}
    {left right : Option ℕ} (stands : state.senders () = .scanning item i idx left right)
    (ended : n + 1 ≤ i) (free : (state.actors idx).owner = none) :
    ∃ final, step state (.push ()) = some final := by
  have idle := paired.idle idx fun _ => by simp [stands]
  have acted : ∃ actor, Actor.step (state.actors idx) (.push () item) = some actor := by
    show ∃ actor, WaitQueue.State.step Actor.tests (state.actors idx) (.push () item) = some actor
    simp only [WaitQueue.State.step, idle, free]
    exact ⟨_, rfl⟩
  obtain ⟨actor, acted⟩ := acted
  simp only [step, stands, if_neg (not_lt.mpr ended), acted]
  exact ⟨_, rfl⟩

/-- **Behind the scan, the task is pushed** as soon as the session of the actor has left the mutex. -/
theorem push_follows (paired : state.Paired) {item : Sent Unit Task} {i : ℕ} {idx : Fin (n + 1)}
    {left right : Option ℕ} (stands : state.senders () = .scanning item i idx left right)
    (ended : n + 1 ≤ i) :
    ∃ rest final, exec step state (rest ++ [.push ()]) = some final ∧ .push () ∉ rest := by
  induction remaining : toUnlock (Actor.session (state.actors idx)) using Nat.strong_induction_on
    generalizing state with
  | _ remaining ih =>
  by_cases locked : (Actor.session (state.actors idx)).locked = true
  · obtain ⟨after, acted, nearer⟩ := session_goes_on (paired.sane idx) locked
    have took : step state (.own idx .session) = some (state.setActor idx after) := by
      show (Actor.step (state.actors idx) (.work ())).map _ = _
      rw [acted]
      rfl
    have here : (state.setActor idx after).actors idx = after := Function.update_self ..
    obtain ⟨rest, final, ran, scan⟩ := ih _ (by rw [here, ← remaining]; exact nearer)
      (paired_step paired took) stands rfl
    refine ⟨.own idx .session :: rest, final, ?_, ?_⟩
    · rw [List.cons_append, exec, took]
      exact ran
    · simpa using scan
  · have free := Actor.Sane.free (paired.sane idx) (Bool.eq_false_iff.mpr locked)
    obtain ⟨final, took⟩ := push_of_free paired stands ended free
    refine ⟨[], final, ?_, List.not_mem_nil⟩
    rw [List.nil_append, exec, took]
    rfl

/-- **A scan can go on to its push**, by the sender's own steps and those of a session that has the
mutex. -/
theorem scan_ends (small : n + 1 < 2 ^ 32) (paired : state.Paired) {steps : ℕ}
    (scans : state.InScan steps) :
    ∃ rest final, exec step state (rest ++ [.push ()]) = some final ∧ .push () ∉ rest := by
  induction remaining : 3 * (n + 1) - steps generalizing state steps with
  | zero =>
      obtain ⟨item, i, idx, left, right, stands, counted, bound⟩ := scans
      have first : left.toList.length ≤ 1 := Option.length_toList_le
      have second : right.toList.length ≤ 1 := Option.length_toList_le
      exact push_follows paired stands (by omega)
  | succ remaining ih =>
      have goesOn : ∀ label, (step state label).isSome = true → label ≠ .push () →
          label.sends = true →
            ∃ rest final, exec step state (rest ++ [.push ()]) = some final ∧ .push () ∉ rest := by
        intro label enabled before sends
        obtain ⟨next, took⟩ := Option.isSome_iff_exists.mp enabled
        have later := inScan_step small scans took before
        rw [sends, if_pos rfl] at later
        obtain ⟨rest, final, ran, scan⟩ := ih (paired_step paired took) later (by omega)
        refine ⟨label :: rest, final, ?_, List.not_mem_cons_of_ne_of_not_mem (Ne.symm before) scan⟩
        rw [List.cons_append, exec, took]
        exact ran
      obtain ⟨item, i, idx, left, right, stands, counted, bound⟩ := scans
      by_cases inside : i < n + 1
      · cases left with
        | none =>
            refine goesOn (.load () .left) ?_ (by simp) rfl
            simp [step, stands, inside]
        | some left =>
            cases right with
            | none =>
                refine goesOn (.load () .right) ?_ (by simp) rfl
                simp [step, stands, inside]
            | some right =>
                refine goesOn (.test ()) ?_ (by simp) rfl
                simp [step, stands, inside]
      · exact push_follows paired stands (not_lt.mp inside)

/-! ### Every call of `send` -/

/-- A step of the sender takes nothing, and adds one task at most. -/
theorem sizes_sends (sends : label.sends = true) (took : step state label = some next)
    (idx : Fin (n + 1)) :
    state.sizes idx ≤ next.sizes idx ∧ next.sizes idx ≤ state.sizes idx + 1 := by
  have grown : ∀ {at_idx : Fin (n + 1)} {actor : Actor Unit (Sent Unit Task)}
      {more : List (Sent Unit Task)}, actor.queue = (state.actors at_idx).queue ++ more →
        more.length ≤ 1 → state.sizes idx ≤ (state.setActor at_idx actor).sizes idx ∧
          (state.setActor at_idx actor).sizes idx ≤ state.sizes idx + 1 := by
    intro at_idx actor more queue short
    refine forall_setActor (fun idx actor => state.sizes idx ≤ actor.queue.length ∧
      actor.queue.length ≤ state.sizes idx + 1) ?_ (fun other => ⟨le_rfl, Nat.le_succ _⟩) idx
    rw [queue, List.length_append]
    exact ⟨Nat.le_add_right _ _, Nat.add_le_add_left short _⟩
  cases step_turns took with
  | send | left | right | test => exact ⟨le_rfl, Nat.le_succ _⟩
  | push sender item i at_idx left right actor ended stands acted => exact grown (queue_push acted) le_rfl
  | notify sender woken at_idx actor stands acted =>
      have same := (queue_notify acted).trans (List.append_nil _).symm
      exact grown same (Nat.zero_le 1)
  | own => cases sends

/-- **Fewer than `2 ^ 32` steps of a sender fill short queues.** -/
theorem fills_of_sends {labels : List (Label n Unit Task)}
    (sends : ∀ label ∈ labels, label.sends = true)
    (short : ∀ idx, state.sizes idx + labels.length < 2 ^ 32) : Along step Fills state labels := by
  induction labels generalizing state with
  | nil => trivial
  | cons label labels ih =>
      intro next took
      have first := sends label List.mem_cons_self
      refine ⟨⟨fun idx => ?_, fun next took idx => (sizes_sends first took idx).1⟩,
        ih (fun other member => sends other (List.mem_cons_of_mem _ member)) fun idx => ?_⟩
      · exact (Nat.le_add_right _ _).trans_lt (short idx)
      · have grown := (sizes_sends first took idx).2
        have bound := short idx
        rw [List.length_cons] at bound
        omega

/-- **`send` chooses a least-loaded actor while the actors drain.** Whatever the sessions do between
the reads of the scan, the task is pushed to one actor, whose queue is then no longer than any was
when the scan began, and to the lowest such when no session takes a task; the scan comes to its push;
and sends without dequeues keep equal queues within one task of each other. -/
theorem send_least_loaded :
    (∀ (first start here : Mgr n Unit Task) (task : Task) (labels : List (Label n Unit Task)),
      first.Narrow → step first (.send () task) = some start →
      exec step start labels = some here → .push () ∉ labels →
        (∀ next, step here (.push ()) = some next →
          ∃ idx, Picked start here next (first.item () task) idx ∧
            (Along step KeepsTasks start labels →
              (∀ other, start.sizes idx ≤ start.sizes other) ∧
                ∀ other, other < idx → start.sizes idx < start.sizes other)) ∧
        (n + 1 < 2 ^ 32 → first.Paired → labels.countP Label.sends ≤ 3 * (n + 1) ∧
          ∃ rest final, exec step here (rest ++ [.push ()]) = some final ∧ .push () ∉ rest)) ∧
    ∀ (first : Mgr n Unit Task) (labels : List (Label n Unit Task)), first.senders () = .idle →
      (∀ idx other, first.sizes idx = first.sizes other) → Along step Fills first labels →
        Always step (fun state => Least.Level state.sizes) first labels := by
  constructor
  · intro first start here task labels narrow called ran scan
    have begun : start.sizes = first.sizes ∧ start.InScan 0 := by
      cases step_turns called with
      | send sender task idle =>
          exact ⟨rfl, _, 0, 0, none, none, goTo_senders first _, rfl, Nat.zero_le _⟩
    have narrowStart : start.Narrow := fun idx => begun.1 ▸ narrow idx
    constructor
    · intro next pushed
      have scanning := scanning_run called narrowStart ran scan
      obtain ⟨idx, picked, i, left, right, stands, ended⟩ := picks_least scanning pushed
      refine ⟨idx, picked, fun along => ?_⟩
      exact (undisturbed_run called narrowStart ran scan along).picks_lowest stands ended
    · intro small paired
      have scans := inScan_run small begun.2 ran scan
      rw [Nat.zero_add] at scans
      have pairedHere : here.Paired := Reachable.invariant
        (fun _ _ _ paired took => paired_step paired took) (paired_step paired called) ⟨labels, ran⟩
      obtain ⟨item, i, idx, left, right, stands, counted, bound⟩ := scans
      exact ⟨bound, scan_ends small pairedHere ⟨item, i, idx, left, right, stands, counted, bound⟩⟩
  · intro first labels idle equal along
    exact level_of_sends idle (fun idx other => (equal idx other).le.trans (Nat.le_succ _)) along

/-- The steps of a scan over two actors. -/
def scanTwo : List (Label 1 Unit ℕ) :=
  [.load () .left, .load () .right, .test (), .load () .right, .load () .left, .test ()]

/-- A send to the two actors while their sessions rest. -/
def sending (task : ℕ) : List (Label 1 Unit ℕ) :=
  .send () task :: scanTwo ++ [.push (), .notify () none]

/-- The steps of a scan in which the second actor's session takes a task, after the first test. -/
def scanDraining : List (Label 1 Unit ℕ) :=
  [.load () .left, .load () .right, .test ()] ++ List.replicate 5 (.own 1 .session) ++
    [.load () .right, .load () .left, .test ()]

/-- Three sends are dealt out in turn; the fourth goes to the actor whose queue is shorter, and which is
drained during the scan. -/
theorem send_least_loaded_draining :
    (∃ first start here next : Mgr 1 Unit ℕ,
      exec step create (sending 5 ++ sending 6 ++ sending 7) = some first ∧
      step first (.send () 8) = some start ∧ exec step start scanDraining = some here ∧
      step here (.push ()) = some next ∧ start.sizes 0 = 2 ∧ start.sizes 1 = 1 ∧ here.sizes 1 = 0 ∧
      next.routed.map Prod.fst = [0, 1, 0, 1] ∧
        ∃ idx, Picked start here next (first.item () 8) idx) ∧
      Always step (fun state : Mgr 1 Unit ℕ => Least.Level state.sizes) create
        (sending 5 ++ sending 6 ++ sending 7) := by
  have least := @send_least_loaded 1 ℕ
  have run : ∃ first start here next : Mgr 1 Unit ℕ,
      exec step create (sending 5 ++ sending 6 ++ sending 7) = some first ∧
      step first (.send () 8) = some start ∧ exec step start scanDraining = some here ∧
      step here (.push ()) = some next ∧ (first.sizes 0 = 2 ∧ first.sizes 1 = 1) ∧
      start.sizes 0 = 2 ∧ start.sizes 1 = 1 ∧ here.sizes 1 = 0 ∧
      next.routed.map Prod.fst = [0, 1, 0, 1] :=
    ⟨_, _, _, _, rfl, rfl, rfl, rfl, ⟨rfl, rfl⟩, rfl, rfl, rfl, rfl⟩
  obtain ⟨first, start, here, next, sent, called, ran, pushed, sizes, begun⟩ := run
  have narrow : first.Narrow := by
    refine Fin.forall_fin_two.mpr ⟨?_, ?_⟩
    · rw [sizes.1]
      decide
    · rw [sizes.2]
      decide
  constructor
  · have scan : .push () ∉ scanDraining := by simp [scanDraining]
    obtain ⟨idx, picked, -⟩ := (least.1 _ start here 8 _ narrow called ran scan).1 next pushed
    obtain ⟨two, one, drained, routed⟩ := begun
    exact ⟨first, start, here, next, sent, called, ran, pushed, two, one, drained, routed, idx, picked⟩
  · refine least.2 _ _ rfl (fun _ _ => rfl) (fills_of_sends ?_ fun _ => ?_)
    · simp [sending, scanTwo, Label.sends]
    · show 0 + 27 < 2 ^ 32
      decide

/-- Two idle actors, the first with one task and the second with `tasks`. -/
def loaded (first : Sent Unit ℕ) (tasks : List (Sent Unit ℕ)) : Mgr 1 Unit ℕ :=
  { (create : Mgr 1 Unit ℕ) with
    actors := fun idx => { (Actor.create : Actor Unit (Sent Unit ℕ)) with
      queue := if idx = 0 then [first] else tasks } }

/-- The second queue says that its length is 0. -/
theorem send_to_second (item : Sent Unit ℕ) {tasks : List (Sent Unit ℕ)}
    (long : tasks.length = 2 ^ 32) :
    ∃ start here next : Mgr 1 Unit ℕ, step (loaded item tasks) (.send () 8) = some start ∧
      exec step start scanTwo = some here ∧ step here (.push ()) = some next ∧
      next.routed = start.routed ++ [(1, (loaded item tasks).item () 8)] ∧
      start.actors = (loaded item tasks).actors ∧ here.actors = (loaded item tasks).actors := by
  let first := loaded item tasks
  have looks : first.load 0 = 1 ∧ first.load 1 = 0 := by
    refine ⟨rfl, ?_⟩
    show tasks.length % 2 ^ 32 = 0
    rw [long, Nat.mod_self]
  have run : ∃ start here : Mgr 1 Unit ℕ, step first (.send () 8) = some start ∧
      exec step start scanTwo = some here ∧ here.actors = first.actors ∧
      start.actors = first.actors ∧ here.routed = start.routed ∧
      here.senders () = .scanning (first.item () 8) 2
        (if first.load 1 < first.load (if first.load 0 < first.load 0 then 0 else 0) then 1
        else if first.load 0 < first.load 0 then 0 else 0) none none :=
    ⟨_, _, rfl, rfl, rfl, rfl, rfl, rfl⟩
  obtain ⟨start, here, called, ran, actors, actorsToo, routed, stands⟩ := run
  rw [looks.1, looks.2, if_neg (lt_irrefl 1), looks.1, if_pos Nat.zero_lt_one] at stands
  have acted : ∃ actor, Actor.step (here.actors 1) (.push () (first.item () 8)) = some actor := by
    rw [actors]
    exact ⟨_, rfl⟩
  obtain ⟨actor, acted⟩ := acted
  refine ⟨start, here, { (here.setActor 1 actor).goTo () (.notifying 1) with
    routed := here.routed ++ [(1, first.item () 8)] }, called, ran, ?_, ?_, actorsToo, actors⟩
  · simp only [step, stands, acted]
    rfl
  · rw [← routed]

/-- **A queue of `2 ^ 32` tasks looks empty**: `send` chooses it, though the other has one task. -/
theorem longest_looks_empty :
    ∃ (first start here next : Mgr 1 Unit ℕ) (idx other : Fin 2),
      step first (.send () 8) = some start ∧ exec step start scanTwo = some here ∧
        step here (.push ()) = some next ∧
        next.routed = start.routed ++ [(idx, first.item () 8)] ∧
        start.sizes other < here.sizes idx := by
  let item : Sent Unit ℕ := { sender := (), task := 7, call := 0, behind := 0 }
  obtain ⟨start, here, next, called, ran, pushed, routed, first, second⟩ :=
    send_to_second item (List.length_replicate : (List.replicate (2 ^ 32) item).length = 2 ^ 32)
  refine ⟨_, start, here, next, 1, 0, called, ran, pushed, routed, ?_⟩
  unfold sizes
  rw [first, second]
  show 1 < (List.replicate (2 ^ 32) item).length
  rw [List.length_replicate]
  decide

end Mgr

end IkunSvr
