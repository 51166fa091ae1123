/-
**`send` while the actors register.**

`mgr::create` returns before its thread has done anything, so `_actors[def]`, which `send` scans, may
be empty, or grow while it is scanned. `Registry` is any number of threads of `create` (`Creation`),
the queues of their actors, and any number of threads in `send`; a sender that accesses
`_actors[def]` outside the vector is `outside`.

* `Fits` — an index that the scan has chosen is that of an actor, or still 0;
* `inside_step_iff` — a step leads outside exactly when it dispatches with no actor registered;
* `sends_inside_iff` — **every access of `send` is inside the vector exactly when no thread comes to
  dispatch before an actor is registered**;
* `inside_of_registered` — from the first registration on, every access is;
* `send_before_registration` — one thread of `create`, and a `send` that is faster.
-/

import IkunSvr.Actor.Create
import IkunSvr.Actor.Mgr

namespace IkunSvr

open Run

namespace Registry

/-! ### Senders -/

/-- Where a thread is that calls `send`. -/
inductive ScanPc (Task : Type*)
  | idle
  /-- before the test `i < _actors[def].size()` -/
  | heading (task : Task) (i idx : ℕ)
  /-- in the body of the loop, with what it has read of the two loads -/
  | comparing (task : Task) (i idx : ℕ) (left right : Option ℕ)
  /-- behind the loop -/
  | leaving (task : Task) (idx : ℕ)
  /-- it has accessed `_actors[def]` outside the vector: nothing is said about it -/
  | outside (task : Task)
  deriving DecidableEq, Repr

namespace ScanPc

variable {Task : Type*}

/-- What the thread is sending and has not dispatched. -/
def pending : ScanPc Task → List Task
  | .idle => []
  | .heading task _ _ | .comparing task _ _ _ _ | .leaving task _ | .outside task => [task]

/-- The thread has accessed the vector outside. -/
def strayed : ScanPc Task → Bool
  | .outside _ => true
  | .idle | .heading .. | .comparing .. | .leaving .. => false

end ScanPc

/-- A step of some thread. -/
inductive Label (count : ℕ) (Sender Task : Type*)
  /-- a thread of `create` -/
  | create (thread : Fin count)
  /-- the session that the thread of `create` runs takes a task -/
  | deal (thread : Fin count)
  | send (sender : Sender) (task : Task)
  /-- the test of the loop -/
  | head (sender : Sender)
  | load (sender : Sender) (side : Mgr.Side)
  /-- the comparison of the two loads, and `++i` -/
  | test (sender : Sender)
  /-- `_actors[def][idx]->dispatch` -/
  | dispatch (sender : Sender)

/-- The step is the `dispatch` of a `send`. -/
def Label.dispatches {count : ℕ} {Sender Task : Type*} : Label count Sender Task → Bool
  | .dispatch _ => true
  | .create _ | .deal _ | .send .. | .head _ | .load .. | .test _ => false

end Registry

/-- The threads of `create`, the queues of their actors, each named by the thread that made it, and
the threads that call `send`, with the history of the calls. -/
structure Registry (count : ℕ) (Sender Task : Type*) where
  creation : Creation count
  queues : Fin count → List Task
  senders : Sender → Registry.ScanPc Task
  /-- in the order of the calls -/
  sent : List (Sender × Task) := []
  /-- in the order dispatched, each with the actor it went to -/
  dispatched : List (Sender × Task × Fin count) := []

namespace Registry

variable {count : ℕ} {Sender Task : Type*}

/-- Every call of `create` has returned, and no thread has taken a step. -/
def created : Registry count Sender Task where
  creation := Creation.create
  queues := fun _ => []
  senders := fun _ => .idle

/-- `_actors[def]`. -/
abbrev actors (state : Registry count Sender Task) : List (Fin count) :=
  state.creation.actors

/-- `load()` of an actor, a `uint32_t`. -/
def load (state : Registry count Sender Task) (actor : Fin count) : ℕ :=
  (state.queues actor).length % 2 ^ 32

section Step

variable [DecidableEq Sender]

/-- The sender goes on to `pc`. -/
def goTo (state : Registry count Sender Task) (sender : Sender) (pc : ScanPc Task) :
    Registry count Sender Task :=
  { state with senders := Function.update state.senders sender pc }

/-- The queue of an actor is `queue` from now on. -/
def setQueue (state : Registry count Sender Task) (actor : Fin count) (queue : List Task) :
    Registry count Sender Task :=
  { state with queues := Function.update state.queues actor queue }

/-- A step. -/
def step (state : Registry count Sender Task) :
    Label count Sender Task → Option (Registry count Sender Task)
  | .create thread =>
      (state.creation.step thread).map fun creation => { state with creation := creation }
  | .deal thread =>
      match state.creation.threads thread with
      | .started idx =>
          match state.actors[idx]? with
          | some actor =>
              match state.queues actor with
              | _ :: rest => some (state.setQueue actor rest)
              | [] => none
          | none => none
      | _ => none
  | .send sender task =>
      match state.senders sender with
      | .idle => some { state.goTo sender (.heading task 0 0) with
          sent := state.sent ++ [(sender, task)] }
      | _ => none
  | .head sender =>
      match state.senders sender with
      | .heading task i idx => some (state.goTo sender
          (if i < state.actors.length then .comparing task i idx none none
          else .leaving task idx))
      | _ => none
  | .load sender side =>
      match state.senders sender with
      | .comparing task i idx left right =>
          match side, left, right with
          | .left, none, _ => some (state.goTo sender
              (match state.actors[i]? with
              | some actor => .comparing task i idx (state.load actor) right
              | none => .outside task))
          | .right, _, none => some (state.goTo sender
              (match state.actors[idx]? with
              | some actor => .comparing task i idx left (state.load actor)
              | none => .outside task))
          | _, _, _ => none
      | _ => none
  | .test sender =>
      match state.senders sender with
      | .comparing task i idx (some left) (some right) =>
          -- `i` is a `uint32_t`
          some (state.goTo sender
            (.heading task ((i + 1) % 2 ^ 32) (if left < right then i else idx)))
      | _ => none
  | .dispatch sender =>
      match state.senders sender with
      | .leaving task idx =>
          match state.actors[idx]? with
          | some actor =>
              some { (state.setQueue actor (state.queues actor ++ [task])).goTo sender .idle with
                dispatched := state.dispatched ++ [(sender, task, actor)] }
          | none => some (state.goTo sender (.outside task))
      | _ => none

/-! ### Sends that reach an actor -/

/-- The tasks of the calls of a thread, in the order of the calls. -/
def sentBy (state : Registry count Sender Task) (sender : Sender) : List Task :=
  (state.sent.filter fun call => call.1 = sender).map Prod.snd

/-- The tasks a thread has dispatched, in order. -/
def dispatchedBy (state : Registry count Sender Task) (sender : Sender) : List Task :=
  (state.dispatched.filter fun entry => entry.1 = sender).map fun entry => entry.2.1

/-- No thread has accessed `_actors[def]` outside the vector, what has been dispatched went to
registered actors, and each thread's tasks have been dispatched, in order, but for the one it is
sending. -/
structure Inside (state : Registry count Sender Task) : Prop where
  within : ∀ sender, (state.senders sender).strayed = false
  registered : ∀ entry ∈ state.dispatched, entry.2.2 ∈ state.actors
  each : ∀ sender,
    state.sentBy sender = state.dispatchedBy sender ++ (state.senders sender).pending

/-- A `send` comes to dispatch only when a thread of `create` has done its `push_back`. -/
def Registered (state : Registry count Sender Task) (label : Label count Sender Task) : Prop :=
  label.dispatches = true → ∃ thread, (state.creation.threads thread).registered = true

/-! ### What a step does -/

/-- A sender goes on, with `size` actors registered: where it is, and where it goes. -/
inductive Moves (size : ℕ) : ScanPc Task → ScanPc Task → Prop
  | enter (task : Task) (i idx : ℕ) (inside : i < size) :
      Moves size (.heading task i idx) (.comparing task i idx none none)
  | leave (task : Task) (i idx : ℕ) : Moves size (.heading task i idx) (.leaving task idx)
  | read (task : Task) (i idx : ℕ) (left right leftToo rightToo : Option ℕ) :
      Moves size (.comparing task i idx left right) (.comparing task i idx leftToo rightToo)
  | stray (task : Task) (i idx : ℕ) (left right : Option ℕ) (outside : size ≤ i ∨ size ≤ idx) :
      Moves size (.comparing task i idx left right) (.outside task)
  | test (task : Task) (i idx later chosen : ℕ) (left right : Option ℕ)
      (either : chosen = i ∨ chosen = idx) :
      Moves size (.comparing task i idx left right) (.heading task later chosen)

/-- What a step does. -/
inductive Acts (state : Registry count Sender Task) :
    Label count Sender Task → Registry count Sender Task → Prop
  | create (thread : Fin count) (creation : Creation count)
      (took : state.creation.step thread = some creation) :
      Acts state (.create thread) { state with creation := creation }
  | deal (thread actor : Fin count) (queue : List Task) :
      Acts state (.deal thread) (state.setQueue actor queue)
  | send (sender : Sender) (task : Task) (idle : state.senders sender = .idle) :
      Acts state (.send sender task) { state.goTo sender (.heading task 0 0) with
        sent := state.sent ++ [(sender, task)] }
  | scan (label : Label count Sender Task) (sender : Sender) (here pc : ScanPc Task)
      (quiet : label.dispatches = false) (stands : state.senders sender = here)
      (moves : Moves state.actors.length here pc) : Acts state label (state.goTo sender pc)
  | dispatch (sender : Sender) (task : Task) (idx : ℕ) (actor : Fin count)
      (stands : state.senders sender = .leaving task idx) (found : state.actors[idx]? = some actor) :
      Acts state (.dispatch sender)
        { (state.setQueue actor (state.queues actor ++ [task])).goTo sender .idle with
          dispatched := state.dispatched ++ [(sender, task, actor)] }
  | miss (sender : Sender) (task : Task) (idx : ℕ)
      (stands : state.senders sender = .leaving task idx) (missing : state.actors[idx]? = none) :
      Acts state (.dispatch sender) (state.goTo sender (.outside task))

variable {state next : Registry count Sender Task} {label : Label count Sender Task}

/-- **What a step of the system does.** -/
theorem step_acts (took : state.step label = some next) : Acts state label next := by
  cases label with
  | create thread =>
      obtain ⟨creation, tookToo, rfl⟩ := Option.map_eq_some_iff.mp took
      exact .create thread creation tookToo
  | deal thread =>
      simp only [step] at took
      repeat' split at took
      all_goals cases took
      exact .deal thread _ _
  | send sender task =>
      simp only [step] at took
      split at took
      next idle =>
        cases took
        exact .send sender task idle
      next => cases took
  | head sender =>
      simp only [step] at took
      split at took
      next task i idx stands =>
        cases took
        refine .scan _ sender _ _ rfl stands ?_
        split
        next inside => exact .enter task i idx inside
        next => exact .leave task i idx
      next => cases took
  | load sender side =>
      simp only [step] at took
      split at took
      next task i idx left right stands =>
        split at took
        next =>
          cases took
          refine .scan _ sender _ _ rfl stands ?_
          split
          next => exact .read task i idx _ _ _ _
          next missing => exact .stray task i idx _ _ (.inl (List.getElem?_eq_none_iff.mp missing))
        next =>
          cases took
          refine .scan _ sender _ _ rfl stands ?_
          split
          next => exact .read task i idx _ _ _ _
          next missing => exact .stray task i idx _ _ (.inr (List.getElem?_eq_none_iff.mp missing))
        next => cases took
      next => cases took
  | test sender =>
      simp only [step] at took
      split at took
      next task i idx left right stands =>
        cases took
        refine .scan _ sender _ _ rfl stands (.test task i idx _ _ _ _ ?_)
        split
        next => exact .inl rfl
        next => exact .inr rfl
      next => cases took
  | dispatch sender =>
      simp only [step] at took
      split at took
      next task idx stands =>
        split at took
        next actor found =>
          cases took
          exact .dispatch sender task idx actor stands found
        next missing =>
          cases took
          exact .miss sender task idx stands missing
      next => cases took

/-! ### What holds in every state -/

/-- An index that a scan has chosen is that of an actor, or still 0; in the body of the loop there is
an actor, so both indices are those of actors. -/
def Fits (size : ℕ) : ScanPc Task → Prop
  | .heading _ _ idx | .leaving _ idx => idx = 0 ∨ idx < size
  | .comparing _ i idx _ _ => i < size ∧ idx < size
  | .idle | .outside _ => True

omit [DecidableEq Sender] in
theorem Fits.mono {size more : ℕ} (le : size ≤ more) {pc : ScanPc Task} (fits : Fits size pc) :
    Fits more pc := by
  cases pc with
  | idle => trivial
  | outside task => trivial
  | comparing task i idx left right =>
      exact ⟨fits.1.trans_le le, fits.2.trans_le le⟩
  | heading task i idx =>
      rcases fits with zero | inside
      · exact .inl zero
      · exact .inr (inside.trans_le le)
  | leaving task idx =>
      rcases fits with zero | inside
      · exact .inl zero
      · exact .inr (inside.trans_le le)

theorem Moves.pending {size : ℕ} {here pc : ScanPc Task} (moves : Moves size here pc) :
    pc.pending = here.pending := by
  cases moves <;> rfl

/-- **A scan stays inside the vector**, and its index that of an actor. -/
theorem Moves.fits {size : ℕ} {here pc : ScanPc Task} (moves : Moves size here pc)
    (fits : Fits size here) : Fits size pc ∧ pc.strayed = false := by
  cases moves with
  | enter task i idx inside =>
      have within : idx < size := by
        rcases fits with zero | within
        · omega
        · exact within
      exact ⟨⟨inside, within⟩, rfl⟩
  | leave task i idx => exact ⟨fits, rfl⟩
  | read task i idx left right leftToo rightToo => exact ⟨fits, rfl⟩
  | stray task i idx left right outside =>
      obtain ⟨first, second⟩ := fits
      omega
  | test task i idx later chosen left right either =>
      obtain ⟨first, second⟩ := fits
      refine ⟨.inr ?_, rfl⟩
      rcases either with rfl | rfl
      · exact first
      · exact second

/-- The threads of `create` keep their bookkeeping, and the scans are inside. -/
structure Scans (state : Registry count Sender Task) : Prop where
  grows : state.creation.Grows
  fits : ∀ sender, Fits state.actors.length (state.senders sender)

omit [DecidableEq Sender] in
theorem scans_created : (created : Registry count Sender Task).Scans where
  grows := Creation.grows_create
  fits := fun _ => trivial

omit [DecidableEq Sender] in
/-- Whoever is registered stays so, and in place. -/
theorem actors_grow {creation after : Creation count} {thread : Fin count}
    (took : creation.step thread = some after) : creation.actors <+: after.actors := by
  rcases Creation.step_cases took with ⟨-, rfl⟩ | ⟨pc, rfl, -⟩
  · exact List.prefix_append _ _
  · exact List.prefix_rfl

/-- What holds of all senders holds when one of them has gone on. -/
theorem forall_goTo (holds : Sender → ScanPc Task → Prop) {sender : Sender} {pc : ScanPc Task}
    (moved : holds sender pc) (stay : ∀ other, holds other (state.senders other)) (other : Sender) :
    holds other ((state.goTo sender pc).senders other) :=
  (Function.forall_update_iff state.senders holds).mpr ⟨moved, fun other _ => stay other⟩ other

/-- **Every step keeps the bookkeeping.** -/
theorem scans_step (scans : state.Scans) (took : state.step label = some next) : next.Scans := by
  cases step_acts took with
  | create thread creation tookToo =>
      have longer := (actors_grow tookToo).length_le
      exact ⟨Creation.grows_step scans.grows tookToo, fun sender => (scans.fits sender).mono longer⟩
  | deal thread actor queue => exact ⟨scans.grows, scans.fits⟩
  | send sender task idle => exact ⟨scans.grows, forall_goTo (fun _ => Fits _) (.inl rfl) scans.fits⟩
  | scan label sender here pc quiet stands moves =>
      have fits := (moves.fits (stands ▸ scans.fits sender)).1
      exact ⟨scans.grows, forall_goTo (fun _ => Fits _) fits scans.fits⟩
  | dispatch sender task idx actor stands found =>
      exact ⟨scans.grows, forall_goTo (fun _ => Fits _) trivial scans.fits⟩
  | miss sender task idx stands missing => exact ⟨scans.grows, forall_goTo (fun _ => Fits _) trivial scans.fits⟩

omit [DecidableEq Sender] in
theorem Scans.registered_iff (scans : state.Scans) :
    (∃ thread, (state.creation.threads thread).registered = true) ↔ state.actors ≠ [] := by
  constructor
  · rintro ⟨thread, registered⟩ empty
    have member := (scans.grows.member thread).mpr registered
    simp [show state.creation.actors = [] from empty] at member
  · intro filled
    obtain ⟨thread, member⟩ := List.exists_mem_of_ne_nil _ filled
    exact ⟨thread, (scans.grows.member thread).mp member⟩

/-! ### One step -/

/-- A sender goes on with what it was sending, inside. -/
theorem Inside.scan (inside : state.Inside) {sender : Sender} {pc : ScanPc Task}
    (within : pc.strayed = false) (same : pc.pending = (state.senders sender).pending) :
    (state.goTo sender pc).Inside where
  within := forall_goTo (fun _ pc => pc.strayed = false) within inside.within
  registered := inside.registered
  each := forall_goTo
    (fun other pc => state.sentBy other = state.dispatchedBy other ++ pc.pending)
    (by rw [same]; exact inside.each sender) inside.each

/-- A call of `send` leaves the others' calls. -/
theorem sentBy_append (sender other : Sender) (task : Task) :
    ((state.sent ++ [(sender, task)]).filter fun call => call.1 = other).map Prod.snd =
      state.sentBy other ++ if sender = other then [task] else [] := by
  rw [List.filter_append, List.map_append]
  by_cases same : sender = other <;> simp [sentBy, same]

theorem dispatchedBy_append (sender other : Sender) (task : Task) (actor : Fin count) :
    ((state.dispatched ++ [(sender, task, actor)]).filter fun entry => entry.1 = other).map
        (fun entry => entry.2.1) =
      state.dispatchedBy other ++ if sender = other then [task] else [] := by
  rw [List.filter_append, List.map_append]
  by_cases same : sender = other <;> simp [dispatchedBy, same]

theorem Inside.send (inside : state.Inside) {sender : Sender} (task : Task)
    (idle : state.senders sender = .idle) :
    Inside { state.goTo sender (.heading task 0 0) with sent := state.sent ++ [(sender, task)] } where
  within := forall_goTo (fun _ pc => pc.strayed = false) rfl inside.within
  registered := inside.registered
  each := by
    intro other
    show ((state.sent ++ [(sender, task)]).filter fun call => call.1 = other).map Prod.snd =
      state.dispatchedBy other ++
        (Function.update state.senders sender (.heading task 0 0) other).pending
    rw [sentBy_append, inside.each other]
    by_cases here : other = sender
    · subst here
      rw [idle, Function.update_self, if_pos rfl]
      simp [ScanPc.pending]
    · rw [Function.update_of_ne here, if_neg (Ne.symm here), List.append_nil]

/-- A task goes to a registered actor. -/
theorem Inside.dispatch (inside : state.Inside) {sender : Sender} {task : Task} {actor : Fin count}
    (pending : (state.senders sender).pending = [task]) (member : actor ∈ state.actors)
    (queue : List Task) :
    Inside { (state.setQueue actor queue).goTo sender .idle with
      dispatched := state.dispatched ++ [(sender, task, actor)] } where
  within := forall_goTo (fun _ pc => pc.strayed = false) rfl inside.within
  registered := by
    intro entry entered
    rcases List.mem_append.mp entered with before | last
    · exact inside.registered entry before
    · rw [List.mem_singleton.mp last]
      exact member
  each := by
    intro other
    show state.sentBy other =
      ((state.dispatched ++ [(sender, task, actor)]).filter fun entry => entry.1 = other).map
          (fun entry => entry.2.1) ++
        (Function.update state.senders sender .idle other).pending
    rw [dispatchedBy_append, inside.each other]
    by_cases here : other = sender
    · subst here
      rw [pending, Function.update_self, if_pos rfl]
      simp [ScanPc.pending]
    · rw [Function.update_of_ne here, if_neg (Ne.symm here), List.append_nil]

/-- **A step leads outside exactly when it dispatches with no actor registered.** -/
theorem inside_step_iff (scans : state.Scans) (inside : state.Inside)
    (took : state.step label = some next) : next.Inside ↔ Registered state label := by
  cases step_acts took with
  | create thread creation tookToo =>
      refine iff_of_true ⟨inside.within, fun entry member => ?_, inside.each⟩ nofun
      exact (actors_grow tookToo).subset (inside.registered entry member)
  | deal thread actor queue =>
      exact iff_of_true ⟨inside.within, inside.registered, inside.each⟩ nofun
  | send sender task idle => exact iff_of_true (inside.send task idle) nofun
  | scan label sender here pc quiet stands moves =>
      refine iff_of_true (inside.scan ?_ ?_) fun dispatches => ?_
      · exact (moves.fits (stands ▸ scans.fits sender)).2
      · rw [moves.pending, stands]
      · simp [quiet] at dispatches
  | dispatch sender task idx actor stands found =>
      have member : actor ∈ state.actors := List.mem_of_getElem? found
      have pending : (state.senders sender).pending = [task] := by rw [stands]; rfl
      refine iff_of_true (inside.dispatch pending member _) fun _ => ?_
      exact scans.registered_iff.mpr (List.ne_nil_of_mem member)
  | miss sender task idx stands missing =>
      refine iff_of_false (fun later => ?_) fun registered => ?_
      · have within := later.within sender
        change (Function.update state.senders sender (.outside task) sender).strayed = false at within
        simp [ScanPc.strayed] at within
      · have filled := List.length_pos_iff.mpr (scans.registered_iff.mp (registered rfl))
        have fits : Fits state.actors.length (.leaving task idx) := stands ▸ scans.fits sender
        have beyond : state.actors.length ≤ idx := List.getElem?_eq_none_iff.mp missing
        -- the scan has left `idx` at 0, or found an actor
        rcases fits with zero | within <;> omega

/-! ### Runs -/

theorem inside_created : (created : Registry count Sender Task).Inside where
  within := fun _ => rfl
  registered := nofun
  each := fun _ => rfl

/-- A registered actor stays registered, so that later calls find one. -/
theorem registered_stays (filled : state.actors ≠ []) (took : state.step label = some next) :
    next.actors ≠ [] := by
  cases step_acts took with
  | create thread creation tookToo =>
      intro empty
      exact filled (List.prefix_nil.mp (empty ▸ actors_grow tookToo))
  | deal | send | scan | dispatch | miss => exact filled

/-- **From the first registration on, `send` stays inside**, however the other threads of `create`
register during its scans. -/
theorem inside_of_registered (scans : state.Scans) (inside : state.Inside)
    (registered : state.actors ≠ []) (labels : List (Label count Sender Task)) :
    Always step Inside state labels := by
  have kept : ∀ (state : Registry count Sender Task) (label : Label count Sender Task)
      (next : Registry count Sender Task), state.Scans ∧ state.Inside ∧ state.actors ≠ [] →
        state.step label = some next → next.Scans ∧ next.Inside ∧ next.actors ≠ [] := by
    rintro state label next ⟨scans, inside, filled⟩ took
    refine ⟨scans_step scans took, ?_, registered_stays filled took⟩
    exact (inside_step_iff scans inside took).mpr fun _ => scans.registered_iff.mpr filled
  exact (always_of_step kept ⟨scans, inside, registered⟩ labels).mono fun _ all => all.2.1

/-- **`send` never leaves the vector exactly when it never comes to dispatch before an actor is
registered.** In every run of any number of threads of `create` that `create` has returned from, of
their sessions and of any number of threads in `send`. -/
theorem sends_inside_iff (labels : List (Label count Sender Task)) :
    Always step Inside created labels ↔ Along step Registered created labels :=
  always_iff_along_within (fun _ _ _ scans took => scans_step scans took)
    (fun _ _ _ scans inside took => inside_step_iff scans inside took) scans_created inside_created

/-- **`create` has returned, and `send` is faster than its thread**: it accesses the first element of
an empty vector. -/
theorem send_before_registration :
    ¬ Always step Inside (created : Registry 1 Unit ℕ) [.send () 1000, .head (), .dispatch ()] := by
  have run : ∃ final : Registry 1 Unit ℕ,
      exec step created [.send () 1000, .head (), .dispatch ()] = some final ∧
        final.senders () = .outside 1000 :=
    ⟨_, rfl, rfl⟩
  obtain ⟨final, ran, outside⟩ := run
  intro always
  have within := (always.last ran).within ()
  simp [outside, ScanPc.strayed] at within

end Step

end Registry

end IkunSvr
