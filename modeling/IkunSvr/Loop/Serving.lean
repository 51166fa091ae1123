/-
**An event loop runs what it is given.**

`shut_down` is not called, and no channel but the eventfd's has events any more. The loop's thread goes
on, and so do the threads that have still to call `weakup`.

* `measure_step` — every step of theirs lowers what is still to do;
* `Rests.still` — where none of them can take a step the loop's thread is in `epoll_wait`, and the
  eventfd has nothing to report;
* `every_task_run` — **they come to rest, and then every task added has been run, in order**.
-/

import IkunSvr.Loop.Wakeup
import Mathlib.Data.Fintype.Basic

namespace IkunSvr

open Run

namespace WakeLoop

/-- A step of the loop's thread, a write to the eventfd that is to come, or `epoll_wait` that returns
the eventfd alone. -/
def Label.goes {Client Task : Type*} : Label Client Task → Bool
  | .run | .weakup _ => true
  | .fetch reported => reported.map Prod.fst = [.weak]
  | .add .. | .shutDown _ => false

/-- The thread whose step it is, if it is in a call. -/
def Label.caller {Client Task : Type*} : Label Client Task → Option Client
  | .add client _ | .shutDown client | .weakup client => some client
  | .fetch _ | .run => none

namespace RunPc

/-- How many steps the loop's thread can take before it is in `epoll_wait`, if there are no tasks. -/
def steps : RunPc → ℕ
  | .waiting | .returned => 0
  | .top => 1
  | .dispatching chnls => 2 + 4 * chnls.length
  | .draining chnls => 3 + 4 * chnls.length
  | .locking chnls => 4 + 4 * chnls.length
  | .reading chnls => 5 + 4 * chnls.length

/-- The loop's thread has the eventfd among the channels it has yet to handle, or is about to read
it. -/
def reads : RunPc → Bool
  | .dispatching chnls => chnls.any fun ev => decide (ev.1 = .weak ∧ handleEvent ev.2 = .read)
  | .reading _ => true
  | .top | .waiting | .locking _ | .draining _ | .returned => false

end RunPc

/-- Whether the thread has still to call `weakup`. -/
def CallPc.calls : CallPc → ℕ
  | .idle => 0
  | .added | .stored => 1

variable {Client Task : Type*}

/-- The eventfd has been written, and there is no read of it to come in the batch at hand. -/
def Alarmed (state : WakeLoop Client Task) : Prop :=
  0 < state.counter ∧ state.loop.reads = false

instance (state : WakeLoop Client Task) : Decidable state.Alarmed :=
  inferInstanceAs (Decidable (_ ∧ _))

/-- What is still to do: a write pays for the batch it brings about, which runs up to its read. -/
def measure [Fintype Client] (state : WakeLoop Client Task) : ℕ :=
  state.loop.steps + state.tasks.length + (if state.Alarmed then 7 else 0) +
    8 * ∑ client, (state.callers client).calls

section Step

variable [DecidableEq Client] {state next : WakeLoop Client Task} {label : Label Client Task}

/-- Neither the loop's thread nor a `weakup` can take a step, and the eventfd does not wake
`epoll_wait`. -/
def Rests (state : WakeLoop Client Task) : Prop :=
  Run.Rests step Label.goes state

/-! ### What is still to do -/

section Measure

variable [Fintype Client]

omit [DecidableEq Client] in
/-- A step of the loop's thread that leaves the tasks and the callers alone costs what it is worth, if
it brings no alarm. -/
theorem measure_turn {pc : RunPc} {counter : ℕ} (fewer : pc.steps < state.loop.steps)
    (quiet : 0 < counter → pc.reads = false → state.Alarmed) :
    measure { state with loop := pc, counter := counter } < state.measure := by
  have alarm : (if Alarmed { state with loop := pc, counter := counter } then 7 else 0) ≤
      if state.Alarmed then 7 else 0 := by
    split
    next alarmed => rw [if_pos (quiet alarmed.1 alarmed.2)]
    next => exact Nat.zero_le _
  show pc.steps + state.tasks.length +
    (if Alarmed { state with loop := pc, counter := counter } then 7 else 0) +
      8 * ∑ client, (state.callers client).calls < state.measure
  unfold measure
  omega

omit [DecidableEq Client] in
/-- **A step of the loop's thread lowers the measure.** -/
theorem measure_run (took : state.run = some next) : next.measure < state.measure := by
  have alarmed : state.loop.reads = false → 0 < state.counter → state.Alarmed :=
    fun calm written => ⟨written, calm⟩
  unfold run at took
  split at took
  next here =>
    cases took
    refine measure_turn ?_ fun written _ => alarmed (by rw [here]; rfl) written
    rw [here]
    split <;> simp [RunPc.steps]
  next => cases took
  next here =>
    cases took
    refine measure_turn ?_ fun written _ => alarmed (by rw [here]; rfl) written
    simp [here, RunPc.steps]
  next chnl revs rest here =>
    cases took
    split
    next => exact measure_turn (by simp [here, RunPc.steps]; omega) nofun
    next skips =>
      refine measure_turn (by simp [here, RunPc.steps]) fun written calm => alarmed ?_ written
      rw [here]
      simp only [RunPc.reads, List.any_cons] at calm ⊢
      rw [calm, Bool.or_false, decide_eq_false skips]
  next here =>
    cases took
    exact measure_turn (by simp [here, RunPc.steps]) fun written => absurd written (Nat.lt_irrefl 0)
  next here =>
    cases took
    exact measure_turn (by simp [here, RunPc.steps]) fun written _ => alarmed (by rw [here]; rfl) written
  next rest here =>
    split at took
    next =>
      cases took
      exact measure_turn (by simp [here, RunPc.steps]) fun written _ =>
        alarmed (by rw [here]; rfl) written
    next task tasks front =>
      cases took
      show state.loop.steps + tasks.length + (if state.Alarmed then 7 else 0) +
        8 * ∑ client, (state.callers client).calls < state.measure
      unfold measure
      rw [front, List.length_cons]
      omega
  next => cases took

omit [DecidableEq Client] in
/-- A thread begins a call. -/
theorem calls_update [DecidableEq Client] {client : Client} {pc : CallPc}
    (idle : state.callers client = .idle) :
    (∑ other, (Function.update state.callers client pc other).calls) =
      (∑ other, (state.callers other).calls) + pc.calls := by
  have share := sum_update CallPc.calls state.callers client pc
  rwa [idle, show CallPc.calls .idle = 0 from rfl, add_zero] at share

/-- What a task costs that is added, its `weakup` included. -/
theorem measure_add {client : Client} {task : Task}
    (took : state.step (.add client task) = some next) : next.measure = state.measure + 9 := by
  simp only [step] at took
  split at took
  next free =>
    cases took
    show state.loop.steps + (state.tasks ++ [task]).length + (if state.Alarmed then 7 else 0) +
      8 * (∑ other, (Function.update state.callers client .added other).calls) = state.measure + 9
    rw [calls_update free.1, show CallPc.calls .added = 1 from rfl, List.length_append,
      List.length_singleton]
    unfold measure
    omega
  next => cases took

/-- What a call of `shut_down` costs, its `weakup` included. -/
theorem measure_shutDown {client : Client} (took : state.step (.shutDown client) = some next) :
    next.measure = state.measure + 8 := by
  simp only [step] at took
  split at took
  next idle =>
    cases took
    show state.loop.steps + state.tasks.length + (if state.Alarmed then 7 else 0) +
      8 * (∑ other, (Function.update state.callers client .stored other).calls) = state.measure + 8
    rw [calls_update idle, show CallPc.calls .stored = 1 from rfl]
    unfold measure
    omega
  next => cases took

/-- **Every step of those that go on lowers the measure.** -/
theorem measure_step (goes : label.goes = true) (took : state.step label = some next) :
    next.measure < state.measure := by
  cases label with
  | run => exact measure_run took
  | weakup client =>
      simp only [step] at took
      split at took
      next => cases took
      next called =>
        cases took
        have share := sum_update CallPc.calls state.callers client .idle
        have due : (state.callers client).calls = 1 := by
          cases stands : state.callers client with
          | idle => exact absurd stands called
          | added | stored => rfl
        rw [due, show CallPc.calls .idle = 0 from rfl] at share
        have alarm : (if (state.ring client).Alarmed then 7 else 0) ≤ 7 := by
          split <;> omega
        show state.loop.steps + state.tasks.length +
          (if (state.ring client).Alarmed then 7 else 0) +
            8 * (∑ other, (Function.update state.callers client .idle other).calls) < state.measure
        unfold measure
        omega
  | fetch reported =>
      simp only [step] at took
      split at took
      next returns =>
        cases took
        obtain ⟨waiting, -, -, -, faithful, -⟩ := returns
        obtain ⟨ev, rfl, weak⟩ := List.map_eq_singleton_iff.mp (of_decide_eq_true goes)
        obtain ⟨mask, readable⟩ := faithful ev (List.mem_singleton_self ev) weak
        have alarmed : state.Alarmed := ⟨readable.2.1, by rw [waiting]; rfl⟩
        have reading : RunPc.reads (.dispatching (Poller.loop [ev])) = true := by
          simp only [RunPc.reads, Poller.loop, List.map_cons, List.map_nil, List.any_cons, weak, mask]
          decide
        show RunPc.steps (.dispatching (Poller.loop [ev])) + state.tasks.length +
          (if 0 < state.counter ∧ RunPc.reads (.dispatching (Poller.loop [ev])) = false
            then 7 else 0) + 8 * (∑ client, (state.callers client).calls) < state.measure
        unfold measure
        rw [if_pos alarmed, waiting, reading]
        simp only [RunPc.steps, Poller.loop, List.map_cons, List.map_nil, List.length_singleton]
        simp only [Bool.true_eq_false, and_false, if_false]
        omega
      next => cases took
  | add | shutDown => cases goes

end Measure

/-! ### Rest -/

/-- Nobody but the caller itself moves a caller. -/
theorem callers_step (took : state.step label = some next) :
    next.callers = match label with
      | .add client _ => Function.update state.callers client .added
      | .shutDown client => Function.update state.callers client .stored
      | .weakup client => Function.update state.callers client .idle
      | .fetch _ | .run => state.callers := by
  cases label with
  | run =>
      change state.run = some next at took
      unfold run at took
      repeat' split at took
      all_goals cases took
      all_goals rfl
  | add | shutDown | weakup | fetch =>
      simp only [step] at took
      split at took <;> cases took
      rfl

/-- Another's step does not move a caller. -/
theorem callers_apart {client : Client} (took : state.step label = some next)
    (apart : label.caller ≠ some client) : next.callers client = state.callers client := by
  rw [callers_step took]
  cases label with
  | add other | shutDown other | weakup other =>
      exact Function.update_of_ne (fun same => apart (by rw [same]; rfl)) _ _
  | fetch | run => rfl

/-- A call does not move the loop's thread. -/
theorem loop_apart (took : state.step label = some next) (calls : label.caller ≠ none) :
    next.loop = state.loop := by
  cases label with
  | add | shutDown | weakup =>
      simp only [step] at took
      split at took <;> cases took
      rfl
  | fetch | run => exact absurd rfl calls

/-- Once `run` has returned it is over. -/
theorem returned_step (returned : state.loop = .returned) (took : state.step label = some next) :
    next.loop = .returned := by
  by_cases calls : label.caller = none
  · cases label with
    | run => simp [step, run, returned] at took
    | fetch => simp [step, returned] at took
    | add | shutDown | weakup => cases calls
  · exact (loop_apart took calls).trans returned

/-- Nobody but `shut_down` sets the flag, and nobody clears it. -/
theorem shutDown_step (took : state.step label = some next) :
    next.shutDown = match label with
      | .shutDown _ => true
      | .add .. | .weakup _ | .fetch _ | .run => state.shutDown := by
  cases label with
  | run =>
      change state.run = some next at took
      unfold run at took
      repeat' split at took
      all_goals cases took
      all_goals rfl
  | add | shutDown | weakup | fetch =>
      simp only [step] at took
      split at took <;> cases took
      rfl

/-- Who goes on adds nothing and does not stop the loop. -/
theorem goes_keeps (goes : label.goes = true) (took : state.step label = some next) :
    next.pushed = state.pushed ∧ next.shutDown = state.shutDown := by
  have same := shutDown_step took
  cases label with
  | run =>
      refine ⟨?_, same⟩
      change state.run = some next at took
      unfold run at took
      repeat' split at took
      all_goals cases took
      all_goals rfl
  | weakup | fetch =>
      refine ⟨?_, same⟩
      simp only [step] at took
      split at took <;> cases took
      rfl
  | add | shutDown => cases goes

omit [DecidableEq Client] in
/-- A positive count lets `epoll_wait` return the eventfd alone. -/
theorem Heeds.returns (heeds : state.Heeds) (positive : 0 < state.counter) :
    state.Returns [(.weak, epollIn)] := by
  have readable : state.Readable := by
    unfold Readable
    rw [heeds.registered]
    exact ⟨by decide, positive, fun edge => absurd edge (by decide)⟩
  refine ⟨by simp, by simp [maxEvs], by simp, fun ev member _ => ?_, by simp⟩
  rw [List.mem_singleton] at member
  subst member
  exact ⟨rfl, readable⟩

omit [DecidableEq Client] in
/-- Where the loop's thread cannot go on, it is in `epoll_wait` or has returned. -/
theorem stands_of_run (stuck : state.run = none) : state.loop = .waiting ∨ state.loop = .returned := by
  cases here : state.loop with
  | waiting => exact .inl rfl
  | returned => exact .inr rfl
  | dispatching chnls => cases chnls <;> simp [run, here] at stuck
  | draining =>
      simp only [run, here] at stuck
      split at stuck <;> cases stuck
  | top | reading | locking => simp [run, here] at stuck

/-- **Where nobody can go on**, the loop's thread is in `epoll_wait` or has returned, no `weakup` is to
come, and the count of the eventfd that is waited for is 0. -/
theorem Rests.still (rests : state.Rests) (heeds : state.Heeds) :
    (state.loop = .waiting ∨ state.loop = .returned) ∧ (∀ client, state.callers client = .idle) ∧
      (state.loop = .waiting → state.counter = 0) := by
  refine ⟨stands_of_run (rests .run rfl), fun client => ?_, fun waiting => ?_⟩
  · have stuck := rests (.weakup client) rfl
    simp only [step] at stuck
    split at stuck
    next idle => exact idle
    next => cases stuck
  · by_contra positive
    have stuck := rests (.fetch [(.weak, epollIn)]) rfl
    simp [step, waiting, heeds.returns (Nat.pos_of_ne_zero positive)] at stuck

omit [DecidableEq Client] in
theorem stopped_create : (create : WakeLoop Client Task).loop = .returned →
    (create : WakeLoop Client Task).shutDown = true := by
  intro returned
  cases returned

/-- `run` returns only where `_shut_down` is set. -/
theorem stopped_step (stopped : state.loop = .returned → state.shutDown = true)
    (took : state.step label = some next) : next.loop = .returned → next.shutDown = true := by
  cases step_acts took with
  | store => exact fun _ => rfl
  | add | ring | drain => exact stopped
  | fetch | read => exact nofun
  | turn pc turns =>
      intro returned
      change pc = .returned at returned
      generalize state.loop = here at turns
      subst returned
      cases turns with
      | stop stopped => exact stopped

/-- What holds in every state: `run` returns only where `_shut_down` is set, too. -/
structure Sound (state : WakeLoop Client Task) : Prop where
  heeds : state.Heeds
  conserves : state.Conserves
  stopped : state.loop = .returned → state.shutDown = true

theorem sound_reachable (reach : Reachable step create state) : state.Sound where
  heeds := reach.invariant (fun _ _ _ heeds took => heeds_step heeds took) heeds_create
  conserves :=
    reach.invariant (fun _ _ _ conserves took => conserves_step conserves took) conserves_create
  stopped := reach.invariant (fun _ _ _ stopped took => stopped_step stopped took) stopped_create

/-- **Where nobody can go on, every task has been run**, unless `_shut_down` is set. -/
theorem Sound.ran_of_rest (sound : state.Sound) (runs : state.shutDown = false)
    (rests : state.Rests) :
    state.loop = .waiting ∧ state.tasks = [] ∧ state.executed = state.pushed := by
  obtain ⟨stands, idle, unwritten⟩ := rests.still sound.heeds
  have waiting := stands.resolve_right fun returned => by
    rw [sound.stopped returned] at runs
    cases runs
  have empty : state.tasks = [] := by
    by_contra waits
    rcases sound.conserves.signalled waits with ⟨client, added⟩ | positive | drains
    · rw [idle client] at added
      cases added
    · exact absurd (unwritten waiting) positive.ne'
    · rw [waiting] at drains
      cases drains
  have fifo := sound.conserves.fifo
  rw [empty, List.append_nil] at fifo
  exact ⟨waiting, empty, fifo⟩

/-- **Where nobody can go on and `_shut_down` is set, `run` has returned.** -/
theorem Sound.returned_of_rest (sound : state.Sound) (stop : state.shutDown = true)
    (rests : state.Rests) : state.loop = .returned := by
  obtain ⟨stands, idle, unwritten⟩ := rests.still sound.heeds
  refine stands.resolve_left fun waiting => ?_
  rcases sound.heeds.coming stop waiting with ⟨client, stored⟩ | positive
  · rw [idle client] at stored
    cases stored
  · exact absurd (unwritten waiting) positive.ne'

/-- **Every task is run, or `run` returns.** From any reachable state, the loop's thread and the threads
that have still to call `weakup` take a bounded number of steps, if nobody calls `add` or `shut_down`
and epoll has no events but the eventfd's. Where they can take no more, and `_shut_down` is not set,
the loop's thread is in `epoll_wait` and the tasks added have been run, in order; where it is set,
`run` has returned. -/
theorem every_task_run [Fintype Client] {state final : WakeLoop Client Task}
    (reach : Reachable step create state) {labels : List (Label Client Task)}
    (ran : exec (only step Label.goes) state labels = some final) :
    labels.length ≤ state.measure ∧ final.pushed = state.pushed ∧
      (state.shutDown = false → final.Rests →
        final.loop = .waiting ∧ final.tasks = [] ∧ final.executed = final.pushed) ∧
      (state.shutDown = true → final.Rests → final.loop = .returned) := by
  have sound := sound_reachable (reach.only ran)
  obtain ⟨pushed, same⟩ := only_kept
    (fun later => later.pushed = state.pushed ∧ later.shutDown = state.shutDown)
    (by
      rintro now label later goes ⟨pushed, same⟩ took
      obtain ⟨unpushed, still⟩ := goes_keeps goes took
      exact ⟨unpushed.trans pushed, still.trans same⟩)
    ⟨rfl, rfl⟩ ran
  exact ⟨only_ends (fun _ _ _ goes took => measure_step goes took) ran, pushed,
    fun runs rests => sound.ran_of_rest (same.trans runs) rests,
    fun stop rests => sound.returned_of_rest (same.trans stop) rests⟩

/-- A task is added and run, and the loop's thread sleeps; `shut_down` is called, and `run` returns. -/
theorem every_task_run_one :
    (∃ final : WakeLoop Unit ℕ, final.loop = .waiting ∧ final.tasks = [] ∧
      final.executed = final.pushed ∧ final.pushed = [7]) ∧
    ∃ final : WakeLoop Unit ℕ, final.loop = .returned ∧ final.pushed = [] := by
  have calm : ∀ {state : WakeLoop Unit ℕ}, state.callers () = .idle → state.run = none →
      state.counter = 0 → state.Rests := by
    intro state idle still unwritten label goes
    cases label with
    | run => exact still
    | weakup client => simp [step, idle]
    | fetch reported =>
        refine if_neg ?_
        rintro ⟨-, returns⟩
        obtain ⟨ev, rfl, weak⟩ := List.map_eq_singleton_iff.mp (of_decide_eq_true goes)
        have readable := (returns.2.2.2.1 ev (List.mem_singleton_self ev) weak).2
        exact absurd unwritten readable.2.1.ne'
    | add | shutDown => cases goes
  constructor
  · have run : ∃ state final : WakeLoop Unit ℕ, exec step create [.run, .add () 7] = some state ∧
        exec (only step Label.goes) state
          ([.weakup (), .fetch [(.weak, epollIn)]] ++ List.replicate 7 .run) = some final ∧
        state.shutDown = false ∧ state.pushed = [7] ∧ final.callers () = .idle ∧ final.run = none ∧
        final.counter = 0 :=
      ⟨_, _, rfl, rfl, rfl, rfl, rfl, rfl, rfl⟩
    obtain ⟨state, final, ran, went, runs, pushed, idle, still, unwritten⟩ := run
    obtain ⟨-, same, served, -⟩ := every_task_run ⟨_, ran⟩ went
    obtain ⟨waiting, empty, executed⟩ := served runs (calm idle still unwritten)
    exact ⟨final, waiting, empty, executed, same.trans pushed⟩
  · have run : ∃ state final : WakeLoop Unit ℕ, exec step create [.run, .shutDown ()] = some state ∧
        exec (only step Label.goes) state
          ([.weakup (), .fetch [(.weak, epollIn)]] ++ List.replicate 6 .run) = some final ∧
        state.shutDown = true ∧ state.pushed = [] ∧ final.callers () = .idle ∧ final.run = none ∧
        final.counter = 0 :=
      ⟨_, _, rfl, rfl, rfl, rfl, rfl, rfl, rfl⟩
    obtain ⟨state, final, ran, went, stop, pushed, idle, still, unwritten⟩ := run
    obtain ⟨-, same, -, returns⟩ := every_task_run ⟨_, ran⟩ went
    exact ⟨final, returns stop (calm idle still unwritten), same.trans pushed⟩

end Step

end WakeLoop

end IkunSvr
