/-
**A client that waits for each reply.**

Several workers may answer the requests of one connection in any order. The test client sends its next
request only when it has the reply to the last one: then at most one request is under way, and there
is nothing to be out of order. Each reply is taken to reach `send_in_loop` intact.

* `Waits` — the client has the replies to all its requests when it sends the next;
* `inStep_step` — the replies handed over, and appended, are those to the first requests, in order;
* `waiting_client_served` — **however many workers there are, the replies are appended in the order of
  the requests, and each one is**.
-/

import IkunSvr.Pool.Answers

namespace IkunSvr

open Run WaitQueue WaitQueue.State

namespace Echosvr

variable {count : ℕ} {Other : Type*} [DecidableEq Other]

/-- A request is received only when all earlier ones have been answered. -/
def Waits (state : Echosvr count Other) : Label count Other → Prop
  | .receive => state.output.length = state.received
  | _ => True

/-- At most one request is under way, and the replies are to the first requests, in order. -/
structure InStep (state : Echosvr count Other) : Prop where
  moves : state.Moves
  inOrder : state.HandsInOrder
  last : state.received ≤ state.output.length + 1

variable {state next : Echosvr count Other} {label : Label count Other} {begun : ℕ}

omit [DecidableEq Other] in
theorem inStep_create (fd : ℕ) [DecidableEq Other] : (create fd : Echosvr count Other).InStep :=
  ⟨moves_create fd, rfl, Nat.zero_le _⟩

/-- Nothing is taken out of `_output_buf`, and requests are received in `on_msg` only. -/
theorem grows_step (took : state.step label = some next) :
    state.output.length ≤ next.output.length ∧
      (next.received = state.received ∨ label = .receive ∧ next.received = state.received + 1) := by
  cases label with
  | receive =>
      change state.receive = some next at took
      unfold receive handleMsg at took
      repeat' split at took
      · cases took
        exact ⟨by simp, .inr ⟨rfl, rfl⟩⟩
      · obtain ⟨pool, pushed, rfl⟩ := Option.map_eq_some_iff.mp took
        exact ⟨le_rfl, .inr ⟨rfl, rfl⟩⟩
      all_goals cases took
  | work worker =>
      change state.work worker = some next at took
      unfold work at took
      repeat' split at took
      all_goals
        obtain ⟨part, moved, rfl⟩ := Option.map_eq_some_iff.mp took
        exact ⟨le_rfl, .inl rfl⟩
  | run =>
      change state.run = some next at took
      unfold run at took
      split at took
      next => cases took
      next =>
        obtain ⟨loop, ran, rfl⟩ := Option.map_eq_some_iff.mp took
        exact ⟨by simp, .inl rfl⟩
  | pool does =>
      obtain ⟨pool, called, rfl⟩ := Option.map_eq_some_iff.mp took
      exact ⟨le_rfl, .inl rfl⟩
  | loop does =>
      obtain ⟨loop, called, rfl⟩ := Option.map_eq_some_iff.mp took
      exact ⟨le_rfl, .inl rfl⟩

omit [DecidableEq Other] in
/-- **The replies appended are those to the first requests, in order.** -/
theorem InStep.output (inStep : state.InStep) :
    state.output = List.range state.output.length := by
  obtain ⟨begun, flows⟩ := inStep.moves
  have front : state.output <+: List.range state.handed.length := by
    rw [← inStep.inOrder, ← flows.passed]
    exact List.prefix_append _ _
  have short := front.length_le
  rw [List.length_range] at short
  have same := List.prefix_iff_eq_take.mp front
  rwa [List.take_range, Nat.min_eq_left short] at same

omit [DecidableEq Other] in
/-- Where at most one request is under way, whoever owes a reply owes the oldest. -/
theorem InStep.oldestFirst (inStep : state.InStep) (label : Label count Other) :
    state.OldestFirst label := by
  obtain ⟨begun, flows⟩ := inStep.moves
  have queued := congrArg List.length flows.queued
  simp only [List.length_append, List.length_range] at queued
  have passed := congrArg List.length flows.passed
  rw [List.length_append] at passed
  have last := inStep.last
  cases label with
  | work worker =>
      intro request owes other earlier owesEarlier
      have above := flows.later inStep.inOrder owesEarlier
      have below := (flows.owed worker request owes).1
      omega
  | _ => trivial

/-- **A client that waits stays in step**, whatever the workers and the loop do. -/
theorem inStep_step (inStep : state.InStep) (waits : state.Waits label)
    (took : state.step label = some next) : next.InStep := by
  obtain ⟨begun, flows⟩ := inStep.moves
  obtain ⟨moves, acts⟩ := step_acts flows took
  obtain ⟨longer, received⟩ := grows_step took
  refine ⟨moves, (handsInOrder_step flows inStep.inOrder acts).mpr (inStep.oldestFirst label), ?_⟩
  rcases received with same | ⟨rfl, more⟩
  · have last := inStep.last
    omega
  · have all : state.output.length = state.received := waits
    omega

/-- A client that sends nothing waits. -/
theorem waits_of_silent {labels : List (Label count Other)} (silent : .receive ∉ labels) :
    Along step Waits state labels := by
  refine along_of_forall fun label member now => ?_
  cases label with
  | receive => exact absurd member silent
  | _ => trivial

/-- A client that has all its replies sends a request. -/
theorem waits_again {first : Echosvr count Other} {labels more : List (Label count Other)}
    (waits : Along step Waits first labels) (ran : exec step first labels = some state)
    (answered : state.output.length = state.received) (silent : .receive ∉ more) :
    Along step Waits first (labels ++ .receive :: more) := by
  refine along_append waits fun now there => ?_
  obtain rfl := Option.some.inj (ran.symm.trans there)
  exact fun _ _ => ⟨answered, waits_of_silent silent⟩

/-- **A client that waits for each reply is served.** In every run in which a request is received only
when all earlier ones have their replies in `_output_buf`, for every number of workers: the replies
are appended in the order of the requests, and at most one is to come. From there the workers, the
loop's thread and the threads on their way out of `add` take a bounded number of steps; and where they
can take no more, and neither the pool nor the loop was shut down, every request has its reply. -/
theorem waiting_client_served [Fintype Other] {fd : ℕ} {state final : Echosvr count Other}
    {labels more : List (Label count Other)} (waits : Along step Waits (create fd) labels)
    (ran : exec step (create fd) labels = some state)
    (went : exec (only step Label.goes) state more = some final) :
    (state.output = List.range state.output.length ∧ state.received ≤ state.output.length + 1) ∧
      more.length ≤ state.measure ∧
      (state.pool.stop = false → state.loop.shutDown = false → final.Rests →
        final.output = List.range state.received) := by
  have inStep : state.InStep :=
    (always_of_along (fun _ _ _ inStep waits took => inStep_step inStep waits took)
      (inStep_create fd) waits).last ran
  refine ⟨⟨inStep.output, inStep.last⟩, only_ends (fun _ _ _ goes took => measure_step goes took) went,
    fun runs listens rests => ?_⟩
  obtain ⟨later, received, stop, shutDown⟩ := only_kept
    (fun later => later.InStep ∧ later.received = state.received ∧
      later.pool.stop = state.pool.stop ∧ later.loop.shutDown = state.loop.shutDown)
    (by
      rintro now label later goes ⟨inStep, received, stop, shutDown⟩ took
      obtain ⟨same, still, stays⟩ := goes_keeps goes took
      have receives : now.Waits label := by
        cases label with
        | receive => cases goes
        | _ => trivial
      exact ⟨inStep_step inStep receives took, same.trans received, still.trans stop,
        stays.trans shutDown⟩)
    ⟨inStep, rfl, rfl, rfl⟩ went
  have reach : Reachable step (create fd) final := Reachable.only ⟨labels, ran⟩ went
  have once : final.Once :=
    reach.invariant (fun _ _ _ once took => once_step once took) (once_create fd)
  have answered := answered_of_rest once (stop.trans runs) (shutDown.trans listens) rests
  have length := answered.length_eq
  rw [List.length_range] at length
  rw [later.output, length, received]

/-- Two workers, and a client that waits: the second worker answers the second request. -/
theorem waiting_client_served_two :
    ∃ final : Echosvr 2 Unit, final.output = [0, 1] := by
  have run : ∃ early later : List (Label 2 Unit), .receive ∉ early ∧ .receive ∉ later ∧
      ∃ opened served state final : Echosvr 2 Unit,
        exec step (create 5) early = some opened ∧ opened.output.length = opened.received ∧
        exec step (create 5) (early ++ .receive :: later) = some served ∧
        served.output.length = served.received ∧
        exec step (create 5) ((early ++ .receive :: later) ++ .receive :: []) = some state ∧
        exec (only step Label.goes) state
          (List.replicate 12 (.work 1) ++ [.pool (.notifyOne none (some 0))] ++
            List.replicate 3 (.work 0) ++ List.replicate 3 .run ++
            [.loop (.fetch [(.weak, epollIn)])] ++ List.replicate 7 .run) = some final ∧
        state.pool.stop = false ∧ state.loop.shutDown = false ∧ state.received = 2 ∧
        final.pool.workers 0 = .waiting ∧ final.pool.workers 1 = .waiting ∧
        final.pool.clients none = .idle ∧ final.pool.clients (some ()) = .idle ∧
        final.loop.loop = .waiting ∧
        final.loop.callers (.inr ()) = .idle ∧ final.loop.counter = 0 :=
    ⟨[.run, .loop (.fetch [(.other 5, epollIn)])],
      [.pool (.notifyOne none none)] ++ List.replicate 12 (.work 0) ++ List.replicate 3 .run ++
        [.loop (.fetch [(.weak, epollIn)])] ++ List.replicate 7 .run ++
        [.loop (.fetch [(.other 5, epollIn)])],
      by simp, by simp, _, _, _, _, rfl, rfl, rfl, rfl, rfl, rfl, rfl, rfl, rfl, rfl, rfl, rfl, rfl,
      rfl, rfl, rfl⟩
  obtain ⟨early, later, silent, silentToo, opened, served, state, final, opens, answered, serves,
    answeredToo, ran, went, runs, listens, received, first, second, out, others, waiting, calm,
    unwritten⟩ := run
  have rests : final.Rests := by
    refine rests_of_waiting ?_ ?_ waiting ?_ unwritten
    · exact Fin.forall_fin_two.mpr ⟨first, second⟩
    · exact Option.forall.mpr ⟨out, fun _ => others⟩
    · exact fun _ => calm
  have once := waits_again (waits_of_silent silent) opens answered silentToo
  have waits := waits_again once serves answeredToo List.not_mem_nil
  obtain ⟨-, -, served⟩ := waiting_client_served waits ran went
  have output := served runs listens rests
  rw [received] at output
  exact ⟨final, output⟩

end Echosvr

end IkunSvr
