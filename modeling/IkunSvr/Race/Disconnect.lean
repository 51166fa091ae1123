/-
**Sends from worker threads racing with the close of a connection.**

`Race` is one connection with its loop's task queue and eventfd, the loop thread, and any number of
worker threads, each in `connect::send` on that connection: it tests `_disconn` (`test`), pushes the
task under the loop's mutex (`add`) and signals the eventfd (`weakup`). The loop thread handles the
events of the connection, and in `handle_weakup` runs the tasks with the mutex held, so that no `add`
comes in between. What a task appends is a payload that goes with it.

* `Acts` — what a step of a running process does;
* `raceStep_live`, `raceStep_removed` — what that is before the close and after it;
* `quiet_run_harmless` — a run that closes the connection only with no task queued and no worker
  between test and push never exits, nor registers the descriptor again;
* `close_harmless_iff` — otherwise some continuation exits;
* `disconnect_harmless_iff` — **both together**;
* `close_before_task_exits` — a worker tests, the peer closes, the task runs: `exit(-1)`.
-/

import IkunSvr.Lib.Run
import IkunSvr.Receive.Reassembly

namespace IkunSvr

open Run

/-! ### The parties -/

/-- Where a worker thread is in `connect::send`. -/
inductive SenderPc
  | idle
  /-- behind the test of `_disconn` -/
  | passed (data : Block)
  /-- behind the push of the task, before `weakup` -/
  | added

/-- Where the loop thread is. -/
inductive LoopPc
  | waiting
  /-- in `handle_weakup`, with the mutex -/
  | draining

structure Race (Worker : Type) where
  conn : Connect
  senders : Worker → SenderPc
  tasks : List Block := []
  /-- the count of the eventfd -/
  signals : Nat := 0
  loop : LoopPc := .waiting
  exited : Bool := false

/-- A step of some thread. -/
inductive RaceLabel (Worker : Type)
  | test (worker : Worker) (data : Block)
  | add (worker : Worker)
  | weakup (worker : Worker)
  | wake
  | runTask
  | drained
  | onMsg (fuel : Nat) (call : Call)
  | writecb (sent : Int)
  | onClose
  | onError
  /-- `connect::send` on the loop's thread -/
  | sendHere (data : Block)

variable {Worker : Type}

namespace Race

/-- A call on the connection returns, or exits; after any other stop nothing is said. -/
def settle (state : Race Worker) : Except Stop Connect → Option (Race Worker)
  | .ok conn => some { state with conn := conn }
  | .error .exit => some { state with exited := true }
  | .error _ => none

/-- epoll reports events of registered descriptors only. -/
def Reported (state : Race Worker) : Prop :=
  state.conn.cchnl.registered ≠ none

instance (state : Race Worker) : Decidable state.Reported :=
  inferInstanceAs (Decidable (_ ≠ none))

/-- A handler of the connection's channel, called by the loop thread. -/
def handle (state : Race Worker) (result : Except Stop Connect) : Option (Race Worker) :=
  match state.loop with
  | .waiting => if state.Reported then state.settle result else none
  | .draining => none

section Step

variable [DecidableEq Worker]

/-- A step of a running process. -/
def act (state : Race Worker) (label : RaceLabel Worker) : Option (Race Worker) :=
  match label with
  | .test worker data =>
      match state.senders worker with
      | .idle =>
          if state.conn.disconn then some state
          else some { state with senders := Function.update state.senders worker (.passed data) }
      | _ => none
  | .add worker =>
      match state.senders worker, state.loop with
      | .passed data, .waiting => some { state with
          senders := Function.update state.senders worker .added
          tasks := state.tasks ++ [data] }
      | _, _ => none
  | .weakup worker =>
      match state.senders worker with
      | .added => some { state with
          senders := Function.update state.senders worker .idle
          signals := state.signals + 1 }
      | _ => none
  | .wake =>
      match state.loop with
      | .waiting =>
          if 0 < state.signals then some { state with loop := .draining, signals := 0 } else none
      | .draining => none
  | .runTask =>
      match state.loop, state.tasks with
      | .draining, data :: tasks =>
          settle { state with tasks := tasks }
            (state.conn.sendInLoop data.bytes data.bytes.length)
      | _, _ => none
  | .drained =>
      match state.loop, state.tasks with
      | .draining, [] => some { state with loop := .waiting }
      | _, _ => none
  | .onMsg fuel call =>
      match state.conn.onMsg fuel call.past call.now call.reads with
      | none => none
      | some result => state.handle (result.map Connect.Received.conn)
  | .writecb sent => state.handle ((state.conn.writecb sent).map Prod.fst)
  | .onClose => state.handle state.conn.onClose
  | .onError => state.handle state.conn.onError
  | .sendHere data =>
      match state.loop with
      | .waiting => state.settle ((state.conn.send true data []).map Prod.fst)
      | .draining => none

/-- A step; once the process has exited there is none. -/
def step (state : Race Worker) (label : RaceLabel Worker) : Option (Race Worker) :=
  if state.exited then none else state.act label

end Step

/-- The connection has just been set up, and no worker is sending. -/
def start (conn : Connect) : Race Worker where
  conn := conn
  senders := fun _ => .idle

/-! ### A harmless close -/

/-- The process runs, and a closed connection's descriptor is not registered. -/
def Harmless (state : Race Worker) : Prop :=
  state.exited = false ∧ (state.conn.disconn = true → state.conn.cchnl.registered = none)

/-- No task is queued, and no worker is between the test of `_disconn` and the push. -/
def Quiet (state : Race Worker) : Prop :=
  state.tasks = [] ∧ ∀ worker data, state.senders worker ≠ .passed data

/-- The step from one state to the other closes the connection. -/
def Closes (state next : Race Worker) : Prop :=
  state.conn.disconn = false ∧ next.conn.disconn = true

/-- If the step closes the connection, it does so in a quiet state. -/
def QuietClose [DecidableEq Worker] (state : Race Worker) (label : RaceLabel Worker) : Prop :=
  ∀ next, state.step label = some next → Closes state next → state.Quiet

/-! ### Calls on a live connection -/

/-- The call does not exit, and leaves the connection live or removed. -/
def Settles (result : Except Stop Connect) : Prop :=
  NoExit result ∧ ∀ conn, result = .ok conn → conn.Live ∨ conn.Removed

section Calls

variable {conn : Connect}

theorem settles_live {next : Connect} (live : next.Live) : Settles (.ok next) := by
  refine ⟨noExit_ok _, fun conn same => ?_⟩
  cases same
  exact .inl live

theorem settles_disconnect (live : conn.Live) : Settles conn.disconnect := by
  rw [Connect.disconnect_live live]
  refine ⟨noExit_ok _, fun next same => ?_⟩
  cases same
  exact .inr (Connect.removed_of_struck conn)

theorem settles_onMsg (live : conn.Live) {fuel : Nat} {call : Call}
    {result : Except Stop Connect.Received}
    (ended : conn.onMsg fuel call.past call.now call.reads = some result) :
    Settles (result.map Connect.Received.conn) := by
  obtain ⟨stays, kept⟩ := Connect.onMsg_live live ended
  refine ⟨stays.map, fun next same => ?_⟩
  obtain ⟨received, done, rfl⟩ := map_eq_ok.mp same
  exact kept received done

theorem settles_writecb (live : conn.Live) (sent : Int) :
    Settles ((conn.writecb sent).map Prod.fst) := by
  rw [Connect.writecb_live live]
  split
  · exact settles_live (live.enlist _ _)
  · exact settles_live (live.of_eq rfl rfl)

theorem settles_sendHere (live : conn.Live) (data : Block) :
    Settles ((conn.send true data []).map Prod.fst) := by
  unfold Connect.send
  rw [live.connected, Connect.sendInLoop_live live]
  exact settles_live (live.enlist _ _)

end Calls

/-! ### What one step does -/

section Steps

variable {state next : Race Worker}

/-- A call on the connection changes nothing else. -/
theorem settle_frame {result : Except Stop Connect} (took : state.settle result = some next) :
    next.tasks = state.tasks ∧ next.senders = state.senders ∧ next.signals = state.signals ∧
      next.loop = state.loop := by
  unfold settle at took
  split at took
  · cases took
    exact ⟨rfl, rfl, rfl, rfl⟩
  · cases took
    exact ⟨rfl, rfl, rfl, rfl⟩
  · cases took

theorem handle_eq_some {result : Except Stop Connect} (took : state.handle result = some next) :
    state.loop = .waiting ∧ state.Reported ∧ state.settle result = some next := by
  unfold handle at took
  split at took
  · rename_i waiting
    split at took
    · rename_i reported
      exact ⟨waiting, reported, took⟩
    · cases took
  · cases took

theorem settle_settles {result : Except Stop Connect} (settles : Settles result)
    (took : state.settle result = some next) :
    next = { state with conn := next.conn } ∧ (next.conn.Live ∨ next.conn.Removed) := by
  unfold settle at took
  split at took
  · cases took
    exact ⟨rfl, settles.2 _ rfl⟩
  · exact absurd rfl settles.1
  · cases took

/-- What a step from a live connection leads to: a live connection, or, from a waiting loop, a
removed one and nothing else changed. -/
def LiveStep (state next : Race Worker) : Prop :=
  next.exited = false ∧ (next.conn.Live ∨
    next.conn.Removed ∧ state.loop = .waiting ∧ next = { state with conn := next.conn })

theorem settle_live {result : Except Stop Connect} (running : state.exited = false)
    (waiting : state.loop = .waiting) (settles : Settles result)
    (took : state.settle result = some next) : LiveStep state next := by
  obtain ⟨frame, live | removed⟩ := settle_settles settles took
  · rw [frame]
    exact ⟨running, .inl live⟩
  · refine ⟨?_, .inr ⟨removed, waiting, frame⟩⟩
    rw [frame]
    exact running

variable [DecidableEq Worker] {label : RaceLabel Worker}

theorem step_running (running : state.exited = false) : state.step label = state.act label := by
  unfold step
  rw [if_neg (by rw [running]; exact Bool.false_ne_true)]

/-- What a step of a running process does. -/
inductive Acts (state : Race Worker) : Race Worker → Prop
  /-- `send` finds the connection closed -/
  | refused (closed : state.conn.disconn = true) : Acts state state
  | passed {worker : Worker} (data : Block) (idle : state.senders worker = .idle)
      (connected : state.conn.disconn = false) :
      Acts state { state with senders := Function.update state.senders worker (.passed data) }
  | added {worker : Worker} {data : Block} (passed : state.senders worker = .passed data)
      (waiting : state.loop = .waiting) :
      Acts state { state with
        senders := Function.update state.senders worker .added
        tasks := state.tasks ++ [data] }
  | signalled {worker : Worker} (added : state.senders worker = .added) :
      Acts state { state with
        senders := Function.update state.senders worker .idle
        signals := state.signals + 1 }
  | woken (waiting : state.loop = .waiting) (signalled : 0 < state.signals) :
      Acts state { state with loop := .draining, signals := 0 }
  | ran {next : Race Worker} {data : Block} {tasks : List Block} (draining : state.loop = .draining)
      (front : state.tasks = data :: tasks)
      (took : settle { state with tasks := tasks }
        (state.conn.sendInLoop data.bytes data.bytes.length) = some next) : Acts state next
  | drained (draining : state.loop = .draining) (empty : state.tasks = []) :
      Acts state { state with loop := .waiting }
  /-- a handler of the connection's channel -/
  | handled {next : Race Worker} {result : Except Stop Connect} (waiting : state.loop = .waiting)
      (reported : state.Reported) (settles : state.conn.Live → Settles result)
      (took : state.settle result = some next) : Acts state next
  | sentHere {next : Race Worker} {data : Block} (waiting : state.loop = .waiting)
      (took : state.settle ((state.conn.send true data []).map Prod.fst) = some next) :
      Acts state next

theorem Acts.of_handle {result : Except Stop Connect} (settles : state.conn.Live → Settles result)
    (took : state.handle result = some next) : Acts state next := by
  obtain ⟨waiting, reported, settled⟩ := handle_eq_some took
  exact .handled waiting reported settles settled

/-- **Every step is one of these.** -/
theorem act_acts (took : state.act label = some next) : Acts state next := by
  unfold act at took
  cases label with
  | test worker data =>
      simp only at took
      split at took
      · rename_i idle
        split at took
        · rename_i closed
          cases took
          exact .refused closed
        · rename_i connected
          cases took
          exact .passed data idle (Bool.not_eq_true _ ▸ connected)
      · cases took
  | add worker =>
      simp only at took
      split at took
      · rename_i data passed waiting
        cases took
        exact .added passed waiting
      · cases took
  | weakup worker =>
      simp only at took
      split at took
      · rename_i added
        cases took
        exact .signalled added
      · cases took
  | wake =>
      simp only at took
      split at took
      · rename_i waiting
        split at took
        · rename_i signalled
          cases took
          exact .woken waiting signalled
        · cases took
      · cases took
  | runTask =>
      simp only at took
      split at took
      · rename_i data tasks draining front
        exact .ran draining front took
      · cases took
  | drained =>
      simp only at took
      split at took
      · rename_i draining empty
        cases took
        exact .drained draining empty
      · cases took
  | onMsg fuel call =>
      simp only at took
      split at took
      · cases took
      · rename_i result ended
        exact .of_handle (fun live => settles_onMsg live ended) took
  | writecb sent => exact .of_handle (fun live => settles_writecb live sent) took
  | onClose | onError => exact .of_handle settles_disconnect took
  | sendHere data =>
      simp only at took
      split at took
      · rename_i waiting
        exact .sentHere waiting took
      · cases took

/-- **Before the close no step exits.** -/
theorem raceStep_live (running : state.exited = false) (live : state.conn.Live)
    (took : state.step label = some next) : LiveStep state next := by
  rw [step_running running] at took
  cases act_acts took with
  | refused closed =>
      rw [live.connected] at closed
      cases closed
  | passed | added | signalled | woken | drained => exact ⟨running, .inl live⟩
  | ran draining front took =>
      rw [Connect.sendInLoop_live live] at took
      cases took
      exact ⟨running, .inl (live.enlist _ _)⟩
  | handled waiting _ settles took => exact settle_live running waiting (settles live) took
  | sentHere waiting took => exact settle_live running waiting (settles_sendHere live _) took

/-- **After the close** the connection stays as it is, and a step from a quiet state leads to a quiet
state. -/
theorem raceStep_removed (running : state.exited = false) (removed : state.conn.Removed)
    (took : state.step label = some next) :
    next.conn = state.conn ∧ (state.Quiet → next.exited = false ∧ next.Quiet) := by
  rw [step_running running] at took
  cases act_acts took with
  | refused | woken | drained => exact ⟨rfl, fun quiet => ⟨running, quiet⟩⟩
  | passed data idle connected =>
      exact absurd connected removed.not_connected
  | added passed waiting => exact ⟨rfl, fun quiet => absurd passed (quiet.2 _ _)⟩
  | @signalled worker added =>
      refine ⟨rfl, fun quiet => ⟨running, quiet.1, fun other data => ?_⟩⟩
      simp only
      by_cases same : other = worker
      · rw [same, Function.update_self]
        exact fun wrong => by cases wrong
      · rw [Function.update_of_ne same]
        exact quiet.2 other data
  | ran draining front took =>
      rw [Connect.sendInLoop_removed removed] at took
      cases took
      refine ⟨rfl, fun quiet => ?_⟩
      rw [quiet.1] at front
      cases front
  | handled waiting reported settles took => exact absurd removed.absent reported
  | sentHere waiting took =>
      unfold Connect.send at took
      rw [removed.disconnected] at took
      cases took
      exact ⟨rfl, fun quiet => ⟨running, quiet⟩⟩

end Steps

/-! ### Runs that close the connection in a quiet state -/

/-- The connection has been removed, and no send is under way. -/
def Gone (state : Race Worker) : Prop :=
  state.exited = false ∧ state.conn.Removed ∧ state.Quiet

/-- The connection is live, or it is gone. -/
def Calm (state : Race Worker) : Prop :=
  state.Gone ∨ state.exited = false ∧ state.conn.Live

theorem Calm.harmless {state : Race Worker} (calm : state.Calm) : state.Harmless := by
  rcases calm with ⟨running, removed, _⟩ | ⟨running, live⟩
  · exact ⟨running, fun _ => removed.absent⟩
  · refine ⟨running, fun closed => ?_⟩
    rw [live.connected] at closed
    cases closed

section Runs

variable [DecidableEq Worker] {conn : Connect}

theorem gone_step {state next : Race Worker} {label : RaceLabel Worker} (gone : state.Gone)
    (took : state.step label = some next) : next.Gone := by
  obtain ⟨running, removed, quiet⟩ := gone
  obtain ⟨same, kept⟩ := raceStep_removed running removed took
  obtain ⟨runs, quietNext⟩ := kept quiet
  refine ⟨runs, ?_, quietNext⟩
  rw [same]
  exact removed

theorem calm_step {state next : Race Worker} {label : RaceLabel Worker} (calm : state.Calm)
    (allowed : state.QuietClose label) (took : state.step label = some next) : next.Calm := by
  rcases calm with gone | ⟨running, live⟩
  · exact .inl (gone_step gone took)
  · obtain ⟨runs, stays | ⟨removed, _, frame⟩⟩ := raceStep_live running live took
    · exact .inr ⟨runs, stays⟩
    · have quiet := allowed next took ⟨live.connected, removed.disconnected⟩
      refine .inl ⟨runs, removed, ?_⟩
      rw [frame]
      exact quiet

/-- **A run that closes the connection in a quiet state is harmless.** -/
theorem quiet_run_harmless (live : conn.Live) {labels : List (RaceLabel Worker)}
    (quiet : Along step QuietClose (start conn) labels) :
    Always step Harmless (start conn) labels := by
  have calm : Always step Calm (start conn) labels :=
    always_of_along (fun _ _ _ calm allowed took => calm_step calm allowed took)
      (.inr ⟨rfl, live⟩) quiet
  exact calm.mono fun _ => Calm.harmless

end Runs

/-! ### A close with a send under way -/

section Pending

variable {conn : Connect} {state next : Race Worker}

/-- A queued task has been, or is about to be, announced to the loop. -/
def Woken (state : Race Worker) : Prop :=
  state.tasks ≠ [] →
    0 < state.signals ∨ (∃ worker, state.senders worker = .added) ∨ state.loop = .draining

theorem woken_frame (woken : state.Woken)
    (frame : next.tasks = state.tasks ∧ next.senders = state.senders ∧
      next.signals = state.signals ∧ next.loop = state.loop) : next.Woken := by
  obtain ⟨tasks, senders, signals, loop⟩ := frame
  unfold Woken
  rw [tasks, senders, signals, loop]
  exact woken

variable [DecidableEq Worker]

/-- No announcement is lost. -/
theorem woken_step {label : RaceLabel Worker} (woken : state.Woken)
    (took : state.step label = some next) : next.Woken := by
  unfold step at took
  split at took
  · cases took
  cases act_acts took with
  | refused => exact woken
  | @passed worker data idle connected =>
      intro pending
      rcases woken pending with signalled | ⟨other, added⟩ | draining
      · exact .inl signalled
      · refine .inr (.inl ⟨other, ?_⟩)
        have different : other ≠ worker := by
          rintro rfl
          rw [idle] at added
          cases added
        simp only
        rw [Function.update_of_ne different, added]
      · exact .inr (.inr draining)
  | added => exact fun _ => .inr (.inl ⟨_, Function.update_self ..⟩)
  | signalled => exact fun _ => .inl (Nat.succ_pos _)
  | woken => exact fun _ => .inr (.inr rfl)
  | ran draining front took =>
      obtain ⟨_, _, _, loop⟩ := settle_frame took
      exact fun _ => .inr (.inr (loop.trans draining))
  | drained draining empty => exact fun pending => absurd empty pending
  | handled _ _ _ took | sentHere _ took => exact woken_frame woken (settle_frame took)

/-- What holds in every state a run reaches. -/
def Sound (state : Race Worker) : Prop :=
  state.Woken ∧ (state.exited = false → state.conn.Live ∨ state.conn.Removed)

theorem sound_step {label : RaceLabel Worker} (sound : state.Sound)
    (took : state.step label = some next) : next.Sound := by
  refine ⟨woken_step sound.1 took, fun _ => ?_⟩
  have running : state.exited = false := by
    unfold step at took
    split at took
    · cases took
    · rename_i runs
      exact Bool.not_eq_true _ ▸ runs
  rcases sound.2 running with live | removed
  · obtain ⟨_, stays | ⟨gone, _⟩⟩ := raceStep_live running live took
    · exact .inl stays
    · exact .inr gone
  · obtain ⟨same, _⟩ := raceStep_removed running removed took
    rw [same]
    exact .inr removed

theorem sound_reachable (live : conn.Live) (reach : Reachable step (start conn) state) :
    state.Sound :=
  Reachable.invariant (fun _ _ _ sound took => sound_step sound took)
    ⟨fun pending => absurd rfl pending, fun _ => .inl live⟩ reach

/-- The loop wakes up and runs a task of a removed connection. -/
theorem signalled_exits (running : state.exited = false) (removed : state.conn.Removed)
    (waiting : state.loop = .waiting) (signalled : 0 < state.signals)
    (pending : state.tasks ≠ []) :
    ∃ labels final, exec step state labels = some final ∧ final.exited = true := by
  obtain ⟨data, tasks, front⟩ := List.exists_cons_of_ne_nil pending
  refine ⟨[.wake, .runTask], { state with
    tasks := tasks, loop := .draining, signals := 0, exited := true }, ?_, rfl⟩
  have woke : state.step .wake = some { state with loop := .draining, signals := 0 } := by
    rw [step_running running]
    unfold act
    simp only [waiting, if_pos signalled]
  have ran : step { state with loop := .draining, signals := 0 } (.runTask : RaceLabel Worker) =
      some { state with tasks := tasks, loop := .draining, signals := 0, exited := true } := by
    unfold step act
    simp only [running, front, Bool.false_eq_true, if_false]
    rw [Connect.sendInLoop_removed removed]
    rfl
  rw [exec, woke, Option.bind_some, exec, ran]
  rfl

/-- With a task queued on a removed connection and the loop waiting, the process can exit. -/
theorem pending_exits (running : state.exited = false) (removed : state.conn.Removed)
    (waiting : state.loop = .waiting) (woken : state.Woken) (pending : state.tasks ≠ []) :
    ∃ labels final, exec step state labels = some final ∧ final.exited = true := by
  rcases woken pending with signalled | ⟨worker, added⟩ | draining
  · exact signalled_exits running removed waiting signalled pending
  · have woke : state.step (.weakup worker) = some { state with
        senders := Function.update state.senders worker .idle
        signals := state.signals + 1 } := by
      rw [step_running running]
      unfold act
      simp only [added]
    obtain ⟨labels, final, ran, exits⟩ : ∃ labels final, exec step { state with
        senders := Function.update state.senders worker .idle
        signals := state.signals + 1 } labels = some final ∧ final.exited = true :=
      signalled_exits running removed waiting (Nat.succ_pos _) pending
    refine ⟨.weakup worker :: labels, final, ?_, exits⟩
    rw [exec, woke]
    exact ran
  · rw [waiting] at draining
    cases draining

/-- A worker behind the test pushes its task, which the loop then runs. -/
theorem passed_exits (running : state.exited = false) (removed : state.conn.Removed)
    (waiting : state.loop = .waiting) {worker : Worker} {data : Block}
    (passed : state.senders worker = .passed data) :
    ∃ labels final, exec step state labels = some final ∧ final.exited = true := by
  have pushed : state.step (.add worker) = some { state with
      senders := Function.update state.senders worker .added
      tasks := state.tasks ++ [data] } := by
    rw [step_running running]
    unfold act
    simp only [passed, waiting]
  obtain ⟨labels, final, ran, exits⟩ : ∃ labels final, exec step { state with
      senders := Function.update state.senders worker .added
      tasks := state.tasks ++ [data] } labels = some final ∧ final.exited = true :=
    pending_exits running removed waiting
      (fun _ => .inr (.inl ⟨worker, Function.update_self ..⟩)) (by simp)
  refine ⟨.add worker :: labels, final, ?_, exits⟩
  rw [exec, pushed]
  exact ran

/-- **After a close every continuation is harmless exactly when the close came in a quiet state.** -/
theorem close_harmless_iff (live : conn.Live) (reach : Reachable step (start conn) state)
    {label : RaceLabel Worker} (took : state.step label = some next)
    (closes : Closes state next) :
    (∀ labels, Always step Harmless next labels) ↔ state.Quiet := by
  obtain ⟨woken, kinds⟩ := sound_reachable live reach
  have running : state.exited = false := by
    cases exited : state.exited with
    | false => rfl
    | true =>
        unfold step at took
        rw [if_pos exited] at took
        cases took
  have connected : state.conn.Live := by
    rcases kinds running with connected | gone
    · exact connected
    · exact absurd closes.1 gone.not_connected
  obtain ⟨runs, stays | ⟨removed, waiting, frame⟩⟩ := raceStep_live running connected took
  · have wrong := closes.2
    rw [stays.connected] at wrong
    cases wrong
  · have waitingNext : next.loop = .waiting := by
      rw [frame]
      exact waiting
    have sameTasks : next.tasks = state.tasks := by rw [frame]
    have sameSenders : next.senders = state.senders := by rw [frame]
    constructor
    · intro harmless
      have noExit : ¬ ∃ labels final, exec step next labels = some final ∧ final.exited = true := by
        rintro ⟨labels, final, ran, exits⟩
        have stays := ((harmless labels).last ran).1
        rw [exits] at stays
        cases stays
      refine ⟨?_, fun worker data passed => ?_⟩
      · by_contra pending
        rw [← sameTasks] at pending
        exact noExit (pending_exits runs removed waitingNext (woken_step woken took) pending)
      · rw [← sameSenders] at passed
        exact noExit (passed_exits runs removed waitingNext passed)
    · intro quiet labels
      have gone : next.Gone := by
        refine ⟨runs, removed, ?_⟩
        unfold Quiet
        rw [sameTasks, sameSenders]
        exact quiet
      have stays : Always step Gone next labels :=
        always_of_step (fun _ _ _ gone took => gone_step gone took) gone labels
      exact stays.mono fun _ gone => ⟨gone.1, fun _ => gone.2.1.absent⟩

end Pending

/-- **When a disconnect racing with sends is harmless.** Any number of workers send on a connection
whose loop handles its events. A run that closes the connection only in quiet states, with no task
queued and no worker between test and push, never exits and never registers the descriptor again.
After a close in any state that a run reaches, every continuation is harmless exactly when that
state was quiet. -/
theorem disconnect_harmless_iff [DecidableEq Worker] {conn : Connect} (live : conn.Live) :
    (∀ labels : List (RaceLabel Worker), Along step QuietClose (start conn) labels →
      Always step Harmless (start conn) labels) ∧
    (∀ state next : Race Worker, Reachable step (start conn) state →
      ∀ label, state.step label = some next → Closes state next →
        ((∀ labels, Always step Harmless next labels) ↔ state.Quiet)) :=
  ⟨fun _ quiet => quiet_run_harmless live quiet,
    fun _ _ reach _ took closes => close_harmless_iff live reach took closes⟩

/-- A close of the quiet connection of the runs above, with one worker. -/
theorem disconnect_harmless_iff_quiet :
    Always step Harmless (start quietConnect : Race Unit) [.onClose, .test () ⟨[104], by decide⟩] := by
  refine (disconnect_harmless_iff quietConnect_live).1 _ fun next took => ?_
  have idle : Quiet (start quietConnect : Race Unit) := ⟨rfl, fun _ _ passed => by cases passed⟩
  refine ⟨fun _ _ _ => idle, fun _ _ => ⟨fun _ _ closes => ?_, trivial⟩⟩
  cases took
  cases closes.1

/-- **A worker tests, the peer closes, the worker's task runs**: `exit(-1)`. -/
theorem close_before_task_exits :
    ¬ Always step Harmless (start quietConnect : Race Unit)
      [.test () ⟨[104], by decide⟩, .onClose, .add (), .weakup (), .wake, .runTask] := by
  have run : (exec step (start quietConnect : Race Unit)
      [.test () ⟨[104], by decide⟩, .onClose, .add (), .weakup (), .wake, .runTask]).map
        exited = some true := by
    rfl
  obtain ⟨final, ran, exits⟩ := Option.map_eq_some_iff.mp run
  intro harmless
  have stays := (harmless.last ran).1
  rw [exits] at stays
  cases stays

end Race

end IkunSvr
