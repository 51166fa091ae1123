/-
**`net/channel` and `net/poller`: a channel and its registration with epoll.**

The kernel's side is the interest list of one epoll instance (`InterestList`) and `epollCtl`. A
`Watch` is a channel together with the interest list of its loop's epoll instance; the mutators of
`channel.cc` go through `poller::update` and `poller::remove`, which exit on a rejected `epoll_ctl`.

* `update_synced` — as long as `_in_ep` says whether the descriptor is registered (`Synced`),
  `update` is accepted, and afterwards the registered mask is `evs()`;
* `update_lost` — with `_in_ep` set and the descriptor not registered, `update` exits;
* `remove_synced` — `channel::remove` succeeds, and leaves exactly that state: `_in_ep` stays set;
* `calls_follow_iff` — which call sequences keep the registration in step with the channel.
-/

import Mathlib.Logic.Function.Basic
import IkunSvr.Lib.Run
import IkunSvr.Memory

namespace IkunSvr

/-! ### epoll -/

/-- An event mask, `uint32_t`. -/
abbrev Mask := BitVec 32

def epollIn : Mask := 0x001#32
def epollOut : Mask := 0x004#32
def epollEt : Mask := 0x80000000#32

/-- The descriptors an epoll instance watches, and with which mask. -/
abbrev InterestList := Nat → Option Mask

/-- The operations of `epoll_ctl`. -/
inductive CtlOp
  | add
  | mod
  | del
  deriving DecidableEq, Repr

/-- `::epoll_ctl`; `none` is the result `-1`: a second `ADD` of a descriptor (`EEXIST`), a `MOD` or
`DEL` of one that is not registered (`ENOENT`). -/
def epollCtl (list : InterestList) (op : CtlOp) (fd : Nat) (events : Mask) : Option InterestList :=
  match op, list fd with
  | .add, none => some (Function.update list fd (some events))
  | .mod, some _ => some (Function.update list fd (some events))
  | .del, some _ => some (Function.update list fd none)
  | _, _ => none

/-! ### The classes -/

/-- `class channel`: `_fd`, `_in_ep` and `_evs`. -/
structure Channel where
  fd : Nat
  inEp : Bool := false
  evs : Mask := 0
  deriving DecidableEq, Repr

/-- A channel and the interest list of `_loop->ep()`. -/
structure Watch where
  chnl : Channel
  interest : InterestList

/-- `poller::update`. -/
def Poller.update (watch : Watch) : Except Stop Watch :=
  if watch.chnl.inEp then
    match epollCtl watch.interest .mod watch.chnl.fd watch.chnl.evs with
    | none => .error .exit
    | some interest => .ok { watch with interest := interest }
  else
    match epollCtl watch.interest .add watch.chnl.fd watch.chnl.evs with
    | none => .error .exit
    | some interest => .ok { chnl := { watch.chnl with inEp := true }, interest := interest }

/-- `poller::remove`. -/
def Poller.remove (watch : Watch) : Except Stop Watch :=
  if watch.chnl.inEp then
    match epollCtl watch.interest .del watch.chnl.fd 0 with
    | none => .error .exit
    | some interest => .ok { watch with interest := interest }
  else .ok watch

namespace Watch

/-- Assign `_evs`. -/
def setEvs (watch : Watch) (evs : Mask) : Watch :=
  { watch with chnl := { watch.chnl with evs := evs } }

/-- `channel::use_et`. -/
def useEt (watch : Watch) : Watch :=
  watch.setEvs (watch.chnl.evs ||| epollEt)

/-- `channel::enable_read`. -/
def enableRead (watch : Watch) : Except Stop Watch :=
  Poller.update (watch.setEvs (watch.chnl.evs ||| epollIn))

/-- `channel::disenable_read`. -/
def disenableRead (watch : Watch) : Except Stop Watch :=
  Poller.update (watch.setEvs (watch.chnl.evs &&& ~~~epollIn))

/-- `channel::enable_write`. -/
def enableWrite (watch : Watch) : Except Stop Watch :=
  Poller.update (watch.setEvs (watch.chnl.evs ||| epollOut))

/-- `channel::disenable_write`. -/
def disenableWrite (watch : Watch) : Except Stop Watch :=
  Poller.update (watch.setEvs (watch.chnl.evs &&& ~~~epollOut))

/-- `channel::disable_all`. -/
def disableAll (watch : Watch) : Except Stop Watch :=
  Poller.update (watch.setEvs 0)

/-- `channel::remove`. -/
def remove (watch : Watch) : Except Stop Watch := do
  let disabled ← watch.disableAll
  Poller.remove disabled

/-! ### What the kernel has of a channel -/

/-- The mask the descriptor is registered with. -/
def registered (watch : Watch) : Option Mask :=
  watch.interest watch.chnl.fd

/-- `in_ep()` says whether the descriptor is in the interest list. -/
def Synced (watch : Watch) : Prop :=
  watch.chnl.inEp = true ↔ watch.registered.isSome

/-- **The registration follows the channel**: `in_ep()` is exact, and the registered mask is
`evs()`. -/
structure Follows (watch : Watch) : Prop where
  synced : watch.Synced
  mask : ∀ events, watch.registered = some events → events = watch.chnl.evs

/-- A channel as constructed, on a loop that does not watch its descriptor. -/
structure Fresh (watch : Watch) : Prop where
  chnl : watch.chnl = { fd := watch.chnl.fd }
  absent : watch.registered = none

theorem Fresh.follows {watch : Watch} (fresh : watch.Fresh) : watch.Follows := by
  refine ⟨?_, ?_⟩
  · unfold Synced
    rw [fresh.chnl, fresh.absent]
    simp
  · intro events found
    rw [fresh.absent] at found
    cases found

/-- The channel registered with its own mask. -/
def enlisted (watch : Watch) : Watch where
  chnl := { watch.chnl with inEp := true }
  interest := Function.update watch.interest watch.chnl.fd (some watch.chnl.evs)

theorem enlisted_registered (watch : Watch) :
    watch.enlisted.registered = some watch.enlisted.chnl.evs :=
  Function.update_self _ _ _

theorem enlisted_follows (watch : Watch) : watch.enlisted.Follows := by
  refine ⟨?_, ?_⟩
  · unfold Synced
    rw [enlisted_registered]
    exact ⟨fun _ => rfl, fun _ => rfl⟩
  · intro events found
    rw [enlisted_registered] at found
    cases found
    rfl

/-- A channel the kernel no longer has, whose `_in_ep` is still set. -/
def struck (watch : Watch) : Watch where
  chnl := { watch.chnl with inEp := true, evs := 0 }
  interest := Function.update watch.interest watch.chnl.fd none

theorem struck_registered (watch : Watch) : watch.struck.registered = none :=
  Function.update_self _ _ _

theorem struck_not_synced (watch : Watch) : ¬ watch.struck.Synced := by
  intro synced
  have found := synced.mp rfl
  rw [struck_registered] at found
  cases found

/-! ### What the calls do -/

theorem setEvs_synced {watch : Watch} {evs : Mask} : (watch.setEvs evs).Synced ↔ watch.Synced :=
  Iff.rfl

/-- **An update in step is accepted**: `ADD` when absent, `MOD` when present. -/
theorem update_synced {watch : Watch} (synced : watch.Synced) :
    Poller.update watch = .ok watch.enlisted := by
  obtain ⟨⟨fd, inEp, evs⟩, interest⟩ := watch
  unfold Synced registered at synced
  simp only at synced
  unfold Poller.update epollCtl
  cases found : interest fd with
  | none =>
      rw [found] at synced
      have absent : inEp = false := by simpa using synced
      subst absent
      simp only [found]
      rfl
  | some events =>
      rw [found] at synced
      have present : inEp = true := by simpa using synced
      subst present
      simp only [found]
      rfl

/-- **An update out of step exits**: the `MOD` of a descriptor that is not registered. -/
theorem update_lost {watch : Watch} (flagged : watch.chnl.inEp = true)
    (absent : watch.registered = none) : Poller.update watch = .error .exit := by
  unfold registered at absent
  unfold Poller.update epollCtl
  rw [if_pos flagged, absent]

/-- **`channel::remove`** takes the descriptor out of the interest list and leaves `_in_ep` set. -/
theorem remove_synced {watch : Watch} (synced : watch.Synced) : watch.remove = .ok watch.struck := by
  unfold remove disableAll
  rw [update_synced (setEvs_synced.mpr synced)]
  simp only [bind, Except.bind]
  unfold Poller.remove epollCtl
  have present : (watch.setEvs 0).enlisted.interest (watch.setEvs 0).enlisted.chnl.fd = some 0 :=
    enlisted_registered _
  rw [if_pos (show (watch.setEvs 0).enlisted.chnl.inEp = true from rfl), present]
  simp only [enlisted, struck, setEvs, Function.update_idem]

end Watch

/-! ### Sequences of calls -/

/-- The calls that change a channel's events. -/
inductive ChannelCall
  | useEt
  | enableRead
  | disenableRead
  | enableWrite
  | disenableWrite
  | disableAll
  | remove
  deriving DecidableEq, Repr

/-- One call. -/
def ChannelCall.run (watch : Watch) : ChannelCall → Except Stop Watch
  | .useEt => .ok watch.useEt
  | .enableRead => watch.enableRead
  | .disenableRead => watch.disenableRead
  | .enableWrite => watch.enableWrite
  | .disenableWrite => watch.disenableWrite
  | .disableAll => watch.disableAll
  | .remove => watch.remove

/-- A call is made as long as the process has not exited. -/
def channelStep : Except Stop Watch → ChannelCall → Option (Except Stop Watch)
  | .ok watch, call => some (call.run watch)
  | .error _, _ => none

/-- The process runs, and the registration follows the channel. -/
def InStep : Except Stop Watch → Prop
  | .ok watch => watch.Follows
  | .error _ => False

/-- The calls that keep the registration in step: no `remove`, and `use_et` only where it changes
no registered mask. -/
def KeepsStep : Except Stop Watch → ChannelCall → Prop
  | .ok _, .remove => False
  | .ok watch, .useEt => watch.chnl.inEp = false ∨ watch.chnl.evs ||| epollEt = watch.chnl.evs
  | _, _ => True

/-- `use_et` on a registered channel changes `evs()` and not the registered mask. -/
theorem useEt_follows_iff {watch : Watch} (follows : watch.Follows) :
    watch.useEt.Follows ↔
      watch.chnl.inEp = false ∨ watch.chnl.evs ||| epollEt = watch.chnl.evs := by
  constructor
  · intro after
    cases flagged : watch.chnl.inEp with
    | false => exact Or.inl rfl
    | true =>
        right
        obtain ⟨events, found⟩ := Option.isSome_iff_exists.mp (follows.synced.mp flagged)
        have before := follows.mask events found
        have later : events = watch.chnl.evs ||| epollEt := after.mask events found
        rw [← later, before]
  · intro unchanged
    refine ⟨Watch.setEvs_synced.mpr follows.synced, fun events found => ?_⟩
    have found : watch.registered = some events := found
    show events = watch.chnl.evs ||| epollEt
    rcases unchanged with unregistered | same
    · have present := follows.synced.mpr (by rw [found]; rfl)
      rw [unregistered] at present
      cases present
    · rw [same]
      exact follows.mask events found

/-- One call from a channel in step leaves it in step exactly when it is one of `KeepsStep`. -/
theorem run_inStep_iff {watch : Watch} (follows : watch.Follows) (call : ChannelCall) :
    InStep (call.run watch) ↔ KeepsStep (.ok watch) call := by
  have updates : ∀ evs, InStep (Poller.update (watch.setEvs evs)) := by
    intro evs
    rw [Watch.update_synced (Watch.setEvs_synced.mpr follows.synced)]
    exact Watch.enlisted_follows _
  cases call with
  | useEt => exact useEt_follows_iff follows
  | enableRead => exact ⟨fun _ => trivial, fun _ => updates _⟩
  | disenableRead => exact ⟨fun _ => trivial, fun _ => updates _⟩
  | enableWrite => exact ⟨fun _ => trivial, fun _ => updates _⟩
  | disenableWrite => exact ⟨fun _ => trivial, fun _ => updates _⟩
  | disableAll => exact ⟨fun _ => trivial, fun _ => updates _⟩
  | remove =>
      have removed : ChannelCall.run watch .remove = .ok watch.struck :=
        Watch.remove_synced follows.synced
      rw [removed]
      exact ⟨fun after => watch.struck_not_synced after.synced, False.elim⟩

/-- **When the registration follows the channel.** From a channel as constructed, the registration
is in step with the channel after every call of a sequence, and the process runs on, exactly when
no call of it is `remove` and each `use_et` changes no registered mask. -/
theorem calls_follow_iff {watch : Watch} (fresh : watch.Fresh) (calls : List ChannelCall) :
    Run.Always channelStep InStep (.ok watch) calls ↔
      Run.Along channelStep KeepsStep (.ok watch) calls := by
  refine Run.always_iff_along (fun state call next good took => ?_) fresh.follows
  cases state with
  | error stop => exact good.elim
  | ok watch =>
      cases took
      exact run_inStep_iff good call

/-- The calls of `connect`'s constructor, then arming and disarming output. -/
theorem calls_follow_connect :
    Run.Always channelStep InStep (.ok { chnl := { fd := 7 }, interest := fun _ => none })
      [.useEt, .enableRead, .enableWrite, .disenableWrite] :=
  (calls_follow_iff ⟨rfl, rfl⟩ _).mpr (by
    simp only [Run.Along, KeepsStep, and_true, true_and]
    intro next took
    cases took
    exact ⟨Or.inl trivial, fun _ _ _ _ _ _ => trivial⟩)

/-- **`remove` loses the registration**: the next `enable_write` is a `MOD` of a descriptor that is
not registered, and the process exits. -/
theorem remove_then_enableWrite_exits :
    ¬ Run.Always channelStep InStep (.ok { chnl := { fd := 7 }, interest := fun _ => none })
        [.useEt, .enableRead, .remove, .enableWrite] ∧
      Run.exec channelStep (.ok { chnl := { fd := 7 }, interest := fun _ => none })
        [.useEt, .enableRead, .remove, .enableWrite] = some (.error .exit) := by
  have exits : Run.exec channelStep (.ok { chnl := { fd := 7 }, interest := fun _ => none })
      [.useEt, .enableRead, .remove, .enableWrite] = some (.error .exit) := rfl
  exact ⟨fun always => always.last exits, exits⟩

end IkunSvr
