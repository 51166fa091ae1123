/-
**The idle sweep of a sub-loop.**

`handle_timer` walks through `_conns`, calls `_timer_cb` for a connection that has timed out and
erases it. `erase` returns the iterator of the next entry, and the header of the loop then moves on
once more: the next entry is not looked at, and behind the last entry there is nothing to move to.

* `sweep_spaced` — where every idle connection has a fresh one right behind it, the sweep calls
  `_timer_cb` for the idle ones and keeps the fresh ones;
* `spaced_of_sweep` — a sweep that keeps the fresh ones and no others was of such a map;
* `handle_timer_evicts_iff` — **the sweep evicts exactly the idle connections exactly when every
  idle connection has a fresh one right behind it**;
* `sweep_keeps_second`, `sweep_past_end` — two idle connections side by side, and an idle one at the
  end.
-/

import IkunSvr.Net.Connect
import Mathlib.Data.List.Pairwise

namespace IkunSvr

/-- `connect::time_out`. -/
def Connect.timeOut (conn : Connect) (now judge : Int) : Bool :=
  now - conn.lastAtTime > judge

/-- `eventloop::_conns`: the entries of a `std::map`, in the order of their keys. -/
structure ConnMap where
  entries : List (Int × Connect)
  sorted : (entries.map Prod.fst).Pairwise (· < ·)

namespace ConnMap

/-- The loop of `handle_timer` from some iterator on: the descriptors `_timer_cb` is called with, and
the entries that are left. `none` is an iterator moved past the end, which is undefined. -/
def sweep (now judge : Int) : List (Int × Connect) → Option (List Int × List (Int × Connect))
  | [] => some ([], [])
  | (fd, conn) :: rest =>
      if conn.timeOut now judge then
        -- `erase` returns the iterator of `next`, and `++it` moves on behind it
        match rest with
        | [] => none
        | next :: rest => (sweep now judge rest).map fun out => (fd :: out.1, next :: out.2)
      else (sweep now judge rest).map fun out => (out.1, (fd, conn) :: out.2)

/-- What is left is part of what was there. -/
theorem sweep_sublist {now judge : Int} {entries left : List (Int × Connect)} {called : List Int}
    (swept : sweep now judge entries = some (called, left)) : left.Sublist entries := by
  fun_induction sweep now judge entries generalizing called left with
  | case1 =>
      cases swept
      exact .slnil
  | case2 fd conn idle => cases swept
  | case3 fd conn idle next rest ih =>
      obtain ⟨out, later, same⟩ := Option.map_eq_some_iff.mp swept
      cases same
      exact .cons _ (.cons_cons next (ih later))
  | case4 fd conn rest fresh ih =>
      obtain ⟨out, later, same⟩ := Option.map_eq_some_iff.mp swept
      cases same
      exact .cons_cons _ (ih later)

/-- `eventloop::handle_timer` of a sub-loop, behind `timerfd_settime`: the descriptors `_timer_cb` is
called with, and `_conns` after it. -/
def handleTimer (now judge : Int) (conns : ConnMap) : Option (List Int × ConnMap) :=
  match swept : sweep now judge conns.entries with
  | none => none
  | some (called, left) =>
      some (called, ⟨left, conns.sorted.sublist ((sweep_sublist swept).map Prod.fst)⟩)

/-! ### Idle and fresh connections -/

section Sweep

variable (now judge : Int)

/-- The entries whose connection has timed out. -/
def idle (entries : List (Int × Connect)) : List (Int × Connect) :=
  entries.filter fun entry => entry.2.timeOut now judge

/-- The entries whose connection has not. -/
def fresh (entries : List (Int × Connect)) : List (Int × Connect) :=
  entries.filter fun entry => !entry.2.timeOut now judge

/-- Every idle connection has a fresh one right behind it. -/
def Spaced (entries : List (Int × Connect)) : Prop :=
  ∀ before entry behind, entries = before ++ entry :: behind →
    entry.2.timeOut now judge = true →
      ∃ next rest, behind = next :: rest ∧ next.2.timeOut now judge = false

/-- `handle_timer` returns, has called `_timer_cb` once for each idle connection and for no other,
and leaves the fresh ones. -/
def EvictsIdle (conns : ConnMap) : Prop :=
  ∃ called left, handleTimer now judge conns = some (called, left) ∧ called.Nodup ∧
    (∀ fd, fd ∈ called ↔ ∃ conn, (fd, conn) ∈ conns.entries ∧ conn.timeOut now judge = true) ∧
    left.entries = fresh now judge conns.entries

variable {now judge} {entry : Int × Connect} {entries : List (Int × Connect)}

theorem spaced_nil : Spaced now judge [] := by
  intro before entry behind split
  simp at split

/-- The condition on the first entry, and on the rest. -/
theorem spaced_cons :
    Spaced now judge (entry :: entries) ↔
      (entry.2.timeOut now judge = true →
        ∃ next rest, entries = next :: rest ∧ next.2.timeOut now judge = false) ∧
      Spaced now judge entries := by
  constructor
  · intro spaced
    refine ⟨spaced [] entry entries rfl, fun before other behind split => ?_⟩
    apply spaced (entry :: before) other behind
    rw [split, List.cons_append]
  · rintro ⟨here, later⟩ before other behind split
    cases before with
    | nil =>
        obtain ⟨rfl, rfl⟩ := List.cons.inj split
        exact here
    | cons first before => exact later before other behind (List.cons.inj split).2

theorem fresh_cons_idle (old : entry.2.timeOut now judge = true) :
    fresh now judge (entry :: entries) = fresh now judge entries := by
  simp [fresh, old]

theorem fresh_cons_fresh (new : entry.2.timeOut now judge = false) :
    fresh now judge (entry :: entries) = entry :: fresh now judge entries := by
  simp [fresh, new]

theorem idle_cons_idle (old : entry.2.timeOut now judge = true) :
    idle now judge (entry :: entries) = entry :: idle now judge entries := by
  simp [idle, old]

theorem idle_cons_fresh (new : entry.2.timeOut now judge = false) :
    idle now judge (entry :: entries) = idle now judge entries := by
  simp [idle, new]

/-! ### The walk -/

/-- **Where every idle connection has a fresh one right behind it**, the sweep finds them all. -/
theorem sweep_spaced (spaced : Spaced now judge entries) :
    sweep now judge entries =
      some ((idle now judge entries).map Prod.fst, fresh now judge entries) := by
  fun_induction sweep now judge entries with
  | case1 => rfl
  | case2 fd conn old =>
      obtain ⟨next, rest, absent, -⟩ := (spaced_cons.mp spaced).1 old
      cases absent
  | case3 fd conn old next rest ih =>
      obtain ⟨here, later⟩ := spaced_cons.mp spaced
      obtain ⟨_, _, same, new⟩ := here old
      obtain ⟨rfl, rfl⟩ := List.cons.inj same
      rw [ih (spaced_cons.mp later).2, idle_cons_idle old, fresh_cons_idle old, idle_cons_fresh new,
        fresh_cons_fresh new]
      rfl
  | case4 fd conn rest new ih =>
      have new := Bool.eq_false_of_not_eq_true new
      rw [ih (spaced_cons.mp spaced).2, idle_cons_fresh new, fresh_cons_fresh new]
      rfl

/-- **A sweep that leaves the fresh connections** was of entries spaced like that: the entry that
is not looked at is kept, so it has to be fresh. -/
theorem spaced_of_sweep {called : List Int}
    (swept : sweep now judge entries = some (called, fresh now judge entries)) :
    Spaced now judge entries := by
  fun_induction sweep now judge entries generalizing called with
  | case1 => exact spaced_nil
  | case2 fd conn old => cases swept
  | case3 fd conn old next rest ih =>
      obtain ⟨out, later, same⟩ := Option.map_eq_some_iff.mp swept
      have kept : next :: out.2 = fresh now judge ((fd, conn) :: next :: rest) :=
        congrArg Prod.snd same
      have new : next.2.timeOut now judge = false := by
        have member : next ∈ fresh now judge ((fd, conn) :: next :: rest) := by
          rw [← kept]
          exact List.mem_cons_self
        simpa using (List.mem_filter.mp member).2
      rw [fresh_cons_idle old, fresh_cons_fresh new] at kept
      have rest : sweep now judge rest = some (out.1, fresh now judge rest) := by
        rw [later, ← (List.cons.inj kept).2]
      exact spaced_cons.mpr ⟨fun _ => ⟨next, _, rfl, new⟩,
        spaced_cons.mpr ⟨fun old => absurd old (by simp [new]), ih rest⟩⟩
  | case4 fd conn rest new ih =>
      have new := Bool.eq_false_of_not_eq_true new
      obtain ⟨out, later, same⟩ := Option.map_eq_some_iff.mp swept
      have kept : (fd, conn) :: out.2 = fresh now judge ((fd, conn) :: rest) :=
        congrArg Prod.snd same
      rw [fresh_cons_fresh new] at kept
      have rest : sweep now judge rest = some (out.1, fresh now judge rest) := by
        rw [later, ← (List.cons.inj kept).2]
      exact spaced_cons.mpr ⟨fun old => absurd old (by simp [new]), ih rest⟩

/-- `handle_timer` returns when the walk does. -/
theorem handleTimer_eq_some {conns left : ConnMap} {called : List Int} :
    handleTimer now judge conns = some (called, left) ↔
      sweep now judge conns.entries = some (called, left.entries) := by
  unfold handleTimer
  constructor
  · intro ended
    split at ended
    · cases ended
    · rename_i called' left' swept
      cases ended
      exact swept
  · intro walked
    split
    · rename_i missed
      rw [missed] at walked
      cases walked
    · rename_i called' left' swept
      rw [swept] at walked
      cases walked
      rfl

theorem mem_idle {fd : Int} :
    fd ∈ (idle now judge entries).map Prod.fst ↔
      ∃ conn, (fd, conn) ∈ entries ∧ conn.timeOut now judge = true := by
  simp [idle]

/-- **When the idle sweep evicts exactly the idle connections.** For every map of connections, every
time and every `_time_out`. -/
theorem handle_timer_evicts_iff (now judge : Int) (conns : ConnMap) :
    EvictsIdle now judge conns ↔ Spaced now judge conns.entries := by
  constructor
  · rintro ⟨called, left, ended, -, -, kept⟩
    rw [handleTimer_eq_some, kept] at ended
    exact spaced_of_sweep ended
  · intro spaced
    have sub : (fresh now judge conns.entries).Sublist conns.entries := List.filter_sublist
    have once : ((idle now judge conns.entries).map Prod.fst).Nodup := by
      have part : (idle now judge conns.entries).Sublist conns.entries := List.filter_sublist
      exact (conns.sorted.sublist (part.map Prod.fst)).imp fun less => ne_of_lt less
    exact ⟨_, ⟨_, conns.sorted.sublist (sub.map Prod.fst)⟩,
      handleTimer_eq_some.mpr (sweep_spaced spaced), once, fun fd => mem_idle, rfl⟩

end Sweep

/-- A connection that sent its last message at the given time. -/
def lastHeard (lastAtTime : Int) : Connect where
  cchnl := { chnl := { fd := 7 }, interest := fun _ => none }
  lastAtTime := lastAtTime

/-- **Two idle connections side by side**: the second one stays, and `_timer_cb` is not called for
it. -/
theorem sweep_keeps_second :
    ¬ EvictsIdle 100 80 ⟨[(5, lastHeard 0), (6, lastHeard 0), (7, lastHeard 90)], by simp⟩ := by
  rintro ⟨called, left, ended, -, each, -⟩
  rw [handleTimer_eq_some] at ended
  have walked : sweep 100 80 [(5, lastHeard 0), (6, lastHeard 0), (7, lastHeard 90)] =
      some ([5], [(6, lastHeard 0), (7, lastHeard 90)]) := rfl
  rw [walked] at ended
  obtain ⟨rfl, -⟩ := Prod.mk.inj (Option.some.inj ended)
  have missed : (6 : Int) ∈ [5] := (each 6).mpr ⟨lastHeard 0, by simp, rfl⟩
  simp at missed

/-- **An idle connection at the end**: the iterator is moved past the end. -/
theorem sweep_past_end :
    handleTimer 100 80 ⟨[(5, lastHeard 90), (6, lastHeard 0)], by simp⟩ = none := rfl

end ConnMap

end IkunSvr
