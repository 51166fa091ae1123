/-
**A sub-loop and its idle sweeps.**

Only `handle_timer` erases from `_conns` of a sub-loop, so a connection that was closed is swept as
one that is silent. `SweepLoop` is the table, to which `new_conn` adds, in which `on_msg` notes when a
message came, and which the sweeps go through; `none` is the state behind an iterator that was moved
past the end.

* `trailing` — how many connections there are behind the last fresh one, all idle then;
  `trailing_fresh`, `trailing_pair` — its parity goes through the sweep;
* `called_iff` — an idle connection is evicted exactly if an even number of idle ones stand right
  before it;
* `sweep_eq_none` — **the sweep moves past the end exactly if that number is odd at the end**;
* `stays_inside_iff` — when a run of a sub-loop stays inside its table;
* `silent_sweeps` — **a table of which nobody is heard any more lasts as many sweeps as its size can
  be halved**.
-/

import IkunSvr.Lib.Run
import IkunSvr.Loop.Sweep
import Mathlib.Algebra.Ring.Parity
import Mathlib.Data.List.DropRight
import Mathlib.Data.Nat.Log

namespace IkunSvr

open Run

namespace ConnMap

variable {now judge : Int} {entry next : Int × Connect} {entries left : List (Int × Connect)}

/-! ### The idle connections at the end -/

/-- How many idle entries there are behind the last fresh one. -/
def trailing (now judge : Int) (entries : List (Int × Connect)) : ℕ :=
  (entries.rtakeWhile fun entry => entry.2.timeOut now judge).length

theorem trailing_all (old : ∀ entry ∈ entries, entry.2.timeOut now judge = true) :
    trailing now judge entries = entries.length := by
  unfold trailing
  rw [List.rtakeWhile_eq_self_iff.mpr old]

theorem trailing_cons : trailing now judge (entry :: entries) =
    if (∀ other ∈ entries, other.2.timeOut now judge = true) ∧ entry.2.timeOut now judge = true then
      entries.length + 1
    else trailing now judge entries := by
  unfold trailing List.rtakeWhile
  rw [List.reverse_cons, List.takeWhile_append]
  by_cases all : ∀ other ∈ entries, other.2.timeOut now judge = true
  · have whole : (entries.reverse.takeWhile fun other => other.2.timeOut now judge) =
        entries.reverse :=
      List.takeWhile_eq_self_iff.mpr fun other member => all other (List.mem_reverse.mp member)
    rw [whole, if_pos rfl]
    by_cases old : entry.2.timeOut now judge = true
    · rw [if_pos ⟨all, old⟩]
      simp [old]
    · rw [if_neg fun both => old both.2]
      simp [old]
  · have part : (entries.reverse.takeWhile fun other => other.2.timeOut now judge).length ≠
        entries.reverse.length := by
      intro same
      have whole := (List.takeWhile_sublist _).eq_of_length same
      exact all fun other member =>
        List.takeWhile_eq_self_iff.mp whole other (List.mem_reverse.mpr member)
    rw [if_neg part, if_neg fun both => all both.1]

theorem trailing_nil : trailing now judge [] = 0 :=
  rfl

/-- A fresh entry in front counts for nothing. -/
theorem trailing_fresh (new : entry.2.timeOut now judge = false) :
    trailing now judge (entry :: entries) = trailing now judge entries := by
  rw [trailing_cons, if_neg]
  rintro ⟨-, old⟩
  rw [new] at old
  cases old

/-- **An idle entry in front, and the next one, leave the parity as it is.** -/
theorem trailing_pair (old : entry.2.timeOut now judge = true) :
    Even (trailing now judge (entry :: next :: entries)) ↔ Even (trailing now judge entries) := by
  by_cases new : next.2.timeOut now judge = false
  · have some_fresh : ¬ ∀ other ∈ next :: entries, other.2.timeOut now judge = true := fun all => by
      rw [all next List.mem_cons_self] at new
      cases new
    rw [trailing_cons, if_neg fun both => some_fresh both.1, trailing_fresh new]
  · have later := Bool.eq_true_of_not_eq_false new
    rw [trailing_cons, trailing_cons]
    by_cases all : ∀ other ∈ entries, other.2.timeOut now judge = true
    · rw [if_pos ⟨List.forall_mem_cons.mpr ⟨later, all⟩, old⟩, trailing_all all, List.length_cons,
        Nat.add_assoc, Nat.even_add]
      simp
    · rw [if_neg fun both => all (List.forall_mem_cons.mp both.1).2, if_neg fun both => all both.1]

/-! ### One sweep -/

/-- **The sweep moves past the end** exactly if the idle entries at the end are odd in number. -/
theorem sweep_eq_none :
    sweep now judge entries = none ↔ ¬ Even (trailing now judge entries) := by
  fun_induction sweep now judge entries with
  | case1 => simp [trailing_nil]
  | case2 fd conn old =>
      have one : trailing now judge [(fd, conn)] = 1 := by
        rw [trailing_cons, if_pos ⟨by simp, old⟩]
        rfl
      simp [one]
  | case3 fd conn old next rest ih =>
      rw [Option.map_eq_none_iff, ih, trailing_pair old]
  | case4 fd conn rest new ih =>
      rw [Option.map_eq_none_iff, ih, trailing_fresh (Bool.eq_false_of_not_eq_true new)]

/-- `_timer_cb` is called for some of the entries, in order. -/
theorem called_sublist {called : List Int} (swept : sweep now judge entries = some (called, left)) :
    called.Sublist (entries.map Prod.fst) := by
  fun_induction sweep now judge entries generalizing called left with
  | case1 =>
      cases swept
      exact .slnil
  | case2 fd conn old => cases swept
  | case3 fd conn old next rest ih =>
      obtain ⟨out, later, same⟩ := Option.map_eq_some_iff.mp swept
      cases same
      exact .cons_cons _ (.cons _ (ih later))
  | case4 fd conn rest new ih =>
      obtain ⟨out, later, same⟩ := Option.map_eq_some_iff.mp swept
      cases same
      exact .cons _ (ih later)

/-- **For whom `_timer_cb` is called**: those who are idle, and have an even number of idle entries
right before them. -/
theorem called_iff {called : List Int} (swept : sweep now judge entries = some (called, left))
    (keys : (entries.map Prod.fst).Nodup) {before behind : List (Int × Connect)}
    (split : entries = before ++ entry :: behind) :
    entry.1 ∈ called ↔ entry.2.timeOut now judge = true ∧ Even (trailing now judge before) := by
  fun_induction sweep now judge entries generalizing called left before with
  | case1 => simp at split
  | case2 fd conn old => cases swept
  | case3 fd conn old next rest ih =>
      obtain ⟨out, later, same⟩ := Option.map_eq_some_iff.mp swept
      cases same
      obtain ⟨first, more⟩ := List.nodup_cons.mp keys
      obtain ⟨second, others⟩ := List.nodup_cons.mp more
      have calls := (called_sublist later).subset
      rcases before with _ | ⟨idle, _ | ⟨skipped, before⟩⟩
      · -- the entry is the first one
        obtain ⟨rfl, -⟩ := List.cons.inj split
        simp [old, trailing_nil]
      · -- the entry is the one that is not looked at
        simp only [List.cons_append, List.nil_append, List.cons.injEq] at split
        obtain ⟨rfl, rfl, -⟩ := split
        have one : trailing now judge [(fd, conn)] = 1 := by
          rw [trailing_cons, if_pos ⟨by simp, old⟩]
          rfl
        rw [one]
        refine iff_of_false ?_ (by simp)
        rintro (_ | ⟨_, member⟩)
        · exact first List.mem_cons_self
        · exact second (calls member)
      · simp only [List.cons_append, List.cons.injEq] at split
        obtain ⟨rfl, rfl, tail⟩ := split
        have present : entry.1 ∈ rest.map Prod.fst := by
          rw [tail, List.map_append]
          exact List.mem_append_right _ List.mem_cons_self
        have apart : entry.1 ≠ fd := by
          intro same
          rw [same] at present
          exact first (List.mem_cons_of_mem _ present)
        rw [List.mem_cons, or_iff_right apart, ih later others tail, trailing_pair old]
  | case4 fd conn rest new ih =>
      obtain ⟨out, later, same⟩ := Option.map_eq_some_iff.mp swept
      cases same
      obtain ⟨first, others⟩ := List.nodup_cons.mp keys
      have fresh := Bool.eq_false_of_not_eq_true new
      rcases before with _ | ⟨earlier, before⟩
      · obtain ⟨rfl, -⟩ := List.cons.inj split
        exact iff_of_false (fun member => first ((called_sublist later).subset member))
          fun both => new both.1
      · obtain ⟨rfl, tail⟩ := List.cons.inj split
        rw [ih later others tail, trailing_fresh fresh]

/-- **What is left**: those for whom `_timer_cb` was not called. -/
theorem left_eq {called : List Int} (swept : sweep now judge entries = some (called, left))
    (keys : (entries.map Prod.fst).Nodup) :
    left = entries.filter fun entry => entry.1 ∉ called := by
  fun_induction sweep now judge entries generalizing called left with
  | case1 =>
      cases swept
      rfl
  | case2 fd conn old => cases swept
  | case3 fd conn old next rest ih =>
      obtain ⟨out, later, same⟩ := Option.map_eq_some_iff.mp swept
      cases same
      obtain ⟨first, more⟩ := List.nodup_cons.mp keys
      obtain ⟨second, others⟩ := List.nodup_cons.mp more
      have calls := (called_sublist later).subset
      have kept : next.1 ∉ fd :: out.1 := by
        rintro (_ | ⟨_, member⟩)
        · exact first List.mem_cons_self
        · exact second (calls member)
      have same : rest.filter (fun entry => decide (entry.1 ∉ fd :: out.1)) =
          rest.filter fun entry => decide (entry.1 ∉ out.1) := by
        refine List.filter_congr fun entry member => ?_
        have present : entry.1 ∈ rest.map Prod.fst := List.mem_map_of_mem member
        have apart : entry.1 ≠ fd := by
          intro same
          rw [same] at present
          exact first (List.mem_cons_of_mem _ present)
        simp [apart]
      rw [List.filter_cons_of_neg (by simp), List.filter_cons_of_pos (by simpa using kept), same,
        ← ih later others]
  | case4 fd conn rest new ih =>
      obtain ⟨out, later, same⟩ := Option.map_eq_some_iff.mp swept
      cases same
      obtain ⟨first, others⟩ := List.nodup_cons.mp keys
      have kept : fd ∉ out.1 := fun member => first ((called_sublist later).subset member)
      rw [List.filter_cons_of_pos (by simpa using kept), ← ih later others]

/-- **What a sweep does.** `handle_timer` stays inside the map exactly if the idle entries behind the
last fresh one are even in number. Then `_timer_cb` is called for an entry exactly if it is idle and
an even number of idle entries stand right before it, and the others are left. -/
theorem handle_timer_takes (now judge : Int) (conns : ConnMap) :
    ((∃ out, handleTimer now judge conns = some out) ↔ Even (trailing now judge conns.entries)) ∧
      ∀ called (left : ConnMap), handleTimer now judge conns = some (called, left) →
        (∀ before entry behind, conns.entries = before ++ entry :: behind →
          (entry.1 ∈ called ↔ entry.2.timeOut now judge = true ∧ Even (trailing now judge before))) ∧
        left.entries = conns.entries.filter fun entry => entry.1 ∉ called := by
  have keys : (conns.entries.map Prod.fst).Nodup := conns.sorted.imp fun less => ne_of_lt less
  constructor
  · rw [← not_iff_not, ← sweep_eq_none]
    constructor
    · intro missed
      refine Option.eq_none_iff_forall_ne_some.mpr fun out swept => missed ?_
      have sorted := conns.sorted.sublist ((sweep_sublist swept).map Prod.fst)
      exact ⟨(out.1, ⟨out.2, sorted⟩), handleTimer_eq_some.mpr swept⟩
    · rintro missed ⟨⟨called, left⟩, ended⟩
      rw [handleTimer_eq_some, missed] at ended
      cases ended
  · intro called left ended
    rw [handleTimer_eq_some] at ended
    exact ⟨fun before entry behind split => called_iff ended keys split, left_eq ended keys⟩

/-- Three idle entries in a row in front of a fresh one: the second stays. -/
theorem handle_timer_takes_three : ∃ left : ConnMap,
    handleTimer 100 80 ⟨[(5, lastHeard 0), (6, lastHeard 0), (7, lastHeard 0), (8, lastHeard 90)],
      by simp⟩ = some ([5, 7], left) ∧ left.entries = [(6, lastHeard 0), (8, lastHeard 90)] := by
  have run : ∃ left : ConnMap, handleTimer 100 80
      ⟨[(5, lastHeard 0), (6, lastHeard 0), (7, lastHeard 0), (8, lastHeard 90)], by simp⟩ =
        some ([5, 7], left) :=
    ⟨_, rfl⟩
  obtain ⟨left, ended⟩ := run
  exact ⟨left, ended, ((handle_timer_takes 100 80 _).2 _ _ ended).2⟩

/-! ### The table -/

/-- `_conns[fd] = conn` from some entry on. -/
def insertEntry (fd : Int) (conn : Connect) : List (Int × Connect) → List (Int × Connect)
  | [] => [(fd, conn)]
  | entry :: rest =>
      if fd < entry.1 then (fd, conn) :: entry :: rest
      else if fd = entry.1 then (fd, conn) :: rest
      else entry :: insertEntry fd conn rest

theorem mem_insertEntry {fd key : Int} {conn : Connect}
    (member : key ∈ (insertEntry fd conn entries).map Prod.fst) :
    key = fd ∨ key ∈ entries.map Prod.fst := by
  induction entries with
  | nil => simpa [insertEntry] using member
  | cons entry rest ih =>
      unfold insertEntry at member
      split at member
      · simpa using member
      · split at member
        · rw [List.map_cons, List.mem_cons] at member ⊢
          exact member.imp id .inr
        · rw [List.map_cons, List.mem_cons] at member ⊢
          rcases member with same | later
          · exact .inr (.inl same)
          · exact (ih later).imp id .inr

theorem insertEntry_sorted {fd : Int} {conn : Connect}
    (sorted : (entries.map Prod.fst).Pairwise (· < ·)) :
    ((insertEntry fd conn entries).map Prod.fst).Pairwise (· < ·) := by
  induction entries with
  | nil => simp [insertEntry]
  | cons entry rest ih =>
      obtain ⟨first, others⟩ := List.pairwise_cons.mp sorted
      unfold insertEntry
      split
      next below =>
        refine List.pairwise_cons.mpr ⟨fun key member => ?_, sorted⟩
        rcases List.mem_cons.mp member with rfl | later
        · exact below
        · exact below.trans (first key later)
      next above =>
        split
        next same =>
          refine List.pairwise_cons.mpr ⟨fun key member => ?_, others⟩
          rw [same]
          exact first key member
        next apart =>
          refine List.pairwise_cons.mpr ⟨fun key member => ?_, ih others⟩
          rcases mem_insertEntry member with rfl | later
          · show entry.1 < key
            omega
          · exact first key later

/-- `eventloop::new_conn`. -/
def insert (conns : ConnMap) (fd : Int) (conn : Connect) : ConnMap where
  entries := insertEntry fd conn conns.entries
  sorted := insertEntry_sorted conns.sorted

/-- `on_msg` of the connection under a key has picked a message. -/
def heard (conns : ConnMap) (fd now : Int) : ConnMap where
  entries := conns.entries.map fun entry =>
    if entry.1 = fd then (entry.1, { entry.2 with lastAtTime := now }) else entry
  sorted := by
    have keys : (conns.entries.map fun entry =>
        if entry.1 = fd then (entry.1, { entry.2 with lastAtTime := now }) else entry).map Prod.fst =
        conns.entries.map Prod.fst := by
      rw [List.map_map]
      refine List.map_congr_left fun entry _ => ?_
      simp only [Function.comp_apply]
      split <;> rfl
    rw [keys]
    exact conns.sorted

end ConnMap

/-! ### Runs -/

/-- What `handle_timer` of a sub-loop reads and writes. -/
structure SweepLoop where
  timeOut : Int
  conns : ConnMap

/-- What happens to the table. -/
inductive SweepLabel
  | newConn (fd : Int) (conn : Connect)
  | heard (fd now : Int)
  | sweep (now : Int)

namespace SweepLoop

open ConnMap

/-- A step; from `none`, where an iterator was moved past the end, there is none. -/
def step : Option SweepLoop → SweepLabel → Option (Option SweepLoop)
  | none, _ => none
  | some loop, .newConn fd conn => some (some { loop with conns := loop.conns.insert fd conn })
  | some loop, .heard fd now => some (some { loop with conns := loop.conns.heard fd now })
  | some loop, .sweep now =>
      some ((handleTimer now loop.timeOut loop.conns).map fun out => { loop with conns := out.2 })

/-- At a sweep, the idle connections behind the last fresh one are even in number. -/
def EvenTail : Option SweepLoop → SweepLabel → Prop
  | some loop, .sweep now => Even (trailing now loop.timeOut loop.conns.entries)
  | _, _ => True

/-- **When a sub-loop stays inside its table.** However connections come and messages are heard, the
sweeps of a run stay inside the table exactly if at each of them the idle connections behind the last
fresh one are even in number. -/
theorem stays_inside_iff (loop : SweepLoop) (labels : List SweepLabel) :
    Always step (fun state => state.isSome) (some loop) labels ↔
      Along step EvenTail (some loop) labels := by
  refine always_iff_along (fun state label next inside took => ?_) rfl
  obtain ⟨loop, rfl⟩ := Option.isSome_iff_exists.mp inside
  cases label with
  | newConn | heard =>
      cases took
      exact iff_of_true rfl trivial
  | sweep now =>
      cases took
      rw [Option.isSome_map, Option.isSome_iff_exists]
      exact (handle_timer_takes now loop.timeOut loop.conns).1

/-! ### Silence -/

/-- Nobody in the table has been heard of lately. -/
def Silent (loop : SweepLoop) (now : Int) : Prop :=
  ∀ entry ∈ loop.conns.entries, entry.2.timeOut now loop.timeOut = true

/-- A sweep of a silent table leaves one half of it. -/
theorem sweep_silent {now judge : Int} {entries left : List (Int × Connect)} {called : List Int}
    (silent : ∀ entry ∈ entries, entry.2.timeOut now judge = true)
    (swept : ConnMap.sweep now judge entries = some (called, left)) :
    entries.length = 2 * left.length := by
  fun_induction ConnMap.sweep now judge entries generalizing called left with
  | case1 =>
      cases swept
      rfl
  | case2 fd conn old => cases swept
  | case3 fd conn old next rest ih =>
      obtain ⟨out, later, same⟩ := Option.map_eq_some_iff.mp swept
      cases same
      have half := ih (fun entry member => silent entry (by simp [member])) later
      simp only [List.length_cons]
      omega
  | case4 fd conn rest new ih => exact absurd (silent (fd, conn) List.mem_cons_self) new

/-- **A silent table** is swept once more exactly if its size is even, and then it is half as long,
and silent as long as it was. -/
theorem step_silent {loop : SweepLoop} {now : Int} (silent : loop.Silent now) :
    (¬ 2 ∣ loop.conns.entries.length → step (some loop) (.sweep now) = some none) ∧
      (2 ∣ loop.conns.entries.length → ∃ left : SweepLoop,
        step (some loop) (.sweep now) = some (some left) ∧
          loop.conns.entries.length = 2 * left.conns.entries.length ∧
          ∀ later, loop.Silent later → left.Silent later) := by
  have inside := (handle_timer_takes now loop.timeOut loop.conns).1
  rw [trailing_all silent, even_iff_two_dvd] at inside
  constructor
  · intro odd
    have missed : handleTimer now loop.timeOut loop.conns = none :=
      Option.eq_none_iff_forall_ne_some.mpr fun out ended => odd (inside.mp ⟨out, ended⟩)
    simp [step, missed]
  · intro even
    obtain ⟨⟨called, left⟩, ended⟩ := inside.mpr even
    refine ⟨{ loop with conns := left }, by simp [step, ended], ?_, ?_⟩
    · exact sweep_silent silent (handleTimer_eq_some.mp ended)
    · intro later quiet entry member
      exact quiet entry ((sweep_sublist (handleTimer_eq_some.mp ended)).subset member)

/-- A silent table is halved at each sweep, as often as its size can be. -/
theorem exec_silent {loop : SweepLoop} {times : List Int} (silent : ∀ now ∈ times, loop.Silent now) :
    (2 ^ times.length ∣ loop.conns.entries.length → ∃ left : SweepLoop,
        exec step (some loop) (times.map .sweep) = some (some left) ∧
          loop.conns.entries.length = 2 ^ times.length * left.conns.entries.length) ∧
      (¬ 2 ^ times.length ∣ loop.conns.entries.length → ∀ left : SweepLoop,
        exec step (some loop) (times.map .sweep) ≠ some (some left)) := by
  induction times generalizing loop with
  | nil => exact ⟨fun _ => ⟨loop, rfl, by simp⟩, fun part => absurd (one_dvd _) part⟩
  | cons now times ih =>
      obtain ⟨odd, even⟩ := step_silent (silent now List.mem_cons_self)
      by_cases half : 2 ∣ loop.conns.entries.length
      · obtain ⟨left, swept, size, quiet⟩ := even half
        have rest : exec step (some loop) ((now :: times).map .sweep) =
            exec step (some left) (times.map .sweep) := by
          rw [List.map_cons, exec, swept, Option.bind_some]
        obtain ⟨lasts, ends⟩ :=
          ih fun later member => quiet later (silent later (List.mem_cons_of_mem _ member))
        rw [rest, size, List.length_cons, pow_succ', Nat.mul_dvd_mul_iff_left (by decide)]
        refine ⟨fun whole => ?_, ends⟩
        obtain ⟨last, ran, less⟩ := lasts whole
        exact ⟨last, ran, by rw [less, Nat.mul_assoc]⟩
      · have ended : exec step (some loop) ((now :: times).map .sweep) =
            exec step none (times.map .sweep) := by
          rw [List.map_cons, exec, odd half, Option.bind_some]
        have part : ¬ 2 ^ (now :: times).length ∣ loop.conns.entries.length := by
          rw [List.length_cons, pow_succ']
          exact fun whole => half (Dvd.dvd.trans (Dvd.intro _ rfl) whole)
        refine ⟨fun whole => absurd whole part, fun _ left => ?_⟩
        rw [ended]
        cases times <;> simp [exec, step]

/-- **How long a silent table lasts.** Where nobody in the table is heard any more, it is swept a number
of times exactly if its size can be halved as often, and is halved each time. So a table that is not
empty is never swept more often than the logarithm of its size. -/
theorem silent_sweeps {loop : SweepLoop} {times : List Int}
    (silent : ∀ now ∈ times, loop.Silent now) :
    ((∃ left : SweepLoop, exec step (some loop) (times.map .sweep) = some (some left)) ↔
        2 ^ times.length ∣ loop.conns.entries.length) ∧
      (∀ left : SweepLoop, exec step (some loop) (times.map .sweep) = some (some left) →
        loop.conns.entries.length = 2 ^ times.length * left.conns.entries.length) ∧
      (loop.conns.entries ≠ [] → Nat.log 2 loop.conns.entries.length < times.length →
        ∀ left : SweepLoop, exec step (some loop) (times.map .sweep) ≠ some (some left)) := by
  obtain ⟨lasts, ends⟩ := exec_silent silent
  have whole : ∀ left : SweepLoop, exec step (some loop) (times.map .sweep) = some (some left) →
      2 ^ times.length ∣ loop.conns.entries.length :=
    fun left ran => by_contra fun part => ends part left ran
  refine ⟨⟨fun ⟨left, ran⟩ => whole left ran, fun halves => ?_⟩, fun left ran => ?_, ?_⟩
  · obtain ⟨left, ran, -⟩ := lasts halves
    exact ⟨left, ran⟩
  · obtain ⟨last, same, size⟩ := lasts (whole left ran)
    rw [ran] at same
    cases same
    exact size
  · intro some_entry long left ran
    have pos := List.length_pos_of_ne_nil some_entry
    have small := Nat.le_of_dvd pos (whole left ran)
    exact absurd (Nat.le_log_of_pow_le (by decide) small) (Nat.not_le.mpr long)

/-- Two clients leave, the first sweep erases one of them, and the second moves past the end. -/
theorem silent_sweeps_two :
    ∃ loop : SweepLoop,
      (∃ left : SweepLoop, exec step (some loop) ([100].map .sweep) = some (some left)) ∧
      ∀ left : SweepLoop, exec step (some loop) ([100, 105].map .sweep) ≠ some (some left) := by
  have table : ∃ loop : SweepLoop, loop.conns.entries.length = 2 ∧ loop.conns.entries ≠ [] ∧
      loop.Silent 100 ∧ loop.Silent 105 :=
    ⟨{ timeOut := 10, conns := ⟨[(5, lastHeard 0), (9, lastHeard 0)], by simp⟩ }, rfl, by simp,
      by simp [Silent, Connect.timeOut, lastHeard], by simp [Silent, Connect.timeOut, lastHeard]⟩
  obtain ⟨loop, size, someEntry, early, late⟩ := table
  refine ⟨loop, (silent_sweeps ?_).1.mpr ?_, (silent_sweeps ?_).2.2 someEntry ?_⟩
  · exact List.forall_mem_singleton.mpr early
  · exact ⟨1, size⟩
  · exact List.forall_mem_cons.mpr ⟨early, List.forall_mem_singleton.mpr late⟩
  · rw [size]
    decide

end SweepLoop

end IkunSvr
