import Portex.Scheduler.State
import Mathlib.Order.Bounds.Basic
import Mathlib.Logic.Relation
import Mathlib.Tactic.Ring

/-!
# The next run of an interval task

An interval task that was executed runs next at the first of its slots after the reading of the
clock. A task may have missed any number of slots: the loop goes over them one by one, and each turn
keeps the phase.

## Main definitions

* `Turn`: one turn of the loop
* `slot time interval k`: the instant of a slot
* `FirstSlot`: the number of the first slot after a datetime

## Main results

* `advance_eq_ok`, `advance_eq_overflow`: the loop ends at the first slot after the reading, or beyond
  `datetime.max`
* `not_forever`: the loop ends
* `markTaskAfterSuccess_interval`: what the bookkeeping writes
-/

namespace Portex

open Foundation

/-! ## Slots -/

/-- The instant of the slot `k` intervals after a datetime. -/
def slot (time : Datetime) (interval : Positive) (k : ℕ) : ℤ :=
  time.instant + (k * interval.val : ℕ)

/-- The number of the first slot after `now`, from the next slot on. -/
def FirstSlot (time : Datetime) (interval : Positive) (now : Datetime) (k : ℕ) : Prop :=
  IsLeast {k : ℕ | 1 ≤ k ∧ now.instant < slot time interval k} k

variable {time now next : Datetime} {interval : Positive} {k : ℕ}

theorem slot_zero (time : Datetime) (interval : Positive) :
    slot time interval 0 = time.instant := by
  simp [slot]

theorem slot_shift (h : time.ticks.val + interval.val ≤ maxTicks) (k : ℕ) :
    slot (time.shift interval.val h) interval k = slot time interval (k + 1) := by
  simp only [slot, Datetime.instant, Datetime.shift, Nat.add_mul, Nat.one_mul]
  push_cast
  ring

/-- There are slots after every datetime. -/
theorem exists_firstSlot (time : Datetime) (interval : Positive) (now : Datetime) :
    ∃ k, FirstSlot time interval now k := by
  have hpos : 0 < interval.val := interval.property
  have hslots : ∃ k : ℕ, 1 ≤ k ∧ now.instant < slot time interval k := by
    refine ⟨(now.instant - time.instant).toNat + 1, by omega, ?_⟩
    have hle : (now.instant - time.instant).toNat + 1 ≤
        ((now.instant - time.instant).toNat + 1) * interval.val := Nat.le_mul_of_pos_right _ hpos
    unfold slot
    omega
  classical
  exact ⟨Nat.find hslots, Nat.find_spec hslots, fun k hk => Nat.find_min' hslots hk⟩

/-- The slots before the first one are not after the reading. -/
theorem FirstSlot.slot_le (h : FirstSlot time interval now k) (hdue : time.instant ≤ now.instant)
    {j : ℕ} (hj : j < k) : slot time interval j ≤ now.instant := by
  rcases Nat.eq_zero_or_pos j with rfl | hpos
  · rwa [slot_zero]
  · by_contra hlt
    have hle : k ≤ j := h.2 ⟨hpos, by omega⟩
    omega

/-! ## The loop -/

/-- A turn of the loop: `next_run <= now`, and `next_run += interval`. -/
def Turn (interval : Positive) (now next next' : Datetime) : Prop :=
  next.le now = .ok true ∧ next.add interval.val = .ok next'

theorem le_eq_ok (h : time.Comparable now) :
    time.le now = .ok (decide (time.instant ≤ now.instant)) := if_pos h

theorem le_eq_true : time.le now = .ok true ↔ time.Comparable now ∧ time.instant ≤ now.instant := by
  unfold Datetime.le
  split
  · rename_i h
    simp [h]
  · rename_i h
    simp [h]

theorem Turn.ticks_lt (h : Turn interval now next time) : next.ticks.val < time.ticks.val := by
  have hpos : 0 < interval.val := interval.property
  have hadd := h.2
  unfold Datetime.add at hadd
  split at hadd
  · obtain rfl := Except.ok.inj hadd
    show next.ticks.val < next.ticks.val + interval.val
    omega
  · cases hadd

/-- **The loop ends**: it does not turn for ever, wherever it begins. -/
theorem not_forever (interval : Positive) (now : Datetime) (next : ℕ → Datetime) :
    ¬ ∀ i, Turn interval now (next i) (next (i + 1)) := by
  intro hturns
  have hgrows : ∀ i, i ≤ (next i).ticks.val := by
    intro i
    induction i with
    | zero => exact Nat.zero_le _
    | succ i ih =>
      have hlt := (hturns i).ticks_lt
      omega
  have hbound := (next (maxTicks + 1)).ticks.property
  have hlarge := hgrows (maxTicks + 1)
  omega

/-- What the loop answers is reached by its turns, and is after the reading. -/
theorem advance_turns {result : Datetime}
    (h : TaskScheduler.advance interval now next = .ok result) :
    Relation.ReflTransGen (Turn interval now) next result ∧ result.le now = .ok false := by
  fun_induction TaskScheduler.advance interval now next with
  | case1 next error hle => cases h
  | case2 next hle =>
    obtain rfl := Except.ok.inj h
    exact ⟨.refl, hle⟩
  | case3 next hle hfits ih =>
    obtain ⟨hturns, hafter⟩ := ih h
    have hadd : next.add interval.val = .ok (next.shift interval.val hfits) := dif_pos hfits
    exact ⟨.head ⟨hle, hadd⟩ hturns, hafter⟩
  | case4 next hle hlarge => cases h

/-- The loop goes over the slots that are not after the reading. -/
theorem advance_eq_ok (hcomparable : next.Comparable now)
    (hbefore : ∀ j < k, slot next interval j ≤ now.instant)
    (hafter : now.instant < slot next interval k)
    (hfits : next.ticks.val + k * interval.val ≤ maxTicks) :
    TaskScheduler.advance interval now next = .ok (next.shift (k * interval.val) hfits) := by
  induction k generalizing next with
  | zero =>
    rw [slot_zero] at hafter
    have hle : next.le now = .ok false := by
      rw [le_eq_ok hcomparable, decide_eq_false (by omega)]
    unfold TaskScheduler.advance
    rw [hle]
    simp [Datetime.shift]
  | succ k ih =>
    have hdue : next.instant ≤ now.instant := by
      have hfirst := hbefore 0 (by omega)
      rwa [slot_zero] at hfirst
    have hmul : (k + 1) * interval.val = k * interval.val + interval.val := Nat.succ_mul ..
    have hturn : next.ticks.val + interval.val ≤ maxTicks := by omega
    have hrest : (next.shift interval.val hturn).ticks.val + k * interval.val ≤ maxTicks := by
      show next.ticks.val + interval.val + k * interval.val ≤ maxTicks
      omega
    have hbefore' : ∀ j < k, slot (next.shift interval.val hturn) interval j ≤ now.instant := by
      intro j hj
      rw [slot_shift]
      exact hbefore (j + 1) (by omega)
    unfold TaskScheduler.advance
    rw [le_eq_true.mpr ⟨hcomparable, hdue⟩]
    simp only [hturn, dite_true]
    have hcomparable' : (next.shift interval.val hturn).Comparable now := hcomparable
    have hafter' : now.instant < slot (next.shift interval.val hturn) interval k := by
      rwa [slot_shift]
    rw [ih hcomparable' hbefore' hafter' hrest]
    simp only [Datetime.shift, Except.ok.injEq, Datetime.mk.injEq, Subtype.mk.injEq, and_true]
    omega

/-- Beyond `datetime.max` the addition raises. -/
theorem advance_eq_overflow (hcomparable : next.Comparable now)
    (hbefore : ∀ j < k, slot next interval j ≤ now.instant)
    (hlarge : maxTicks < next.ticks.val + k * interval.val) :
    TaskScheduler.advance interval now next = .error .overflow := by
  induction k generalizing next with
  | zero =>
    have hbound := next.ticks.property
    omega
  | succ k ih =>
    have hdue : next.instant ≤ now.instant := by
      have hfirst := hbefore 0 (by omega)
      rwa [slot_zero] at hfirst
    unfold TaskScheduler.advance
    rw [le_eq_true.mpr ⟨hcomparable, hdue⟩]
    by_cases hturn : next.ticks.val + interval.val ≤ maxTicks
    · have hmul : (k + 1) * interval.val = k * interval.val + interval.val := Nat.succ_mul ..
      have hrest : maxTicks < (next.shift interval.val hturn).ticks.val + k * interval.val := by
        show maxTicks < next.ticks.val + interval.val + k * interval.val
        omega
      simp only [hturn, dite_true]
      have hcomparable' : (next.shift interval.val hturn).Comparable now := hcomparable
      refine ih hcomparable' (fun j hj => ?_) hrest
      rw [slot_shift]
      exact hbefore (j + 1) (by omega)
    · simp only [hturn, dite_false]

/-! ## The bookkeeping -/

/-- An interval that a datetime can hold is one that `timedelta` can hold. -/
theorem timedelta_eq_ok {seconds : Positive} (h : (microseconds seconds).val ≤ maxTicks) :
    timedelta seconds = .ok (microseconds seconds) := by
  have hsmall : seconds.val / 86400 ≤ 999999999 := by
    unfold microseconds maxTicks at h
    simp only at h
    omega
  exact if_pos hsmall

namespace TaskScheduler

variable {scheduler : TaskScheduler} {task : ScheduledTask} {seconds : Positive}
  {expression : List Char} (anchored reading : Ticks)

theorem markTaskAfterSuccess_of_once (htype : task.scheduleType = some "once") :
    scheduler.markTaskAfterSuccess task anchored reading =
      .ok { task with status := "completed", nextRun := none } :=
  if_pos htype

theorem markTaskAfterSuccess_of_interval (htype : task.scheduleType = some "interval")
    (hvalue : parseIntervalSeconds task.scheduleValue = .ok seconds)
    (hnext : task.nextRun = some time) :
    scheduler.markTaskAfterSuccess task anchored reading =
      ((timedelta seconds).bind fun interval => advance interval (scheduler.now reading) time).map
        fun next => { task with nextRun := some next } := by
  unfold markTaskAfterSuccess computeNextRun
  simp only [htype, hvalue, hnext, Option.getD_some, Option.some.injEq, String.reduceEq, if_false,
    if_true]
  simp only [bind, Except.bind]
  cases timedelta seconds with
  | error error => rfl
  | ok interval =>
    simp only
    cases advance interval (scheduler.now reading) time <;> rfl

theorem markTaskAfterSuccess_of_cron (htype : task.scheduleType = some "cron")
    (hvalue : parseCronExpression task.scheduleValue = .ok expression)
    (hnext : task.nextRun = some time) :
    scheduler.markTaskAfterSuccess task anchored reading =
      (scheduler.nextMatch expression time).map fun next => { task with nextRun := some next } := by
  unfold markTaskAfterSuccess computeNextRun
  simp only [htype, hvalue, hnext, Option.getD_some, Option.some.injEq, String.reduceEq, if_false,
    if_true]
  simp only [bind, Except.bind]
  cases scheduler.nextMatch expression time <;> rfl

/-- The bookkeeping changes neither the id of a task nor its schedule. -/
theorem markTaskAfterSuccess_keeps {task' : ScheduledTask} {anchored reading : Ticks}
    (h : scheduler.markTaskAfterSuccess task anchored reading = .ok task') :
    task'.id = task.id ∧ task'.scheduleType = task.scheduleType ∧
      task'.scheduleValue = task.scheduleValue := by
  unfold markTaskAfterSuccess at h
  split at h
  · obtain rfl := Except.ok.inj h
    exact ⟨rfl, rfl, rfl⟩
  · cases hnext : scheduler.computeNextRun task anchored reading with
    | error error =>
      rw [hnext] at h
      cases h
    | ok nextRun =>
      rw [hnext] at h
      obtain rfl := Except.ok.inj h
      exact ⟨rfl, rfl, rfl⟩

/-- **Interval tasks.** The bookkeeping of an interval task that is due moves it to its first slot
after the reading, where a datetime can hold the slot; the loop does not turn for ever. -/
theorem markTaskAfterSuccess_interval (htype : task.scheduleType = some "interval")
    (hvalue : parseIntervalSeconds task.scheduleValue = .ok seconds)
    (hnext : task.nextRun = some time) (hdue : time.le (scheduler.now reading) = .ok true) :
    ∃ k, FirstSlot time (microseconds seconds) (scheduler.now reading) k ∧
      (∀ hfits : time.ticks.val + k * (microseconds seconds).val ≤ maxTicks,
        scheduler.markTaskAfterSuccess task anchored reading =
          .ok { task with nextRun := some (time.shift (k * (microseconds seconds).val) hfits) }) ∧
      ∀ next : ℕ → Datetime, next 0 = time →
        ¬ ∀ i, Turn (microseconds seconds) (scheduler.now reading) (next i) (next (i + 1)) := by
  obtain ⟨k, hk⟩ := exists_firstSlot time (microseconds seconds) (scheduler.now reading)
  refine ⟨k, hk, fun hfits => ?_, fun next _ => not_forever _ _ next⟩
  obtain ⟨hcomparable, hle⟩ := le_eq_true.mp hdue
  have hinterval : timedelta seconds = .ok (microseconds seconds) := by
    refine timedelta_eq_ok ?_
    have hfirst : (microseconds seconds).val ≤ k * (microseconds seconds).val :=
      Nat.le_mul_of_pos_left _ hk.1.1
    exact (hfirst.trans (Nat.le_add_left _ _)).trans hfits
  have hloop := advance_eq_ok hcomparable (fun j hj => hk.slot_le hle hj) hk.1.2 hfits
  rw [markTaskAfterSuccess_of_interval anchored reading htype hvalue hnext, hinterval]
  show (advance (microseconds seconds) (scheduler.now reading) time).map _ = _
  rw [hloop]
  rfl

/-- A scheduler without cron tasks. -/
def plainScheduler : TaskScheduler where
  croniter := { accepts := fun _ _ => false, getNext := fun _ _ => none }

/-- The datetime some seconds after the first one. -/
def atSecond (n : ℕ) : Datetime where
  ticks := ⟨min (n * 1000000) maxTicks, Nat.min_le_right _ _⟩

/-- A task that runs every minute. -/
def minuteTask : ScheduledTask where
  id := "task"
  scheduleType := some "interval"
  scheduleValue := some "60".toList
  nextRun := some (atSecond 10)

/-- A slot at the reading is missed, as the slots before it are. -/
theorem markTaskAfterSuccess_interval_minute :
    plainScheduler.markTaskAfterSuccess minuteTask (atSecond 130).ticks (atSecond 130).ticks =
      .ok { minuteTask with nextRun := some (atSecond 190) } := by
  have hvalue : parseIntervalSeconds minuteTask.scheduleValue = .ok ⟨60, by decide⟩ := by decide
  have hdue : (atSecond 10).le (plainScheduler.now (atSecond 130).ticks) = .ok true := by decide
  obtain ⟨k, hk, hmark, -⟩ := markTaskAfterSuccess_interval (atSecond 130).ticks
    (atSecond 130).ticks rfl hvalue rfl hdue
  have hthird : FirstSlot (atSecond 10) (microseconds ⟨60, by decide⟩)
      (plainScheduler.now (atSecond 130).ticks) 3 := by
    refine ⟨⟨by decide, by decide⟩, fun j hj => ?_⟩
    have hslot := hj.2
    by_contra hlt
    have hsmall : j = 1 ∨ j = 2 := by
      have hpos := hj.1
      omega
    rcases hsmall with rfl | rfl
    · exact absurd hslot (by decide)
    · exact absurd hslot (by decide)
  obtain rfl := hk.unique hthird
  exact hmark (by decide)

end TaskScheduler

end Portex
