import Portex.Scheduler.Pass

/-!
# Robust passes

What an executor raises is caught around the executor. The bookkeeping of a task stands outside of
that guard: the interval of the task may be larger than a `timedelta` can hold, its next slot later
than `datetime.max`, and `croniter` may find no further match. A task whose bookkeeping raises stops
the tasks after it, and the loop of the scheduler.

## Main definitions

* `Bookable`: the next run of the task can be computed
* `Robust`: the pass returns, and every due task was executed once

## Main results

* `settle_ok_iff`: the bookkeeping of the bookable tasks does not raise
* `robust_iff`: the passes that are robust
* `exists_stopped`: a task with a huge interval stops the others
-/

namespace Portex

open Foundation

namespace TaskScheduler

variable {scheduler : TaskScheduler} {s : SchedulerState} {task : ScheduledTask}
  {time now : Datetime} {interval : Positive} {k : ℕ} {env : ℕ → ExecutorCall} {reading : Ticks}

/-- The number of the first slot after `now`. -/
def NextSlot (time : Datetime) (interval : Positive) (now : Datetime) (k : ℕ) : Prop :=
  IsLeast {k : ℕ | now.instant < slot time interval k} k

/-- The next run of the task can be computed: its interval is not too large, the next slot is not
after `datetime.max`, and its expression matches once more. -/
def Bookable (scheduler : TaskScheduler) (task : ScheduledTask) (reading : Ticks) : Prop :=
  ∀ time, task.nextRun = some time →
    (task.scheduleType = some "interval" → ∀ seconds,
      parseIntervalSeconds task.scheduleValue = .ok seconds →
        seconds.val / 86400 ≤ 999999999 ∧
          ∀ k, NextSlot time (microseconds seconds) (scheduler.now reading) k →
            time.ticks.val + k * (microseconds seconds).val ≤ maxTicks) ∧
    (task.scheduleType = some "cron" → ∀ expression,
      parseCronExpression task.scheduleValue = .ok expression →
        scheduler.croniter.getNext expression time ≠ none)

/-- The pass returns, and calls the executor of every task that was due once. -/
def Robust (scheduler : TaskScheduler) (env : ℕ → ExecutorCall) (reading : Ticks)
    (s : SchedulerState) : Prop :=
  let after := scheduler.runPending env reading s
  after.result = .ok () ∧ after.calls.Nodup ∧
    ∀ object, object ∈ after.calls ↔ Due s (scheduler.now reading) object

theorem exists_nextSlot (time : Datetime) (interval : Positive) (now : Datetime) :
    ∃ k, NextSlot time interval now k := by
  obtain ⟨k, hk⟩ := exists_firstSlot time interval now
  have hslots : ∃ k : ℕ, now.instant < slot time interval k := ⟨k, hk.1.2⟩
  classical
  exact ⟨Nat.find hslots, Nat.find_spec hslots, fun k hk => Nat.find_min' hslots hk⟩

/-- The loop raises just if a datetime cannot hold the next slot. -/
theorem advance_ok_iff (hcomparable : time.Comparable now) :
    (∃ next, advance interval now time = .ok next) ↔
      ∀ k, NextSlot time interval now k → time.ticks.val + k * interval.val ≤ maxTicks := by
  have hbefore {k : ℕ} (hk : NextSlot time interval now k) :
      ∀ j < k, slot time interval j ≤ now.instant := by
    intro j hj
    by_contra hlt
    have hle : k ≤ j := hk.2 (by simpa using hlt)
    omega
  obtain ⟨k, hk⟩ := exists_nextSlot time interval now
  constructor
  · rintro ⟨next, hnext⟩ k hk
    by_contra hlarge
    rw [advance_eq_overflow hcomparable (hbefore hk) (by omega)] at hnext
    cases hnext
  · exact fun hfits => ⟨_, advance_eq_ok hcomparable (hbefore hk) hk.1 (hfits k hk)⟩

theorem map_ok_iff {α β : Type} {f : α → β} {result : Except SchedulerError α} :
    (∃ b, result.map f = .ok b) ↔ ∃ a, result = .ok a := by
  cases result with
  | error error => exact iff_of_false (fun ⟨b, h⟩ => by cases h) fun ⟨a, h⟩ => by cases h
  | ok a => exact iff_of_true ⟨f a, rfl⟩ ⟨a, rfl⟩

/-- **The bookkeeping** of a valid task does not raise just if the task is bookable. -/
theorem mark_ok_iff (hvalid : task.Valid) (hnext : task.nextRun = some time)
    (hcomparable : time.Comparable (scheduler.now reading)) (anchored : Ticks) :
    (∃ task', scheduler.markTaskAfterSuccess task anchored reading = .ok task') ↔
      Bookable scheduler task reading := by
  unfold Bookable
  cases hvalid with
  | once htype =>
    rw [markTaskAfterSuccess_of_once anchored reading htype]
    simp [htype]
  | @interval seconds htype hvalue =>
    rw [markTaskAfterSuccess_of_interval anchored reading htype hvalue hnext, map_ok_iff]
    have hcases : (∃ next, ((timedelta seconds).bind fun interval =>
        advance interval (scheduler.now reading) time) = .ok next) ↔
          seconds.val / 86400 ≤ 999999999 ∧ ∃ next,
            advance (microseconds seconds) (scheduler.now reading) time = .ok next := by
      by_cases hsmall : seconds.val / 86400 ≤ 999999999
      · have hinterval : timedelta seconds = .ok (microseconds seconds) := if_pos hsmall
        simp [hinterval, hsmall, Except.bind]
      · have hinterval : timedelta seconds = .error .overflow := if_neg hsmall
        simp [hinterval, hsmall, Except.bind]
    rw [hcases, advance_ok_iff hcomparable]
    simp [htype, hvalue, hnext]
  | @cron expression htype hvalue =>
    rw [markTaskAfterSuccess_of_cron anchored reading htype hvalue hnext, map_ok_iff]
    unfold nextMatch
    cases hmatch : scheduler.croniter.getNext expression time with
    | none => simp [htype, hvalue, hnext, hmatch]
    | some next => simp [htype, hvalue, hnext, hmatch]

theorem settle_ok_iff {call : ExecutorCall} (hvalid : task.Valid) (hnext : task.nextRun = some time)
    (hcomparable : time.Comparable (scheduler.now call.reading)) :
    (∃ task', scheduler.settle task call = .ok task') ↔
      (call.outcome = .success → Bookable scheduler task call.reading) := by
  unfold settle
  cases call.outcome with
  | failure => simp
  | success =>
    rw [mark_ok_iff hvalid hnext hcomparable]
    simp

/-- **Robust passes.** A pass over accepted tasks is robust if and only if the next runs of the
active tasks can be compared with the clock, and every due task whose executor succeeds is
bookable. -/
theorem robust_iff (scheduler : TaskScheduler) (calls : List (ScheduledTask × Ticks × Ticks))
    (env : ℕ → ExecutorCall) (reading : Ticks) :
    Robust scheduler env reading (scheduler.upserted calls) ↔
      AllComparable (scheduler.upserted calls) (scheduler.now reading) ∧
        ∀ object task, Due (scheduler.upserted calls) (scheduler.now reading) object →
          (scheduler.upserted calls).objects.get? object = some task →
            (env object).outcome = .success → Bookable scheduler task (env object).reading := by
  have hheld := held_upserted scheduler calls
  generalize scheduler.upserted calls = s at hheld ⊢
  unfold Robust
  rcases hheld.runPending scheduler env reading with ⟨hcomparable, hraises⟩ |
    ⟨hcomparable, due, hnodup, hmem, hexecuted⟩
  · rw [hraises]
    exact iff_of_false (fun h => by cases h.1) fun h => hcomparable h.1
  · have hsettle {object : ℕ} {task : ScheduledTask} (hdue : Due s (scheduler.now reading) object)
        (hget : s.objects.get? object = some task) :
        (∃ task', scheduler.settle task (env object) = .ok task') ↔
          ((env object).outcome = .success → Bookable scheduler task (env object).reading) := by
      obtain ⟨id, task', time, hid, hget', hactive, hnext, -⟩ := hdue
      obtain rfl := Option.some.inj (hget.symm.trans hget')
      obtain ⟨task', hget', -, hvalid⟩ := hheld.found id object hid
      obtain rfl := Option.some.inj (hget.symm.trans hget')
      exact settle_ok_iff hvalid hnext (hcomparable id object task time hid hget hactive hnext)
    constructor
    · rintro ⟨hresult, -, -⟩
      refine ⟨hcomparable, fun object task hdue hget => (hsettle hdue hget).mp ?_⟩
      exact hexecuted.returns hresult object ((hmem object).mpr hdue) task hget
    · rintro ⟨-, hbookable⟩
      cases hresult : (scheduler.runPending env reading s).result with
      | error error =>
        obtain ⟨object, hobject, task, hget, hraises⟩ := hexecuted.raises error hresult
        have hdue := (hmem object).mp (hexecuted.mem_due hobject)
        obtain ⟨task', hok⟩ := (hsettle hdue hget).mpr (hbookable object task hdue hget)
        rw [hraises] at hok
        cases hok
      | ok =>
        obtain ⟨rest, hsplit, hreturns⟩ := hexecuted.calls
        obtain rfl := hreturns hresult
        rw [List.append_nil] at hsplit
        rw [hsplit] at hnodup hmem
        exact ⟨hresult, hnodup, hmem⟩

/-! ### A task that stops the others -/

/-- A task whose interval no `timedelta` can hold. -/
def hugeTask : ScheduledTask where
  id := "huge"
  scheduleType := some "interval"
  scheduleValue := some "99999999999999999999".toList
  nextRun := some (atSecond 10)

/-- A task that runs once. -/
def onceTask : ScheduledTask where
  id := "once"
  scheduleType := some "once"
  nextRun := some (atSecond 10)

/-- Every executor succeeds, and the clock stands. -/
def allSucceed (reading : Ticks) (_ : ℕ) : ExecutorCall := ⟨.success, reading, reading⟩

/-- **A stopped pass**: both tasks are accepted and due, and the second is not executed. -/
theorem exists_stopped :
    let s := plainScheduler.upserted [(hugeTask, (atSecond 0).ticks, (atSecond 0).ticks),
      (onceTask, (atSecond 0).ticks, (atSecond 0).ticks)]
    let after := plainScheduler.runPending (allSucceed (atSecond 20).ticks) (atSecond 20).ticks s
    Due s (atSecond 20) 0 ∧ Due s (atSecond 20) 1 ∧ after.result = .error .overflow ∧
      after.calls = [0] ∧
        ¬ Robust plainScheduler (allSucceed (atSecond 20).ticks) (atSecond 20).ticks s := by
  intro s after
  have hresult : after.result = .error .overflow := by decide +kernel
  refine ⟨⟨"huge", hugeTask, atSecond 10, by decide +kernel, by decide +kernel, rfl, rfl, ?_⟩,
    ⟨"once", onceTask, atSecond 10, by decide +kernel, by decide +kernel, rfl, rfl, ?_⟩, hresult,
    by decide +kernel, fun hrobust => ?_⟩
  · decide
  · decide
  · have hreturns := hrobust.1
    rw [hresult] at hreturns
    cases hreturns

end TaskScheduler

end Portex
