import Portex.Scheduler.Robustness

/-!
# Two passes at one instant

An interval task that was executed skips all the slots that it has missed. A cron task moves to the
first match after its old `next_run`: where it has missed more matches, it is due again, and a
second pass at the same instant executes it again.

## Main definitions

* `LeastMatch`: `croniter` answers with the first match after its anchor
* `CaughtUp`: the task has missed no match after its `next_run`
* `FiresOnce`: two passes execute the task at most once, and move it after the clock

## Main results

* `after_settled_iff`: what the bookkeeping makes of a due task
* `firesOnce_iff`: the accepted tasks that fire once
* `exists_refired`: a cron task that has missed two matches is executed twice
-/

namespace Portex

open Foundation

namespace TaskScheduler

variable {scheduler : TaskScheduler} {s : SchedulerState} {task : ScheduledTask} {time : Datetime}
  {reading : Ticks} {object : ℕ} {Matches : List Char → Datetime → Prop}

/-- The matches strictly after an anchor, with its offset. -/
def MatchAfter (Matches : List Char → Datetime → Prop) (expression : List Char)
    (anchor time : Datetime) : Prop :=
  time.offset = anchor.offset ∧ Matches expression time ∧ anchor.instant < time.instant

/-- **The assumption on `croniter`**: it answers with the least match strictly after its anchor. -/
def LeastMatch (croniter : Croniter) (Matches : List Char → Datetime → Prop) : Prop :=
  ∀ expression anchor next, croniter.getNext expression anchor = some next →
    MatchAfter Matches expression anchor next ∧
      ∀ time, MatchAfter Matches expression anchor time → next.instant ≤ time.instant

/-- The task has no match between its `next_run` and the clock. -/
def CaughtUp (Matches : List Char → Datetime → Prop) (task : ScheduledTask) (now : Datetime) :
    Prop :=
  task.scheduleType = some "cron" → ∀ expression time next,
    parseCronExpression task.scheduleValue = .ok expression → task.nextRun = some time →
      MatchAfter Matches expression time next → now.instant < next.instant

/-- The task is none of those that are due. -/
def After (task : ScheduledTask) (now : Datetime) : Prop :=
  ∀ time, task.nextRun = some time → now.instant < time.instant

/-- Two passes at one instant, in which every executor succeeds, execute the task at most once, and
leave it due after the instant or never where they do. -/
def FiresOnce (scheduler : TaskScheduler) (reading : Ticks) (s : SchedulerState) (object : ℕ) :
    Prop :=
  let first := scheduler.runPending (allSucceed reading) reading s
  let second := scheduler.runPending (allSucceed reading) reading first.state
  (first.calls ++ second.calls).count object ≤ 1 ∧ (object ∈ first.calls ++ second.calls →
    ∀ task, second.state.objects.get? object = some task → After task (scheduler.now reading))

/-- The next runs of the due tasks can be computed. -/
def AllBookable (scheduler : TaskScheduler) (reading : Ticks) (s : SchedulerState) : Prop :=
  ∀ object task, Due s (scheduler.now reading) object → s.objects.get? object = some task →
    Bookable scheduler task reading

/-! ## The bookkeeping -/

/-- The loop ends after the clock. -/
theorem advance_after {interval : Positive} {now next : Datetime}
    (h : advance interval now time = .ok next) : now.instant < next.instant := by
  have hle := (advance_turns h).2
  unfold Datetime.le at hle
  split at hle
  · simpa using hle
  · cases hle

/-- The match that `croniter` answers with is after the clock just if all the matches are. -/
theorem cron_after_iff (hleast : LeastMatch scheduler.croniter Matches) {expression : List Char}
    {next : Datetime} (hnext : scheduler.croniter.getNext expression time = some next)
    (now : Datetime) : now.instant < next.instant ↔
      ∀ time', MatchAfter Matches expression time time' → now.instant < time'.instant := by
  obtain ⟨hmatch, hbound⟩ := hleast _ _ _ hnext
  constructor
  · exact fun hafter time' hmatch' => hafter.trans_le (hbound time' hmatch')
  · exact fun hall => hall next hmatch

/-- An interval task whose next run is computed has skipped the slots that it has missed. -/
theorem after_of_interval {task' : ScheduledTask} {seconds : Positive}
    (htype : task.scheduleType = some "interval")
    (hvalue : parseIntervalSeconds task.scheduleValue = .ok seconds)
    (hnext : task.nextRun = some time) {anchored : Ticks}
    (h : scheduler.markTaskAfterSuccess task anchored reading = .ok task') :
    After task' (scheduler.now reading) := by
  rw [markTaskAfterSuccess_of_interval anchored reading htype hvalue hnext] at h
  cases hinterval : timedelta seconds with
  | error error =>
    rw [hinterval] at h
    cases h
  | ok interval =>
    rw [hinterval] at h
    cases hadvance : advance interval (scheduler.now reading) time with
    | error error =>
      simp only [Except.bind, hadvance] at h
      cases h
    | ok next =>
      simp only [Except.bind, hadvance] at h
      obtain rfl := Except.ok.inj h
      rintro _ ⟨⟩
      exact advance_after hadvance

/-- **What the bookkeeping makes of a due task**: it is after the clock just if it is caught up. -/
theorem after_settled_iff (object : ℕ) (hleast : LeastMatch scheduler.croniter Matches)
    (hvalid : task.Valid)
    (hnext : task.nextRun = some time) (hcomparable : time.Comparable (scheduler.now reading))
    (hbookable : Bookable scheduler task reading) :
    After (scheduler.settled task (allSucceed reading object)) (scheduler.now reading) ↔
      CaughtUp Matches task (scheduler.now reading) := by
  obtain ⟨task', hmark⟩ := (mark_ok_iff hvalid hnext hcomparable reading).mpr hbookable
  have hsettled : scheduler.settled task (allSucceed reading object) = task' := by
    show (scheduler.markTaskAfterSuccess task reading reading).toOption.getD task = task'
    rw [hmark]
    rfl
  rw [hsettled]
  unfold CaughtUp
  cases hvalid with
  | once htype =>
    rw [markTaskAfterSuccess_of_once reading reading htype] at hmark
    obtain rfl := Except.ok.inj hmark
    simp [htype, After]
  | interval htype hvalue =>
    refine iff_of_true (after_of_interval htype hvalue hnext hmark) fun hcron => ?_
    rw [htype] at hcron
    exact absurd hcron (by decide)
  | @cron expression htype hvalue =>
    rw [markTaskAfterSuccess_of_cron reading reading htype hvalue hnext, nextMatch] at hmark
    cases hmatch : scheduler.croniter.getNext expression time with
    | none =>
      rw [hmatch] at hmark
      cases hmark
    | some next =>
      rw [hmatch] at hmark
      obtain rfl := Except.ok.inj hmark
      have hafter := cron_after_iff hleast hmatch (scheduler.now reading)
      constructor
      · intro hlater _ expression' time' next' hvalue' hnext'
        obtain rfl := Except.ok.inj (hvalue.symm.trans hvalue')
        obtain rfl := Option.some.inj (hnext.symm.trans hnext')
        exact hafter.mp (hlater next rfl) next'
      · rintro hcaught _ ⟨⟩
        exact hafter.mpr fun time' => hcaught htype expression time time' hvalue hnext

/-! ## Two passes -/

/-- What holds of a due task. -/
theorem Held.of_due (h : Held s) {now : Datetime} (hcomparable : AllComparable s now)
    (hdue : Due s now object) (hget : s.objects.get? object = some task) :
    ∃ time, task.Valid ∧ task.nextRun = some time ∧ time.Comparable now ∧
      time.instant ≤ now.instant := by
  obtain ⟨id, task', time, hid, hget', hactive, hnext, hle⟩ := hdue
  obtain rfl := Option.some.inj (hget.symm.trans hget')
  obtain ⟨task', hget', -, hvalid⟩ := h.found id object hid
  obtain rfl := Option.some.inj (hget.symm.trans hget')
  exact ⟨time, hvalid, hnext, hcomparable id object task time hid hget hactive hnext, hle⟩

/-- A pass whose due tasks are bookable executes all of them. -/
theorem Executed.calls_eq {due : List ℕ} {after : PassResult} (h : Held s)
    (hcomparable : AllComparable s (scheduler.now reading))
    (hbookable : AllBookable scheduler reading s)
    (hmem : ∀ object, object ∈ due ↔ Due s (scheduler.now reading) object)
    (hexecuted : Executed scheduler (allSucceed reading) s due after) : after.calls = due := by
  cases hresult : after.result with
  | ok =>
    obtain ⟨rest, hdue, hreturns⟩ := hexecuted.calls
    rw [hreturns hresult, List.append_nil] at hdue
    exact hdue.symm
  | error error =>
    obtain ⟨object, hobject, task, hget, hraises⟩ := hexecuted.raises error hresult
    have hdue := (hmem object).mp (hexecuted.mem_due hobject)
    obtain ⟨time, hvalid, hnext, htime, -⟩ := h.of_due hcomparable hdue hget
    have hok : ∃ task', scheduler.settle task (allSucceed reading object) = .ok task' :=
      (settle_ok_iff hvalid hnext htime).mpr fun _ => hbookable object task hdue hget
    rw [hraises] at hok
    obtain ⟨task', htask'⟩ := hok
    cases htask'

/-- What a pass does not execute, it leaves as it is. -/
theorem Held.untouched (h : Held s) (scheduler : TaskScheduler) (env : ℕ → ExecutorCall)
    (reading : Ticks) (hcalls : object ∉ (scheduler.runPending env reading s).calls) :
    (scheduler.runPending env reading s).state.objects.get? object = s.objects.get? object := by
  rcases h.runPending scheduler env reading with ⟨-, hraises⟩ | ⟨-, due, -, -, hexecuted⟩
  · rw [hraises]
  · exact hexecuted.untouched object hcalls

/-- A pass executes nothing that is not due. -/
theorem Held.not_called (h : Held s) (scheduler : TaskScheduler) (env : ℕ → ExecutorCall)
    (reading : Ticks) (hdue : ¬ Due s (scheduler.now reading) object) :
    object ∉ (scheduler.runPending env reading s).calls := by
  rcases h.runPending scheduler env reading with ⟨-, hraises⟩ | ⟨-, due, -, hmem, hexecuted⟩
  · rw [hraises]
    exact List.not_mem_nil
  · exact fun hobject => hdue ((hmem object).mp (hexecuted.mem_due hobject))

/-- Whether a task is due is a matter of the table and its object. -/
theorem due_congr {u : SchedulerState} {now : Datetime} (htasks : u.tasks = s.tasks)
    (hget : u.objects.get? object = s.objects.get? object) :
    Due u now object ↔ Due s now object := by
  unfold Due
  rw [htasks, hget]

/-- **No double firing.** Two passes over accepted tasks at one instant, where the next runs of the
due tasks can be computed, execute a task at most once and move it after the instant, if and only if
the task is caught up, is not due, or nothing is executed. -/
theorem firesOnce_iff (hleast : LeastMatch scheduler.croniter Matches)
    (calls : List (ScheduledTask × Ticks × Ticks)) (reading : Ticks)
    (hbookable : AllBookable scheduler reading (scheduler.upserted calls)) (object : ℕ) :
    FiresOnce scheduler reading (scheduler.upserted calls) object ↔
      (AllComparable (scheduler.upserted calls) (scheduler.now reading) →
        Due (scheduler.upserted calls) (scheduler.now reading) object →
          ∀ task, (scheduler.upserted calls).objects.get? object = some task →
            CaughtUp Matches task (scheduler.now reading)) := by
  have hheld := held_upserted scheduler calls
  revert hbookable
  generalize scheduler.upserted calls = s at hheld ⊢
  intro hbookable
  unfold FiresOnce
  rcases hheld.runPending scheduler (allSucceed reading) reading with ⟨hcomparable, hraises⟩ |
    ⟨hcomparable, due, hnodup, hmem, hexecuted⟩
  · simp only [hraises]
    exact iff_of_true ⟨by simp, by simp⟩ fun h => absurd h hcomparable
  · have hall := hexecuted.calls_eq hheld hcomparable hbookable hmem
    have hheld' := hheld.executed hexecuted
    revert hall hheld' hexecuted
    generalize scheduler.runPending (allSucceed reading) reading s = first
    intro hexecuted hall hheld'
    simp only [List.count_append, List.mem_append]
    by_cases hdue : Due s (scheduler.now reading) object
    · have hcalled : object ∈ first.calls := hall ▸ (hmem object).mpr hdue
      have hcount : first.calls.count object = 1 := List.count_eq_one_of_mem (hall ▸ hnodup) hcalled
      have hdue' := hdue
      obtain ⟨id, task, time, -, hget, -⟩ := hdue'
      have hsettled := hexecuted.executed object hcalled task hget
      obtain ⟨time, hvalid, hnext, htime, -⟩ := hheld.of_due hcomparable hdue hget
      have hafter := after_settled_iff object hleast hvalid hnext htime
        (hbookable object task hdue hget)
      constructor
      · rintro ⟨honce, hlater⟩ - - task' hget'
        obtain rfl := Option.some.inj (hget.symm.trans hget')
        -- The second pass has not executed the task again.
        have hnew :
            object ∉ (scheduler.runPending (allSucceed reading) reading first.state).calls :=
          List.count_eq_zero.mp (by omega)
        refine hafter.mp (hlater (.inl hcalled) _ ?_)
        rw [hheld'.untouched scheduler _ _ hnew, hsettled]
      · intro hcaught
        have hlater := hafter.mpr (hcaught hcomparable hdue task hget)
        have hnot : ¬ Due first.state (scheduler.now reading) object := by
          rintro ⟨_, task', time', -, hget', -, hnext', hle⟩
          obtain rfl := Option.some.inj (hsettled.symm.trans hget')
          have hlt := hlater time' hnext'
          omega
        have hnew := hheld'.not_called scheduler (allSucceed reading) reading hnot
        rw [hcount, List.count_eq_zero.mpr hnew]
        refine ⟨le_rfl, fun _ task' hget' => ?_⟩
        rw [hheld'.untouched scheduler _ _ hnew, hsettled] at hget'
        obtain rfl := Option.some.inj hget'
        exact hlater
    · have hcalled : object ∉ first.calls := fun h => hdue ((hmem object).mp (hall ▸ h))
      have hnot : ¬ Due first.state (scheduler.now reading) object := fun h =>
        hdue ((due_congr hexecuted.tasks (hexecuted.untouched object hcalled)).mp h)
      have hnew := hheld'.not_called scheduler (allSucceed reading) reading hnot
      rw [List.count_eq_zero.mpr hcalled, List.count_eq_zero.mpr hnew]
      exact iff_of_true ⟨Nat.zero_le 1, fun h => absurd h (not_or.mpr ⟨hcalled, hnew⟩)⟩
        fun _ h => absurd h hdue

/-! ### A cron task that is executed twice -/

/-- The expression of every minute. -/
def everyMinute : List Char := "* * * * *".toList

/-- The whole minutes, in the time of their offset. -/
def OnMinute (expression : List Char) (time : Datetime) : Prop :=
  expression = everyMinute ∧ time.ticks.val % 60000000 = 0

/-- A scheduler whose library knows one expression. -/
def minuteScheduler : TaskScheduler where
  croniter := {
    accepts := fun expression _ => expression = everyMinute
    getNext := fun expression anchor =>
      if expression = everyMinute then
        (anchor.add (60000000 - anchor.ticks.val % 60000000)).toOption
      else none }

theorem leastMatch_minuteScheduler : LeastMatch minuteScheduler.croniter OnMinute := by
  intro expression anchor next hnext
  simp only [minuteScheduler] at hnext
  split at hnext
  · rename_i hexpression
    unfold Datetime.add at hnext
    split at hnext
    · obtain rfl := Option.some.inj hnext
      refine ⟨⟨rfl, ⟨hexpression, ?_⟩, ?_⟩, fun time hmatch => ?_⟩
      · show (anchor.ticks.val + (60000000 - anchor.ticks.val % 60000000)) % 60000000 = 0
        omega
      · simp only [Datetime.instant, Datetime.shift]
        omega
      · obtain ⟨hoffset, ⟨-, hminute⟩, hlt⟩ := hmatch
        simp only [Datetime.instant, Datetime.shift, hoffset] at hlt ⊢
        omega
    · cases hnext
  · cases hnext

/-- A task that runs at every minute. -/
def reportTask : ScheduledTask where
  id := "report"
  scheduleType := some "cron"
  scheduleValue := some everyMinute
  nextRun := some (atSecond 60)

def reportState : SchedulerState :=
  minuteScheduler.upserted [(reportTask, (atSecond 0).ticks, (atSecond 0).ticks)]

/-- A cron task that has missed no further match is executed once. -/
theorem firesOnce_report : FiresOnce minuteScheduler (atSecond 90).ticks reportState 0 := by
  refine (firesOnce_iff leastMatch_minuteScheduler _ _ ?_ 0).mpr ?_
  · intro object task _ hget
    have hobject : object = 0 := by
      cases object with
      | zero => rfl
      | succ object => cases hget
    subst hobject
    obtain rfl : reportTask = task := Option.some.inj hget
    rintro _ ⟨⟩
    refine ⟨fun htype => absurd htype (by decide), fun _ expression hvalue => ?_⟩
    obtain rfl : everyMinute = expression := Except.ok.inj hvalue
    decide
  · rintro - - task hget - expression _ next hvalue hnext ⟨hoffset, ⟨-, hminute⟩, hlt⟩
    obtain rfl : reportTask = task := Option.some.inj hget
    obtain rfl := Option.some.inj hnext
    -- The matches after the first minute are those from the second minute on.
    have hreading : (minuteScheduler.now (atSecond 90).ticks).instant = 90000000 := by decide
    have hanchor : (atSecond 60).instant = 60000000 := by decide
    have hinstant : next.instant = next.ticks.val := by
      unfold Datetime.instant
      rw [hoffset]
      exact sub_zero _
    omega

/-- **A second firing**: a cron task that has missed two matches is executed twice. -/
theorem exists_refired :
    let first := minuteScheduler.runPending (allSucceed (atSecond 190).ticks) (atSecond 190).ticks
      reportState
    let second := minuteScheduler.runPending (allSucceed (atSecond 190).ticks) (atSecond 190).ticks
      first.state
    LeastMatch minuteScheduler.croniter OnMinute ∧ first.calls = [0] ∧ second.calls = [0] ∧
      ¬ FiresOnce minuteScheduler (atSecond 190).ticks reportState 0 := by
  intro first second
  have hfirst : first.calls = [0] := by decide +kernel
  have hsecond : second.calls = [0] := by decide +kernel
  refine ⟨leastMatch_minuteScheduler, hfirst, hsecond, fun h => ?_⟩
  have hcalls : (first.calls ++ second.calls).count 0 ≤ 1 := h.1
  rw [hfirst, hsecond] at hcalls
  exact absurd hcalls (by decide)

end TaskScheduler

end Portex
