import Portex.Foundation.Dict
import Portex.Registry.State
import Mathlib.Data.Char
import Mathlib.Data.List.Lex

/-!
# The task scheduler

`TaskScheduler` keeps scheduled tasks in a table by their ids. A task is due when it is active and its
`next_run` is not after the reading of the clock. A pass executes the tasks that are due, in the order
of `(next_run, id)`, and gives each of them a new `next_run` where its executor succeeds.

Task objects are shared by the table and the passes that have captured them, so that they have numbers
and the table holds these.

## Main definitions

* `Datetime`: what `datetime` can hold, in microseconds
* `ScheduledTask`, `TaskScheduler`, `SchedulerState`
* `parseInteger`: `int(text)`
* `acceptTask`: the checks of `upsert_task`
* `isDue`, `markTaskAfterSuccess`: what a pass asks of a task, and what it writes to it
-/

namespace Portex

open Foundation

inductive SchedulerError
  /-- `ValueError`. -/
  | value (detail : String)
  /-- `OverflowError`. -/
  | overflow
  /-- `TypeError`. -/
  | type
  /-- What `croniter` raises. -/
  | croniter
  deriving DecidableEq

/-! ## Datetimes -/

/-- `datetime.max`, in microseconds after the first of January of the year 1. -/
def maxTicks : ℕ := 3652059 * 86400 * 1000000 - 1

/-- The microseconds that a datetime can hold. -/
abbrev Ticks := { n : ℕ // n ≤ maxTicks }

/-- A datetime, naive or with a fixed offset in microseconds. -/
structure Datetime where
  ticks : Ticks
  offset : Option ℤ := none
  deriving DecidableEq

namespace Datetime

/-- The microseconds of a datetime in UTC. -/
def instant (time : Datetime) : ℤ := time.ticks.val - time.offset.getD 0

/-- Both datetimes are naive, or both are aware. -/
def Comparable (time time' : Datetime) : Prop := time.offset.isSome = time'.offset.isSome

instance (time time' : Datetime) : Decidable (Comparable time time') :=
  inferInstanceAs (Decidable (_ = _))

/-- `time <= time'`. -/
def le (time time' : Datetime) : Except SchedulerError Bool :=
  if Comparable time time' then .ok (decide (time.instant ≤ time'.instant)) else .error .type

/-- The datetime some microseconds later. -/
def shift (time : Datetime) (n : ℕ) (h : time.ticks.val + n ≤ maxTicks) : Datetime :=
  { time with ticks := ⟨time.ticks.val + n, h⟩ }

/-- `time + interval`, for an interval in microseconds. -/
def add (time : Datetime) (interval : ℕ) : Except SchedulerError Datetime :=
  if h : time.ticks.val + interval ≤ maxTicks then .ok (time.shift interval h)
  else .error .overflow

end Datetime

/-- A positive number. -/
abbrev Positive := { n : ℕ // 0 < n }

/-- The microseconds of some seconds. -/
def microseconds (seconds : Positive) : Positive :=
  ⟨seconds.val * 1000000, Nat.mul_pos seconds.property (by decide)⟩

/-- `timedelta(seconds=seconds)`, in microseconds. -/
def timedelta (seconds : Positive) : Except SchedulerError Positive :=
  if seconds.val / 86400 ≤ 999999999 then .ok (microseconds seconds) else .error .overflow

/-! ## Integers -/

/-- The zeros of the scripts that have decimal digits. -/
def decimalZeros : List ℕ :=
  [48, 1632, 1776, 1984, 2406, 2534, 2662, 2790, 2918, 3046, 3174, 3302, 3430, 3558, 3664, 3792,
    3872, 4160, 4240, 6112, 6160, 6470, 6608, 6784, 6800, 6992, 7088, 7232, 7248, 42528, 43216,
    43264, 43472, 43504, 43600, 44016, 65296, 66720, 68912, 69734, 69872, 69942, 70096, 70384,
    70736, 70864, 71248, 71360, 71472, 71904, 72016, 72784, 73040, 73120, 92768, 92864, 93008,
    120782, 120792, 120802, 120812, 120822, 123200, 123632, 125264, 130032]

/-- `unicodedata.decimal(ch, None)`. -/
def decimal (ch : Char) : Option ℕ :=
  (decimalZeros.find? fun start => start ≤ ch.toNat && ch.toNat < start + 10).map (ch.toNat - ·)

/-- The characters that `int` skips at the ends of its argument. -/
def isIntegerSpace (ch : Char) : Bool :=
  (9 ≤ ch.toNat && ch.toNat ≤ 13) || ch.toNat == 32 || (127 ≤ ch.toNat && isSpace ch)

/-- Digits, with single underscores between them; at most `sys.get_int_max_str_digits()`. -/
def parseDigits (text : List Char) : Option ℕ :=
  let groups := text.splitOn '_'
  if groups.any List.isEmpty then none
  else
    match groups.flatten.mapM decimal with
    | none => none
    | some digits =>
      if digits.length ≤ 4300 then some (digits.foldl (fun n digit => 10 * n + digit) 0) else none

/-- `int(text)`. -/
def parseInteger (text : List Char) : Option ℤ :=
  match stripBy isIntegerSpace text with
  | '+' :: digits => (parseDigits digits).map Int.ofNat
  | '-' :: digits => (parseDigits digits).map fun n => -Int.ofNat n
  | digits => (parseDigits digits).map Int.ofNat

/-! ## Tasks -/

structure ScheduledTask where
  id : String
  scheduleType : Option String
  scheduleValue : Option (List Char) := none
  nextRun : Option Datetime := none
  status : String := "active"
  deriving DecidableEq

/-- The library `croniter`. -/
structure Croniter where
  /-- `croniter(expression, anchor)` does not raise. -/
  accepts : List Char → Datetime → Bool
  /-- `croniter(expression, anchor).get_next(datetime)`, where it does not raise. -/
  getNext : List Char → Datetime → Option Datetime

/-- What a scheduler is built with. -/
structure TaskScheduler where
  croniter : Croniter
  /-- The offset of what `now_func` returns. -/
  offset : Option ℤ := none

structure SchedulerState where
  /-- The task objects. -/
  objects : Heap ScheduledTask := ∅
  /-- `_tasks`. -/
  tasks : Dict String ℕ := ∅
  /-- `_running_task_ids`. -/
  running : List String := []

/-- `_parse_interval_seconds`. -/
def parseIntervalSeconds (scheduleValue : Option (List Char)) :
    Except SchedulerError Positive :=
  match scheduleValue with
  | none => .error (.value "interval tasks require schedule_value")
  | some text =>
    let invalid : SchedulerError := .value ("invalid interval schedule: " ++ String.ofList text)
    match parseInteger text with
    | some (.ofNat n) => if h : 0 < n then .ok ⟨n, h⟩ else .error invalid
    | _ => .error invalid

/-- `_parse_cron_expression`. -/
def parseCronExpression (scheduleValue : Option (List Char)) : Except SchedulerError (List Char) :=
  match scheduleValue with
  | none => .error (.value "cron tasks require schedule_value")
  | some text =>
    if text.all isSpace then .error (.value "cron tasks require schedule_value") else .ok text

def unsupportedScheduleType (scheduleType : Option String) : SchedulerError :=
  .value ("unsupported schedule type: " ++ scheduleType.getD "None")

namespace TaskScheduler

variable (scheduler : TaskScheduler)

/-- `self._now_func()`. -/
def now (reading : Ticks) : Datetime := ⟨reading, scheduler.offset⟩

/-- `_validate_task`. -/
def validateTask (task : ScheduledTask) (reading : Ticks) : Except SchedulerError Unit :=
  if task.scheduleType ∉ [some "cron", some "interval", some "once"] then
    .error (unsupportedScheduleType task.scheduleType)
  else if task.scheduleType = some "interval" then do
    let _ ← parseIntervalSeconds task.scheduleValue
    .ok ()
  else if task.scheduleType = some "cron" then do
    let expression ← parseCronExpression task.scheduleValue
    if scheduler.croniter.accepts expression (task.nextRun.getD (scheduler.now reading)) then .ok ()
    else .error .croniter
  else if task.nextRun = none then .error (.value "once tasks require next_run")
  else .ok ()

/-- `croniter(expression, anchor).get_next(datetime)`. -/
def nextMatch (expression : List Char) (anchor : Datetime) : Except SchedulerError Datetime :=
  match scheduler.croniter.getNext expression anchor with
  | none => .error .croniter
  | some next => .ok next

/-- `_initialize_next_run`. -/
def initializeNextRun (task : ScheduledTask) (reading : Ticks) :
    Except SchedulerError ScheduledTask :=
  if task.status ≠ "active" ∨ task.nextRun ≠ none then .ok task
  else if task.scheduleType = some "interval" then do
    let seconds ← parseIntervalSeconds task.scheduleValue
    let interval ← timedelta seconds
    let next ← (scheduler.now reading).add interval.val
    .ok { task with nextRun := some next }
  else if task.scheduleType = some "cron" then do
    let expression ← parseCronExpression task.scheduleValue
    let next ← scheduler.nextMatch expression (scheduler.now reading)
    .ok { task with nextRun := some next }
  else .ok task

/-- The task that `upsert_task` stores: the clock is read by both of its steps. -/
def acceptTask (task : ScheduledTask) (validated initialized : Ticks) :
    Except SchedulerError ScheduledTask := do
  scheduler.validateTask task validated
  scheduler.initializeNextRun task initialized

/-! ## Due tasks -/

/-- `_is_due`. -/
def isDue (task : ScheduledTask) (now : Datetime) : Except SchedulerError Bool :=
  if task.status ≠ "active" then .ok false
  else
    match task.nextRun with
    | none => .ok false
    | some next => next.le now

/-- `while next_run <= now: next_run += interval`. -/
def advance (interval : Positive) (now next : Datetime) : Except SchedulerError Datetime :=
  match next.le now with
  | .error error => .error error
  | .ok false => .ok next
  | .ok true =>
    if h : next.ticks.val + interval.val ≤ maxTicks then
      advance interval now (next.shift interval h)
    else .error .overflow
termination_by maxTicks - next.ticks.val
decreasing_by
  have hlt : next.ticks.val < next.ticks.val + interval.val :=
    Nat.lt_add_of_pos_right interval.property
  exact Nat.sub_lt_sub_left (Nat.lt_of_lt_of_le hlt h) hlt

/-- `_compute_next_run`: `anchored` is the reading where the task has no `next_run`. -/
def computeNextRun (task : ScheduledTask) (anchored reading : Ticks) :
    Except SchedulerError (Option Datetime) :=
  let anchor := task.nextRun.getD (scheduler.now anchored)
  if task.scheduleType = some "interval" then do
    let seconds ← parseIntervalSeconds task.scheduleValue
    let interval ← timedelta seconds
    let next ← advance interval (scheduler.now reading) anchor
    .ok (some next)
  else if task.scheduleType = some "cron" then do
    let expression ← parseCronExpression task.scheduleValue
    let next ← scheduler.nextMatch expression anchor
    .ok (some next)
  else if task.scheduleType = some "once" then .ok none
  else .error (unsupportedScheduleType task.scheduleType)

/-- `_mark_task_after_success`. -/
def markTaskAfterSuccess (task : ScheduledTask) (anchored reading : Ticks) :
    Except SchedulerError ScheduledTask :=
  if task.scheduleType = some "once" then .ok { task with status := "completed", nextRun := none }
  else do
    let nextRun ← scheduler.computeNextRun task anchored reading
    .ok { task with nextRun }

end TaskScheduler

end Portex
