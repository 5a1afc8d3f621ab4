import Portex.Messages.Records
import Portex.Foundation.Tally
import Mathlib.Data.String.Basic

/-!
# Usage statistics

`UsageAuditService.get_usage_stats` of `services/usage_audit.py`: one loop over the messages since
the first day of a window counts them, and the runs they belong to, by day and by channel.

## Main definitions

* `UsageCounts.add`: what the loop does with a message
* `getUsageStats`: the statistics
* `IsUsage`: the numbers of messages and of runs, in all, by day and by channel

## Main results

* `Counted.add`: what one step of the loop preserves
* `usage_balances`: the statistics are these numbers, and what the days and the channels add up to
-/

namespace Portex

open Foundation

/-! ## The statistics -/

structure UsageSummarySnapshot where
  totalMessages : ℕ
  totalRuns : ℕ
  totalUserMessages : ℕ
  totalAssistantMessages : ℕ
  totalActiveDays : ℕ
  deriving DecidableEq

structure UsageDailyBreakdownSnapshot where
  /-- The day, whose `isoformat` is in the order of the days. -/
  date : ℤ
  messageCount : ℕ
  runCount : ℕ
  userMessageCount : ℕ
  assistantMessageCount : ℕ
  deriving DecidableEq

structure UsageChannelBreakdownSnapshot where
  channel : String
  messageCount : ℕ
  runCount : ℕ
  deriving DecidableEq

structure UsageStatsSnapshot where
  days : ℤ
  summary : UsageSummarySnapshot
  daily : List UsageDailyBreakdownSnapshot
  channels : List UsageChannelBreakdownSnapshot
  deriving DecidableEq

/-- `_normalize_days`. -/
def normalizeDays (days : ℤ) : ℤ := max 1 (min 365 days)

def microsecondsPerDay : ℤ := 86400000000

/-- The day of a time, since the epoch. -/
def dateOf (timestamp : ℤ) : ℤ := timestamp / microsecondsPerDay

/-- Midnight of the first day. -/
def windowStart (now days : ℤ) : ℤ := (dateOf now - (normalizeDays days - 1)) * microsecondsPerDay

/-- The variables of the loop. -/
structure UsageCounts where
  totalUserMessages : ℕ := 0
  totalAssistantMessages : ℕ := 0
  runIds : Finset String := ∅
  dailyMessageCounts : Dict ℤ ℕ := ∅
  dailyUserCounts : Dict ℤ ℕ := ∅
  dailyAssistantCounts : Dict ℤ ℕ := ∅
  dailyRunIds : Dict ℤ (Finset String) := ∅
  channelMessageCounts : Dict String ℕ := ∅
  channelRunIds : Dict String (Finset String) := ∅

/-- The messages of a day, or of a channel, are counted in. -/
def UsageCounts.addMessage (counts : UsageCounts) (dateKey : ℤ) (channel : String) : UsageCounts :=
  { counts with
    dailyMessageCounts := counts.dailyMessageCounts.modifyD dateKey 0 (· + 1)
    channelMessageCounts := counts.channelMessageCounts.modifyD channel 0 (· + 1) }

def UsageCounts.addSender (counts : UsageCounts) (dateKey : ℤ) (isFromMe : Bool) : UsageCounts :=
  if isFromMe then
    { counts with
      totalAssistantMessages := counts.totalAssistantMessages + 1
      dailyAssistantCounts := counts.dailyAssistantCounts.modifyD dateKey 0 (· + 1) }
  else
    { counts with
      totalUserMessages := counts.totalUserMessages + 1
      dailyUserCounts := counts.dailyUserCounts.modifyD dateKey 0 (· + 1) }

def UsageCounts.addRun (counts : UsageCounts) (dateKey : ℤ) (channel : String) :
    Option String → UsageCounts
  | none => counts
  | some runId =>
    { counts with
      runIds := insert runId counts.runIds
      dailyRunIds := counts.dailyRunIds.modifyD dateKey ∅ (insert runId)
      channelRunIds := counts.channelRunIds.modifyD channel ∅ (insert runId) }

/-- What the loop does with a message. -/
def UsageCounts.add (counts : UsageCounts) (message : Message) : UsageCounts :=
  let dateKey := dateOf message.timestamp
  let metadata := extractMetadata message
  ((counts.addMessage dateKey metadata.channel).addSender dateKey message.isFromMe).addRun dateKey
    metadata.channel metadata.runId

/-- What is made of the variables. -/
def UsageCounts.stats (counts : UsageCounts) (days : ℤ) (totalMessages : ℕ) :
    UsageStatsSnapshot where
  days := days
  summary :=
    { totalMessages
      totalRuns := counts.runIds.card
      totalUserMessages := counts.totalUserMessages
      totalAssistantMessages := counts.totalAssistantMessages
      totalActiveDays := counts.dailyMessageCounts.keys.length }
  daily := (sortedBy id counts.dailyMessageCounts.keys).map fun dateKey =>
    { date := dateKey
      messageCount := counts.dailyMessageCounts.getD dateKey 0
      runCount := (counts.dailyRunIds.getD dateKey ∅).card
      userMessageCount := counts.dailyUserCounts.getD dateKey 0
      assistantMessageCount := counts.dailyAssistantCounts.getD dateKey 0 }
  channels := (sortedBy (fun channel =>
      toLex (-(counts.channelMessageCounts.getD channel 0 : ℤ), channel))
        counts.channelMessageCounts.keys).map fun channel =>
    { channel
      messageCount := counts.channelMessageCounts.getD channel 0
      runCount := (counts.channelRunIds.getD channel ∅).card }

/-- The messages since the first day of a window. -/
def inWindow (rows : List Message) (now days : ℤ) : List Message :=
  rows.filter fun message => windowStart now days ≤ message.timestamp

/-- `get_usage_stats`. -/
def getUsageStats (rows : List Message) (now days : ℤ) : UsageStatsSnapshot :=
  let messages := sortedBy (fun message => toLex (message.timestamp, message.id))
    (inWindow rows now days)
  (messages.foldl UsageCounts.add {}).stats (normalizeDays days) messages.length

/-! ## The numbers -/

def Message.date (message : Message) : ℤ := dateOf message.timestamp

def Message.channel (message : Message) : String := (extractMetadata message).channel

def Message.runId (message : Message) : Option String := (extractMetadata message).runId

/-- The runs of some messages. -/
def runsOf (messages : List Message) : Finset String := (messages.filterMap Message.runId).toFinset

section Keyed

variable {κ : Type} [DecidableEq κ]

/-- The messages of a day, or of a channel. -/
def Message.at (key : Message → κ) (k : κ) (messages : List Message) : List Message :=
  messages.filter fun message => key message = k

end Keyed

/-- The statistics are the numbers of messages and of runs, in all, by day and by channel. -/
structure IsUsage (messages : List Message) (stats : UsageStatsSnapshot) : Prop where
  totalMessages : stats.summary.totalMessages = messages.length
  totalUserMessages : stats.summary.totalUserMessages = messages.countP fun m => ¬ m.isFromMe
  totalAssistantMessages : stats.summary.totalAssistantMessages = messages.countP Message.isFromMe
  totalRuns : stats.summary.totalRuns = (runsOf messages).card
  totalActiveDays : stats.summary.totalActiveDays = stats.daily.length
  daily_sorted : stats.daily.Pairwise fun day day' => day.date < day'.date
  mem_daily : ∀ day, day ∈ stats.daily ↔ ∃ message ∈ messages, day =
    { date := message.date
      messageCount := (messages.countP fun m => m.date = message.date)
      runCount := (runsOf (Message.at Message.date message.date messages)).card
      userMessageCount := messages.countP fun m => m.date = message.date ∧ ¬ m.isFromMe
      assistantMessageCount := messages.countP fun m => m.date = message.date ∧ m.isFromMe }
  channels_sorted : stats.channels.Pairwise fun item item' =>
    item'.messageCount < item.messageCount ∨
      item'.messageCount = item.messageCount ∧ item.channel < item'.channel
  mem_channels : ∀ item, item ∈ stats.channels ↔ ∃ message ∈ messages, item =
    { channel := message.channel
      messageCount := (messages.countP fun m => m.channel = message.channel)
      runCount := (runsOf (Message.at Message.channel message.channel messages)).card }

/-! ## The loop -/

/-- What the variables hold after some messages. -/
structure Counted (messages : List Message) (counts : UsageCounts) : Prop where
  user : counts.totalUserMessages = messages.countP fun m => ¬ m.isFromMe
  assistant : counts.totalAssistantMessages = messages.countP Message.isFromMe
  runs : counts.runIds = runsOf messages
  dates : ∀ date, date ∈ counts.dailyMessageCounts.keys ↔ ∃ message ∈ messages, message.date = date
  daily : ∀ date, counts.dailyMessageCounts.getD date 0 = messages.countP fun m => m.date = date
  dailyUser : ∀ date, counts.dailyUserCounts.getD date 0 =
    messages.countP fun m => m.date = date ∧ ¬ m.isFromMe
  dailyAssistant : ∀ date, counts.dailyAssistantCounts.getD date 0 =
    messages.countP fun m => m.date = date ∧ m.isFromMe
  dailyRuns : ∀ date, counts.dailyRunIds.getD date ∅ =
    runsOf (Message.at Message.date date messages)
  channelKeys : ∀ channel, channel ∈ counts.channelMessageCounts.keys ↔
    ∃ message ∈ messages, message.channel = channel
  channel : ∀ channel, counts.channelMessageCounts.getD channel 0 =
    messages.countP fun m => m.channel = channel
  channelRuns : ∀ channel, counts.channelRunIds.getD channel ∅ =
    runsOf (Message.at Message.channel channel messages)

theorem counted_empty : Counted [] {} where
  user := rfl
  assistant := rfl
  runs := rfl
  dates := by simp
  daily := by simp
  dailyUser := by simp
  dailyAssistant := by simp
  dailyRuns := fun _ => rfl
  channelKeys := by simp
  channel := by simp
  channelRuns := fun _ => rfl

/-- A set of runs and the one of a message, where it has one. -/
def withRun (runIds : Finset String) : Option String → Finset String
  | none => runIds
  | some runId => insert runId runIds

theorem runsOf_append (messages : List Message) (message : Message) :
    runsOf (messages ++ [message]) = withRun (runsOf messages) message.runId := by
  unfold runsOf
  rw [List.filterMap_append, List.toFinset_append, List.filterMap_cons]
  cases message.runId with
  | none => simp [withRun]
  | some runId =>
    ext other
    simp [withRun]

theorem at_append {κ : Type} [DecidableEq κ] (key : Message → κ) (k : κ) (messages : List Message)
    (message : Message) : Message.at key k (messages ++ [message]) =
      if key message = k then Message.at key k messages ++ [message]
      else Message.at key k messages := by
  unfold Message.at
  rw [List.filter_append]
  split <;> simp_all

/-! ### One message -/

section Add

variable (counts : UsageCounts) (message : Message)

theorem add_totalUserMessages : (counts.add message).totalUserMessages =
    counts.totalUserMessages + if message.isFromMe then 0 else 1 := by
  unfold UsageCounts.add UsageCounts.addRun UsageCounts.addSender
  dsimp only
  cases message.isFromMe <;> cases (extractMetadata message).runId <;> rfl

theorem add_totalAssistantMessages : (counts.add message).totalAssistantMessages =
    counts.totalAssistantMessages + if message.isFromMe then 1 else 0 := by
  unfold UsageCounts.add UsageCounts.addRun UsageCounts.addSender
  dsimp only
  cases message.isFromMe <;> cases (extractMetadata message).runId <;> rfl

theorem add_runIds : (counts.add message).runIds = withRun counts.runIds message.runId := by
  unfold Message.runId UsageCounts.add UsageCounts.addRun UsageCounts.addSender
  dsimp only
  cases message.isFromMe <;> cases (extractMetadata message).runId <;> rfl

theorem add_dailyMessageCounts : (counts.add message).dailyMessageCounts =
    counts.dailyMessageCounts.modifyD message.date 0 (· + 1) := by
  unfold UsageCounts.add UsageCounts.addRun UsageCounts.addSender
  dsimp only
  cases message.isFromMe <;> cases (extractMetadata message).runId <;> rfl

theorem add_dailyUserCounts (date : ℤ) : (counts.add message).dailyUserCounts.getD date 0 =
    counts.dailyUserCounts.getD date 0 +
      if message.date = date ∧ ¬ message.isFromMe then 1 else 0 := by
  have hcounts : (counts.add message).dailyUserCounts =
      if message.isFromMe then counts.dailyUserCounts
      else counts.dailyUserCounts.modifyD message.date 0 (· + 1) := by
    unfold UsageCounts.add UsageCounts.addRun UsageCounts.addSender
    dsimp only
    cases message.isFromMe <;> cases (extractMetadata message).runId <;> rfl
  rw [hcounts]
  cases message.isFromMe with
  | true => simp
  | false =>
    rw [if_neg Bool.false_ne_true, Dict.getD_modifyD]
    by_cases hdate : date = message.date
    · simp [hdate]
    · simp [hdate, Ne.symm hdate]

theorem add_dailyAssistantCounts (date : ℤ) :
    (counts.add message).dailyAssistantCounts.getD date 0 =
      counts.dailyAssistantCounts.getD date 0 +
        if message.date = date ∧ message.isFromMe then 1 else 0 := by
  have hcounts : (counts.add message).dailyAssistantCounts =
      if message.isFromMe then counts.dailyAssistantCounts.modifyD message.date 0 (· + 1)
      else counts.dailyAssistantCounts := by
    unfold UsageCounts.add UsageCounts.addRun UsageCounts.addSender
    dsimp only
    cases message.isFromMe <;> cases (extractMetadata message).runId <;> rfl
  rw [hcounts]
  cases message.isFromMe with
  | false => simp
  | true =>
    rw [if_pos rfl, Dict.getD_modifyD]
    by_cases hdate : date = message.date
    · simp [hdate]
    · simp [hdate, Ne.symm hdate]

theorem add_channelMessageCounts : (counts.add message).channelMessageCounts =
    counts.channelMessageCounts.modifyD message.channel 0 (· + 1) := by
  unfold UsageCounts.add UsageCounts.addRun UsageCounts.addSender
  dsimp only
  cases message.isFromMe <;> cases (extractMetadata message).runId <;> rfl

/-- The run of a message is put into the set of its key. -/
theorem getD_modifyRun {κ : Type} [DecidableEq κ] (runIds : Dict κ (Finset String)) (k j : κ)
    (runId : Option String) :
    (match runId with
      | none => runIds
      | some runId => runIds.modifyD k ∅ (insert runId)).getD j ∅ =
      if k = j then withRun (runIds.getD j ∅) runId else runIds.getD j ∅ := by
  cases runId with
  | none => simp [withRun]
  | some runId =>
    rw [Dict.getD_modifyD]
    by_cases h : j = k
    · simp [h, withRun]
    · simp [h, Ne.symm h]

theorem add_dailyRunIds (date : ℤ) : (counts.add message).dailyRunIds.getD date ∅ =
    if message.date = date then withRun (counts.dailyRunIds.getD date ∅) message.runId
    else counts.dailyRunIds.getD date ∅ := by
  rw [← getD_modifyRun]
  unfold Message.runId UsageCounts.add UsageCounts.addRun UsageCounts.addSender
  dsimp only
  cases message.isFromMe <;> cases (extractMetadata message).runId <;> rfl

theorem add_channelRunIds (channel : String) : (counts.add message).channelRunIds.getD channel ∅ =
    if message.channel = channel then withRun (counts.channelRunIds.getD channel ∅) message.runId
    else counts.channelRunIds.getD channel ∅ := by
  rw [← getD_modifyRun]
  unfold Message.runId UsageCounts.add UsageCounts.addRun UsageCounts.addSender
  dsimp only
  cases message.isFromMe <;> cases (extractMetadata message).runId <;> rfl

end Add

variable {messages : List Message} {counts : UsageCounts}

theorem countP_append_singleton (p : Message → Bool) (messages : List Message) (message : Message) :
    (messages ++ [message]).countP p = messages.countP p + if p message then 1 else 0 := by
  rw [List.countP_append, List.countP_singleton]

theorem exists_mem_append {p : Message → Prop} {messages : List Message} {message : Message} :
    (∃ m ∈ messages ++ [message], p m) ↔ p message ∨ ∃ m ∈ messages, p m := by
  simp [or_comm]

/-- **A message is counted in.** -/
theorem Counted.add (h : Counted messages counts) (message : Message) :
    Counted (messages ++ [message]) (counts.add message) where
  user := by
    rw [add_totalUserMessages, countP_append_singleton, h.user]
    cases message.isFromMe <;> rfl
  assistant := by rw [add_totalAssistantMessages, countP_append_singleton, h.assistant]
  runs := by rw [add_runIds, runsOf_append, h.runs]
  dates date := by
    rw [add_dailyMessageCounts, Dict.mem_keys_modifyD, h.dates, exists_mem_append, eq_comm]
  daily date := by
    rw [add_dailyMessageCounts, Dict.getD_modifyD, countP_append_singleton, h.daily]
    by_cases hdate : date = message.date
    · simp [hdate]
    · simp [hdate, Ne.symm hdate]
  dailyUser date := by
    rw [add_dailyUserCounts, countP_append_singleton, h.dailyUser]
    simp
  dailyAssistant date := by
    rw [add_dailyAssistantCounts, countP_append_singleton, h.dailyAssistant]
    simp
  dailyRuns date := by
    rw [add_dailyRunIds, at_append, h.dailyRuns]
    split
    · rw [runsOf_append]
    · rfl
  channelKeys channel := by
    rw [add_channelMessageCounts, Dict.mem_keys_modifyD, h.channelKeys, exists_mem_append, eq_comm]
  channel channel := by
    rw [add_channelMessageCounts, Dict.getD_modifyD, countP_append_singleton, h.channel]
    by_cases hchannel : channel = message.channel
    · simp [hchannel]
    · simp [hchannel, Ne.symm hchannel]
  channelRuns channel := by
    rw [add_channelRunIds, at_append, h.channelRuns]
    split
    · rw [runsOf_append]
    · rfl

/-- All of them are, one after the other. -/
theorem counted_foldl (messages : List Message) :
    Counted messages (messages.foldl UsageCounts.add {}) := by
  induction messages using List.reverseRecOn with
  | nil => exact counted_empty
  | append_singleton messages message ih =>
    rw [List.foldl_append]
    exact ih.add message

/-- The order of the messages makes no difference. -/
theorem Counted.perm {messages' : List Message} (h : Counted messages counts)
    (hperm : messages.Perm messages') : Counted messages' counts := by
  have hcount (p : Message → Bool) := hperm.countP_eq p
  have hruns {m m' : List Message} (hperm : m.Perm m') : runsOf m = runsOf m' :=
    List.toFinset_eq_of_perm _ _ (hperm.filterMap _)
  have hmem {p : Message → Prop} : (∃ m ∈ messages, p m) ↔ ∃ m ∈ messages', p m := by
    simp only [hperm.mem_iff]
  refine ⟨h.user.trans (hcount _), h.assistant.trans (hcount _), h.runs.trans (hruns hperm),
    fun date => (h.dates date).trans hmem, fun date => (h.daily date).trans (hcount _),
    fun date => (h.dailyUser date).trans (hcount _),
    fun date => (h.dailyAssistant date).trans (hcount _),
    fun date => (h.dailyRuns date).trans (hruns (hperm.filter _)),
    fun channel => (h.channelKeys channel).trans hmem,
    fun channel => (h.channel channel).trans (hcount _),
    fun channel => (h.channelRuns channel).trans (hruns (hperm.filter _))⟩

/-! ## Sums -/

/-- The pairs of a key and a run that occur. -/
def keyedRuns {κ : Type} [DecidableEq κ] (key : Message → κ) (messages : List Message) :
    Finset (κ × String) :=
  (messages.filterMap fun message => message.runId.map fun runId => (key message, runId)).toFinset

section Keyed

variable {κ : Type} [DecidableEq κ] {key : Message → κ}

theorem mem_keyedRuns {pair : κ × String} : pair ∈ keyedRuns key messages ↔
    ∃ message ∈ messages, key message = pair.1 ∧ message.runId = some pair.2 := by
  unfold keyedRuns
  rw [List.mem_toFinset, List.mem_filterMap]
  refine exists_congr fun message => and_congr Iff.rfl ?_
  rw [Option.map_eq_some_iff]
  constructor
  · rintro ⟨runId, hrun, rfl⟩
    exact ⟨rfl, hrun⟩
  · rintro ⟨hkey, hrun⟩
    exact ⟨pair.2, hrun, Prod.ext hkey rfl⟩

theorem mem_runsOf {runId : String} :
    runId ∈ runsOf messages ↔ ∃ message ∈ messages, message.runId = some runId := by
  unfold runsOf
  rw [List.mem_toFinset, List.mem_filterMap]

theorem runsOf_eq_image (key : Message → κ) (messages : List Message) :
    runsOf messages = (keyedRuns key messages).image Prod.snd := by
  ext runId
  rw [mem_runsOf, Finset.mem_image]
  constructor
  · rintro ⟨message, hmem, hrun⟩
    exact ⟨(key message, runId), mem_keyedRuns.mpr ⟨message, hmem, rfl, hrun⟩, rfl⟩
  · rintro ⟨pair, hpair, rfl⟩
    obtain ⟨message, hmem, -, hrun⟩ := mem_keyedRuns.mp hpair
    exact ⟨message, hmem, hrun⟩

theorem runsOf_at (k : κ) : runsOf (Message.at key k messages) =
    ((keyedRuns key messages).filter (·.1 = k)).image Prod.snd := by
  ext runId
  rw [mem_runsOf, Finset.mem_image]
  constructor
  · rintro ⟨message, hmem, hrun⟩
    obtain ⟨hmem, hkey⟩ := List.mem_filter.mp hmem
    have hkeyed : (k, runId) ∈ keyedRuns key messages :=
      mem_keyedRuns.mpr ⟨message, hmem, of_decide_eq_true hkey, hrun⟩
    exact ⟨(k, runId), Finset.mem_filter.mpr ⟨hkeyed, rfl⟩, rfl⟩
  · rintro ⟨pair, hpair, rfl⟩
    obtain ⟨hkeyed, rfl⟩ := Finset.mem_filter.mp hpair
    obtain ⟨message, hmem, hkey, hrun⟩ := mem_keyedRuns.mp hkeyed
    exact ⟨message, List.mem_filter.mpr ⟨hmem, decide_eq_true hkey⟩, hrun⟩

/-- No run has messages under two keys. -/
def OneKey (key : Message → κ) (messages : List Message) : Prop :=
  ∀ message ∈ messages, ∀ message' ∈ messages, message.runId = message'.runId →
    message.runId ≠ none → key message = key message'

/-- **The runs of the keys** add up to all runs if and only if no run is under two of them. -/
theorem card_runsOf_iff {keys : List κ} (hnodup : keys.Nodup)
    (hkeys : ∀ message ∈ messages, key message ∈ keys) :
    (runsOf messages).card =
        (keys.map fun k => (runsOf (Message.at key k messages)).card).sum ↔
      OneKey key messages := by
  simp only [runsOf_at]
  rw [sum_card_fibers hnodup, runsOf_eq_image key, card_image_snd_eq_iff]
  · constructor
    · intro h message hmem message' hmem' hrun hne
      obtain ⟨runId, hsome⟩ := Option.ne_none_iff_exists'.mp hne
      exact h (key message, runId) (mem_keyedRuns.mpr ⟨message, hmem, rfl, hsome⟩)
        (key message', runId) (mem_keyedRuns.mpr ⟨message', hmem', rfl, hrun ▸ hsome⟩) rfl
    · intro h pair hpair pair' hpair' heq
      obtain ⟨message, hmem, hkey, hrun⟩ := mem_keyedRuns.mp hpair
      obtain ⟨message', hmem', hkey', hrun'⟩ := mem_keyedRuns.mp hpair'
      rw [← hkey, ← hkey']
      apply h message hmem message' hmem'
      · rw [hrun, hrun', heq]
      · rw [hrun]
        exact Option.some_ne_none _
  · intro pair hpair
    obtain ⟨message, hmem, hkey, -⟩ := mem_keyedRuns.mp hpair
    exact hkey ▸ hkeys message hmem

end Keyed

/-- What the days and the channels add up to. -/
structure Balances (messages : List Message) (stats : UsageStatsSnapshot) : Prop where
  senders : stats.summary.totalUserMessages + stats.summary.totalAssistantMessages =
    stats.summary.totalMessages
  days : (stats.daily.map UsageDailyBreakdownSnapshot.messageCount).sum =
    stats.summary.totalMessages
  userDays : (stats.daily.map UsageDailyBreakdownSnapshot.userMessageCount).sum =
    stats.summary.totalUserMessages
  assistantDays : (stats.daily.map UsageDailyBreakdownSnapshot.assistantMessageCount).sum =
    stats.summary.totalAssistantMessages
  channels : (stats.channels.map UsageChannelBreakdownSnapshot.messageCount).sum =
    stats.summary.totalMessages
  runDays : stats.summary.totalRuns = (stats.daily.map UsageDailyBreakdownSnapshot.runCount).sum ↔
    OneKey Message.date messages
  runChannels : stats.summary.totalRuns =
      (stats.channels.map UsageChannelBreakdownSnapshot.runCount).sum ↔
    OneKey Message.channel messages

/-! ## The statistics of a window -/

theorem nodup_sortedBy {κ ι : Type} [LinearOrder ι] (key : κ → ι) {keys : List κ}
    (hnodup : keys.Nodup) : (sortedBy key keys).Nodup :=
  (sortedBy_perm key keys).nodup_iff.mpr hnodup

theorem Counted.isUsage (h : Counted messages counts) (days : ℤ) :
    IsUsage messages (counts.stats days messages.length) := by
  refine ⟨rfl, h.user, h.assistant, congrArg Finset.card h.runs, ?_, ?_, ?_, ?_, ?_⟩
  · exact (length_sortedBy.symm.trans (List.length_map _).symm)
  · have hkeys : (counts.dailyMessageCounts.keys.map id).Nodup :=
      (List.map_id _).symm ▸ counts.dailyMessageCounts.nodup
    exact List.pairwise_map.mpr (pairwise_lt_sortedBy hkeys)
  · intro day
    refine List.mem_map.trans ?_
    constructor
    · rintro ⟨date, hdate, rfl⟩
      obtain ⟨message, hmem, rfl⟩ := (h.dates date).mp (mem_sortedBy.mp hdate)
      exact ⟨message, hmem, by rw [h.daily, h.dailyUser, h.dailyAssistant, h.dailyRuns]⟩
    · rintro ⟨message, hmem, rfl⟩
      refine ⟨message.date, mem_sortedBy.mpr ((h.dates _).mpr ⟨message, hmem, rfl⟩), ?_⟩
      rw [h.daily, h.dailyUser, h.dailyAssistant, h.dailyRuns]
  · have hkeys : (counts.channelMessageCounts.keys.map fun channel =>
        toLex (-(counts.channelMessageCounts.getD channel 0 : ℤ), channel)).Nodup := by
      refine List.Nodup.of_map (fun key => (ofLex key).2) ?_
      rw [List.map_map]
      exact (List.map_id _).symm ▸ counts.channelMessageCounts.nodup
    refine List.pairwise_map.mpr ((pairwise_lt_sortedBy hkeys).imp fun {channel channel'} hlt => ?_)
    dsimp only
    obtain hcount | ⟨heq, hname⟩ := Prod.Lex.toLex_lt_toLex.mp hlt
    · exact .inl (by omega)
    · exact .inr ⟨by omega, hname⟩
  · intro item
    refine List.mem_map.trans ?_
    constructor
    · rintro ⟨channel, hchannel, rfl⟩
      obtain ⟨message, hmem, rfl⟩ := (h.channelKeys channel).mp (mem_sortedBy.mp hchannel)
      exact ⟨message, hmem, by rw [h.channel, h.channelRuns]⟩
    · rintro ⟨message, hmem, rfl⟩
      refine ⟨message.channel, mem_sortedBy.mpr ((h.channelKeys _).mpr ⟨message, hmem, rfl⟩), ?_⟩
      rw [h.channel, h.channelRuns]

theorem Counted.balances (h : Counted messages counts) (days : ℤ) :
    Balances messages (counts.stats days messages.length) := by
  have hdates := nodup_sortedBy id counts.dailyMessageCounts.nodup
  have hdate : ∀ message ∈ messages,
      message.date ∈ sortedBy id counts.dailyMessageCounts.keys := fun message hmem =>
    mem_sortedBy.mpr ((h.dates _).mpr ⟨message, hmem, rfl⟩)
  have hchannels := nodup_sortedBy (fun channel =>
    toLex (-(counts.channelMessageCounts.getD channel 0 : ℤ), channel))
      counts.channelMessageCounts.nodup
  have hchannel : ∀ message ∈ messages, message.channel ∈ sortedBy (fun channel =>
      toLex (-(counts.channelMessageCounts.getD channel 0 : ℤ), channel))
        counts.channelMessageCounts.keys := fun message hmem =>
    mem_sortedBy.mpr ((h.channelKeys _).mpr ⟨message, hmem, rfl⟩)
  constructor
  · show counts.totalUserMessages + counts.totalAssistantMessages = messages.length
    rw [h.user, h.assistant, Nat.add_comm, List.length_eq_countP_add_countP Message.isFromMe]
  · simp only [UsageCounts.stats, List.map_map, Function.comp_def, h.daily]
    exact sum_countP_eq_length Message.date hdates hdate
  · simp only [UsageCounts.stats, List.map_map, Function.comp_def, h.dailyUser, h.user]
    rw [← sum_countP_key Message.date _ hdates hdate]
    simp
  · simp only [UsageCounts.stats, List.map_map, Function.comp_def, h.dailyAssistant, h.assistant]
    exact sum_countP_key Message.date Message.isFromMe hdates hdate
  · rw [← sum_countP_eq_length Message.channel hchannels hchannel]
    simp only [UsageCounts.stats, List.map_map, Function.comp_def]
    exact congrArg List.sum (List.map_congr_left fun channel _ => h.channel channel)
  · simp only [UsageCounts.stats, List.map_map, Function.comp_def, h.dailyRuns, h.runs]
    exact card_runsOf_iff hdates hdate
  · simp only [UsageCounts.stats, List.map_map, Function.comp_def, h.channelRuns, h.runs]
    exact card_runsOf_iff hchannels hchannel

theorem counted_inWindow (rows : List Message) (now days : ℤ) :
    Counted (inWindow rows now days)
      ((sortedBy (fun message => toLex (message.timestamp, message.id))
        (inWindow rows now days)).foldl UsageCounts.add {}) :=
  (counted_foldl _).perm (sortedBy_perm _ _)

theorem balances_getUsageStats (rows : List Message) (now days : ℤ) :
    Balances (inWindow rows now days) (getUsageStats rows now days) := by
  unfold getUsageStats
  dsimp only
  rw [length_sortedBy]
  exact (counted_inWindow rows now days).balances _

/-- **The usage statistics** are those of the messages since the first day of the window. The days
and the channels add up to the total; for the runs, they do so if and only if no run has messages
on two days, and in two channels. -/
theorem usage_balances (rows : List Message) (now days : ℤ) :
    (getUsageStats rows now days).days = normalizeDays days ∧
      IsUsage (inWindow rows now days) (getUsageStats rows now days) ∧
      Balances (inWindow rows now days) (getUsageStats rows now days) := by
  refine ⟨rfl, ?_, balances_getUsageStats rows now days⟩
  unfold getUsageStats
  dsimp only
  rw [length_sortedBy]
  exact (counted_inWindow rows now days).isUsage _

end Portex
