import Portex.Terminal.Timeline
import Portex.Foundation.Json
import Portex.Foundation.TextFile

/-!
# The files of snapshots

A snapshot is written as a JSON text. The loader does not copy the fields of the text: it checks
the backend and the status, counts the output again where no count is there, and takes every date
to UTC.

## Main definitions

* `HistoryCodec`: `json.dumps`, and the ISO form of dates
* `historySnapshotPayload`: what is written
* `loadPersistedHistorySnapshotFromPath`: what is read
* `SnapshotTimes`: the dates of a snapshot

## Main results

* `load_snapshotText`: a snapshot is read as it was written
-/

namespace Portex

open Foundation

/-- The encodings that the service takes from the standard library. -/
structure HistoryCodec where
  /-- `json.dumps(payload, ensure_ascii=False)`. -/
  dumps : Json → List Char
  isoformat : Datetime → List Char
  fromisoformat : List Char → Option Datetime
  /-- `str(value)`, of a value that is not a text. -/
  str : Json → List Char

namespace TerminalSessionStatus

def text : TerminalSessionStatus → List Char
  | created => "created".toList
  | attached => "attached".toList
  | detached => "detached".toList
  | closed => "closed".toList
  | exited => "exited".toList

def all : List TerminalSessionStatus := [created, attached, detached, closed, exited]

def ofText? (text : List Char) : Option TerminalSessionStatus :=
  all.find? fun status => status.text = text

theorem ofText?_text (status : TerminalSessionStatus) : ofText? status.text = some status := by
  cases status <;> decide

end TerminalSessionStatus

/-! ## Writing -/

/-- The dates of a snapshot, of which it has the instants. -/
structure SnapshotTimes where
  createdAt : Datetime
  lastAttachedAt : Option Datetime
  reconnectDeadline : Option Datetime
  snapshotAt : Datetime

/-- A count in JSON. -/
def jsonCount (n : ℕ) : Json := .number (Nat.toDigits 10 n)

namespace HistoryCodec

variable (codec : HistoryCodec)

def optionalText : Option (List Char) → Json
  | none => .null
  | some chars => .str chars

/-- The value of `record`. -/
def recordPayload (record : TerminalSessionRecord) (times : SnapshotTimes) :
    List (List Char × Json) :=
  [("session_id".toList, .str record.sessionId.toList),
    ("group_id".toList, .str record.groupId.toList),
    ("group_folder".toList, .str record.groupFolder.toList),
    ("owner_user_id".toList, .str record.ownerUserId.toList),
    ("backend".toList, .str "docker_container".toList),
    ("container_name".toList, optionalText (record.containerName.map String.toList)),
    ("status".toList, .str record.status.text),
    ("created_at".toList, .str (codec.isoformat times.createdAt)),
    ("last_attached_at".toList, optionalText (times.lastAttachedAt.map codec.isoformat)),
    ("reconnect_deadline".toList, optionalText (times.reconnectDeadline.map codec.isoformat))]

/-- `_history_snapshot_payload`. -/
def historySnapshotPayload (snapshot : TerminalSessionHistorySnapshot) (times : SnapshotTimes) :
    List (List Char × Json) :=
  [("record".toList, .object (codec.recordPayload snapshot.record times)),
    ("snapshot_at".toList, .str (codec.isoformat times.snapshotAt)),
    ("output".toList, .str snapshot.output.toList),
    ("output_bytes".toList, jsonCount snapshot.outputBytes),
    ("history_max_bytes".toList, jsonCount snapshot.historyMaxBytes),
    ("truncated".toList, .bool snapshot.truncated)]

/-- The text of `_write_snapshot_payload`. -/
def snapshotText (snapshot : TerminalSessionHistorySnapshot) (times : SnapshotTimes) : List Char :=
  codec.dumps (.object (codec.historySnapshotPayload snapshot times))

/-! ## Reading -/

/-- `_parse_persisted_datetime`. -/
def parsePersistedDatetime : Option Json → Except HistoryError (Option ℕ)
  | some (.str chars) =>
    match codec.fromisoformat chars with
    | none => .ok none
    | some parsed => normalizeSnapshotBound (some parsed)
  | _ => .ok none

/-- `str(payload.get(name, ""))`. -/
def textField (name : String) (payload : List (List Char × Json)) : List Char :=
  match Json.get? name.toList payload with
  | none => []
  | some (.str chars) => chars
  | some value => codec.str value

/-- The number of a text without a fraction and an exponent. -/
def intOf? : List Char → Option ℤ
  | '-' :: digits =>
    if digits.all Char.isDigit then some (-(Nat.ofDigitChars 10 digits 0 : ℤ)) else none
  | digits => if digits.all Char.isDigit then some (Nat.ofDigitChars 10 digits 0 : ℤ) else none

/-- The number of a value that is an `int`; so is a `bool`. -/
def intValue? : Json → Option ℤ
  | .bool value => some (if value then 1 else 0)
  | .number digits => intOf? digits
  | _ => none

/-- A count of the payload, or a fallback where there is none. -/
def countField (name : String) (fallback : ℕ) (payload : List (List Char × Json)) : ℕ :=
  match (Json.get? name.toList payload).bind intValue? with
  | some count => if count < 0 then fallback else count.toNat
  | none => fallback

/-- `status not in {…}` raises where the value has no hash. -/
def statusField (payload : List (List Char × Json)) :
    Except HistoryError (Option TerminalSessionStatus) :=
  match Json.get? "status".toList payload with
  | some (.str chars) => .ok (TerminalSessionStatus.ofText? chars)
  | some (.array _) => .error .type
  | some (.object _) => .error .type
  | _ => .ok none

def containerNameField (payload : List (List Char × Json)) : Option String :=
  match Json.get? "container_name".toList payload with
  | some (.str chars) => some (String.ofList chars)
  | _ => none

def isDockerContainer (payload : List (List Char × Json)) : Bool :=
  match Json.get? "backend".toList payload with
  | some (.str chars) => chars = "docker_container".toList
  | _ => false

def truncatedField (payload : List (List Char × Json)) : Bool :=
  match Json.get? "truncated".toList payload with
  | some (.bool truncated) => truncated
  | _ => false

/-- The record of a payload that has the backend, a creation date and a status. -/
def loadRecord (payload : List (List Char × Json)) :
    Except HistoryError (Option TerminalSessionRecord) := do
  if isDockerContainer payload = false then return none
  let createdAt? ← codec.parsePersistedDatetime (Json.get? "created_at".toList payload)
  match createdAt? with
  | none => return none
  | some createdAt =>
    match ← statusField payload with
    | none => return none
    | some status =>
      let lastAttachedAt ← codec.parsePersistedDatetime
        (Json.get? "last_attached_at".toList payload)
      let reconnectDeadline ← codec.parsePersistedDatetime
        (Json.get? "reconnect_deadline".toList payload)
      let record : TerminalSessionRecord :=
        { sessionId := String.ofList (codec.textField "session_id" payload)
          groupId := String.ofList (codec.textField "group_id" payload)
          groupFolder := String.ofList (codec.textField "group_folder" payload)
          ownerUserId := String.ofList (codec.textField "owner_user_id" payload)
          containerName := containerNameField payload
          status, createdAt, lastAttachedAt, reconnectDeadline }
      if record.sessionId = "" ∨ record.groupId = "" ∨ record.groupFolder = "" ∨
          record.ownerUserId = "" then return none
      return some record

/-- The loader, from the value of the text on. -/
def loadPayload (historyMaxBytes : ℕ) (payload : List (List Char × Json)) :
    Except HistoryError (Option TerminalSessionHistorySnapshot) := do
  match Json.get? "record".toList payload, Json.get? "output".toList payload with
  | some (.object recordPayload), some (.str output) =>
    match ← codec.loadRecord recordPayload with
    | none => return none
    | some record =>
      let snapshotAt ← codec.parsePersistedDatetime (Json.get? "snapshot_at".toList payload)
      return some
        { record
          snapshotAt := snapshotAt.getD record.createdAt
          output := String.ofList output
          outputBytes := countField "output_bytes" (sizeOf8 output) payload
          historyMaxBytes := countField "history_max_bytes" historyMaxBytes payload
          truncated := truncatedField payload }
  | _, _ => return none

/-- `_load_persisted_history_snapshot_from_path`, of the text of the file that is there. -/
def loadPersistedHistorySnapshotFromPath (historyMaxBytes : ℕ) :
    Option (List Char) → Except HistoryError (Option TerminalSessionHistorySnapshot)
  | none => .ok none
  | some text =>
    match loads (universalNewlines text) with
    | some (.object payload) => codec.loadPayload historyMaxBytes payload
    | _ => .ok none

end HistoryCodec

/-! ## What is read again -/

/-- The date stands for an instant, and can be taken to UTC. -/
structure Datetime.Stands (time : Datetime) (instant : ℕ) : Prop where
  instant_eq : time.instant = instant
  le_max : instant ≤ maxTicks

/-- The dates are those of the snapshot. -/
structure SnapshotTimes.Of (times : SnapshotTimes) (snapshot : TerminalSessionHistorySnapshot) :
    Prop where
  createdAt : times.createdAt.Stands snapshot.record.createdAt
  lastAttachedAt : Option.Rel Datetime.Stands times.lastAttachedAt snapshot.record.lastAttachedAt
  reconnectDeadline :
    Option.Rel Datetime.Stands times.reconnectDeadline snapshot.record.reconnectDeadline
  snapshotAt : times.snapshotAt.Stands snapshot.snapshotAt

/-- The ids that the loader wants. -/
structure TerminalSessionRecord.HasIds (record : TerminalSessionRecord) : Prop where
  sessionId : record.sessionId ≠ ""
  groupId : record.groupId ≠ ""
  groupFolder : record.groupFolder ≠ ""
  ownerUserId : record.ownerUserId ≠ ""

/-- JSON and the ISO dates are read as they were written. -/
structure HistoryCodec.Faithful (codec : HistoryCodec) (snapshot : TerminalSessionHistorySnapshot)
    (times : SnapshotTimes) : Prop where
  reads : loads (codec.snapshotText snapshot times) =
    some (.object (codec.historySnapshotPayload snapshot times))
  /-- Control characters are escaped. -/
  noReturn : '\r' ∉ codec.snapshotText snapshot times
  iso : ∀ time ∈ times.createdAt :: times.snapshotAt ::
    (times.lastAttachedAt.toList ++ times.reconnectDeadline.toList),
      codec.fromisoformat (codec.isoformat time) = some time

variable {codec : HistoryCodec} {snapshot : TerminalSessionHistorySnapshot} {times : SnapshotTimes}

theorem normalize_stands {time : Datetime} {instant : ℕ} (h : time.Stands instant) :
    normalizeSnapshotBound (some time) = .ok (some instant) := by
  have hrange : 0 ≤ time.instant ∧ time.instant ≤ maxTicks := by
    rw [h.instant_eq]
    exact ⟨Int.natCast_nonneg _, Int.ofNat_le.mpr h.le_max⟩
  show (if 0 ≤ time.instant ∧ time.instant ≤ maxTicks then _ else _) = _
  rw [if_pos hrange, h.instant_eq, Int.toNat_natCast]

/-- A date is read as its instant. -/
theorem parse_isoformat {time : Datetime} {instant : ℕ}
    (hiso : codec.fromisoformat (codec.isoformat time) = some time) (h : time.Stands instant) :
    codec.parsePersistedDatetime (some (.str (codec.isoformat time))) = .ok (some instant) := by
  simp only [HistoryCodec.parsePersistedDatetime, hiso, normalize_stands h]

/-- A date that may be absent is read as such. -/
theorem parse_optional {time : Option Datetime} {instant : Option ℕ}
    (hiso : ∀ time' ∈ time.toList, codec.fromisoformat (codec.isoformat time') = some time')
    (h : Option.Rel Datetime.Stands time instant) :
    codec.parsePersistedDatetime
      (some (HistoryCodec.optionalText (time.map codec.isoformat))) = .ok instant := by
  cases h with
  | none => rfl
  | some h => exact parse_isoformat (hiso _ (by simp)) h

theorem intValue?_count (n : ℕ) : HistoryCodec.intValue? (jsonCount n) = some (n : ℤ) := by
  have hdigits : (Nat.toDigits 10 n).all Char.isDigit = true := by
    rw [List.all_eq_true]
    exact fun ch hch => Nat.isDigit_of_mem_toDigits (by decide) (by decide) hch
  have hvalue : Nat.ofDigitChars 10 (Nat.toDigits 10 n) 0 = n :=
    Nat.ofDigitChars_toDigits (by decide) (Nat.le_refl 10)
  show HistoryCodec.intOf? (Nat.toDigits 10 n) = _
  unfold HistoryCodec.intOf?
  split
  · -- No digit is a sign.
    rename_i digits heq
    rw [heq] at hdigits
    cases hdigits
  · rw [if_pos hdigits, hvalue]

theorem countField_of_count {name : String} {fallback n : ℕ} {payload : List (List Char × Json)}
    (h : Json.get? name.toList payload = some (jsonCount n)) :
    HistoryCodec.countField name fallback payload = n := by
  have hnonneg : ¬ (n : ℤ) < 0 := by omega
  simp only [HistoryCodec.countField, h, Option.bind_some, intValue?_count, if_neg hnonneg,
    Int.toNat_natCast]

theorem textField_of_str {name : String} {chars : List Char} {payload : List (List Char × Json)}
    (h : Json.get? name.toList payload = some (.str chars)) :
    codec.textField name payload = chars := by
  simp only [HistoryCodec.textField, h]

theorem statusField_recordPayload (record : TerminalSessionRecord) (times : SnapshotTimes) :
    HistoryCodec.statusField (codec.recordPayload record times) = .ok (some record.status) := by
  have hget : Json.get? "status".toList (codec.recordPayload record times) =
      some (.str record.status.text) := rfl
  simp only [HistoryCodec.statusField, hget, TerminalSessionStatus.ofText?_text]

theorem containerNameField_recordPayload (record : TerminalSessionRecord) (times : SnapshotTimes) :
    HistoryCodec.containerNameField (codec.recordPayload record times) = record.containerName := by
  have hget : Json.get? "container_name".toList (codec.recordPayload record times) =
      some (HistoryCodec.optionalText (record.containerName.map String.toList)) := rfl
  unfold HistoryCodec.containerNameField
  rw [hget]
  cases record.containerName with
  | none => rfl
  | some name => simp [HistoryCodec.optionalText]

/-- **A record is read as it was written.** -/
theorem loadRecord_recordPayload (htimes : times.Of snapshot) (hids : snapshot.record.HasIds)
    (hcodec : codec.Faithful snapshot times) :
    codec.loadRecord (codec.recordPayload snapshot.record times) = .ok (some snapshot.record) := by
  have hbackend : HistoryCodec.isDockerContainer (codec.recordPayload snapshot.record times) =
      true := rfl
  have hcreated : codec.parsePersistedDatetime (Json.get? "created_at".toList
      (codec.recordPayload snapshot.record times)) = .ok (some snapshot.record.createdAt) :=
    parse_isoformat (hcodec.iso _ (by simp)) htimes.createdAt
  have hattached : codec.parsePersistedDatetime (Json.get? "last_attached_at".toList
      (codec.recordPayload snapshot.record times)) = .ok snapshot.record.lastAttachedAt :=
    parse_optional (fun time htime => hcodec.iso time (by simp_all)) htimes.lastAttachedAt
  have hdeadline : codec.parsePersistedDatetime (Json.get? "reconnect_deadline".toList
      (codec.recordPayload snapshot.record times)) = .ok snapshot.record.reconnectDeadline :=
    parse_optional (fun time htime => hcodec.iso time (by simp_all)) htimes.reconnectDeadline
  -- The four ids are texts of the payload.
  have hsession : codec.textField "session_id" (codec.recordPayload snapshot.record times) =
      snapshot.record.sessionId.toList := textField_of_str rfl
  have hgroup : codec.textField "group_id" (codec.recordPayload snapshot.record times) =
      snapshot.record.groupId.toList := textField_of_str rfl
  have hfolder : codec.textField "group_folder" (codec.recordPayload snapshot.record times) =
      snapshot.record.groupFolder.toList := textField_of_str rfl
  have howner : codec.textField "owner_user_id" (codec.recordPayload snapshot.record times) =
      snapshot.record.ownerUserId.toList := textField_of_str rfl
  have hnone : ¬ (snapshot.record.sessionId = "" ∨ snapshot.record.groupId = "" ∨
      snapshot.record.groupFolder = "" ∨ snapshot.record.ownerUserId = "") := by
    rintro (h | h | h | h)
    · exact hids.sessionId h
    · exact hids.groupId h
    · exact hids.groupFolder h
    · exact hids.ownerUserId h
  unfold HistoryCodec.loadRecord
  simp only [hbackend, hcreated, hattached, hdeadline, hsession, hgroup, hfolder, howner, hnone,
    statusField_recordPayload, containerNameField_recordPayload, String.ofList_toList, bind,
    Except.bind, pure, Except.pure, if_false, Bool.true_eq_false]

/-- **A payload is read as it was written**, whatever limit the loader has. -/
theorem loadPayload_historySnapshotPayload (historyMaxBytes : ℕ) (htimes : times.Of snapshot)
    (hids : snapshot.record.HasIds) (hcodec : codec.Faithful snapshot times) :
    codec.loadPayload historyMaxBytes (codec.historySnapshotPayload snapshot times) =
      .ok (some snapshot) := by
  have hrecord : Json.get? "record".toList (codec.historySnapshotPayload snapshot times) =
      some (.object (codec.recordPayload snapshot.record times)) := rfl
  have houtput : Json.get? "output".toList (codec.historySnapshotPayload snapshot times) =
      some (.str snapshot.output.toList) := rfl
  have hsnapshotAt : codec.parsePersistedDatetime (Json.get? "snapshot_at".toList
      (codec.historySnapshotPayload snapshot times)) = .ok (some snapshot.snapshotAt) :=
    parse_isoformat (hcodec.iso _ (by simp)) htimes.snapshotAt
  have hbytes : ∀ fallback, HistoryCodec.countField "output_bytes" fallback
      (codec.historySnapshotPayload snapshot times) = snapshot.outputBytes :=
    fun fallback => countField_of_count rfl
  have hmax : ∀ fallback, HistoryCodec.countField "history_max_bytes" fallback
      (codec.historySnapshotPayload snapshot times) = snapshot.historyMaxBytes :=
    fun fallback => countField_of_count rfl
  have htruncated : HistoryCodec.truncatedField (codec.historySnapshotPayload snapshot times) =
      snapshot.truncated := rfl
  unfold HistoryCodec.loadPayload
  simp only [hrecord, houtput, loadRecord_recordPayload htimes hids hcodec, hsnapshotAt, hbytes,
    hmax, htruncated, String.ofList_toList, Option.getD_some, bind, Except.bind, pure, Except.pure]

/-- **A snapshot is read as it was written**, whatever limit the service has that reads it. -/
theorem load_snapshotText (historyMaxBytes : ℕ) (htimes : times.Of snapshot)
    (hids : snapshot.record.HasIds) (hcodec : codec.Faithful snapshot times) :
    codec.loadPersistedHistorySnapshotFromPath historyMaxBytes
      (some (codec.snapshotText snapshot times)) = .ok (some snapshot) := by
  have htext : universalNewlines (codec.snapshotText snapshot times) =
      codec.snapshotText snapshot times := universalNewlines_eq_self.mpr hcodec.noReturn
  unfold HistoryCodec.loadPersistedHistorySnapshotFromPath
  simp only [htext, hcodec.reads]
  exact loadPayload_historySnapshotPayload historyMaxBytes htimes hids hcodec

/-! ### A snapshot in a file -/

mutual

/-- `json.dumps(value, ensure_ascii=False)`. -/
def jsonLine : Json → List Char
  | .null => "null".toList
  | .bool value => if value then "true".toList else "false".toList
  | .number digits => digits
  | .str chars => quoted chars
  | .array items => '[' :: jsonLineItems items ++ [']']
  | .object members => '\x7b' :: jsonLineMembers members ++ ['\x7d']

def jsonLineItems : List Json → List Char
  | [] => []
  | [item] => jsonLine item
  | item :: items => jsonLine item ++ ',' :: ' ' :: jsonLineItems items

def jsonLineMembers : List (List Char × Json) → List Char
  | [] => []
  | [(name, value)] => quoted name ++ ':' :: ' ' :: jsonLine value
  | (name, value) :: members =>
    quoted name ++ ':' :: ' ' :: jsonLine value ++ ',' :: ' ' :: jsonLineMembers members

end

/-- The first of January 2026, and five seconds later. -/
def newYear : Datetime := ⟨⟨63902822400000000, by decide⟩, some 0⟩

def newYearLater : Datetime := ⟨⟨63902822405000000, by decide⟩, some 0⟩

def newYearCodec : HistoryCodec where
  dumps := jsonLine
  isoformat time :=
    if time = newYear then "2026-01-01T00:00:00+00:00".toList
    else "2026-01-01T00:00:05+00:00".toList
  fromisoformat text :=
    if text = "2026-01-01T00:00:00+00:00".toList then some newYear
    else if text = "2026-01-01T00:00:05+00:00".toList then some newYearLater
    else none
  str _ := []

/-- A session that was attached and has not been detached. -/
def newYearSnapshot : TerminalSessionHistorySnapshot where
  record :=
    { sessionId := "s1", groupId := "web:alpha", groupFolder := "alpha", ownerUserId := "user-1"
      status := .attached, createdAt := 63902822400000000
      lastAttachedAt := some 63902822405000000 }
  snapshotAt := 63902822405000000
  output := "\"é\"\r\n"
  outputBytes := 6
  historyMaxBytes := 10
  truncated := true

def newYearTimes : SnapshotTimes where
  createdAt := newYear
  lastAttachedAt := some newYearLater
  reconnectDeadline := none
  snapshotAt := newYearLater

set_option maxRecDepth 4000 in
theorem load_snapshotText_newYear :
    newYearCodec.loadPersistedHistorySnapshotFromPath 32768
      (some (newYearCodec.snapshotText newYearSnapshot newYearTimes)) =
        .ok (some newYearSnapshot) := by
  have htimes : newYearTimes.Of newYearSnapshot :=
    ⟨⟨by decide, by decide⟩, .some ⟨by decide, by decide⟩, .none, ⟨by decide, by decide⟩⟩
  have hids : newYearSnapshot.record.HasIds := by
    constructor <;> decide
  have hcodec : newYearCodec.Faithful newYearSnapshot newYearTimes :=
    ⟨by rfl, by decide +kernel, by decide +kernel⟩
  exact load_snapshotText 32768 htimes hids hcodec

end Portex
