import Portex.Foundation.Dict
import Portex.Foundation.JsonWriter
import Portex.Foundation.TextFile
import Portex.Memory.Service

/-!
# The store of MCP servers

Each user has a file `servers.json` with the MCP servers of the user. Every operation of
`McpServersService` reads the whole file, and the writes write all of it back. What is stored
passes through the normalisers of both sides: `_normalize_transport_payload` when a server is
upserted, and `_detail_from_record` when it is read.

The file is a regular file or missing; its text is the characters of its bytes.

## Main definitions

* `Record`, `Servers`: a server and the servers as JSON objects
* `McpServerDetail`, `McpServerEntry`: a server as it is given out
* `readUserServers`, `writeUserServers`: the file
* `listUserServers`, `getUserServer`, `upsertUserServer`, `setUserServerEnabled`,
  `deleteUserServer`: the operations
-/

namespace Portex

open Foundation

/-- A string, as its characters. -/
abbrev Str := List Char

inductive McpError
  /-- `ValueError`. -/
  | value (detail : String)
  /-- `FileNotFoundError`. -/
  | notFound (detail : String)
  deriving DecidableEq

/-! ## Datetimes -/

def daysInMonth (year month : ℕ) : ℕ :=
  if month = 2 then
    if year % 4 = 0 ∧ (year % 100 ≠ 0 ∨ year % 400 = 0) then 29 else 28
  else if month ∈ [4, 6, 9, 11] then 30 else 31

/-- The day is one of the calendar. -/
def Day.Valid (day : Day) : Prop :=
  1 ≤ day.year ∧ day.year ≤ 9999 ∧ 1 ≤ day.month ∧ day.month ≤ 12 ∧ 1 ≤ day.day ∧
    day.day ≤ daysInMonth day.year day.month

instance (day : Day) : Decidable day.Valid := inferInstanceAs (Decidable (_ ∧ _))

/-- A datetime in UTC. -/
structure UtcTime where
  day : Day
  hour : ℕ
  minute : ℕ
  second : ℕ
  microsecond : ℕ
  day_valid : day.Valid := by decide
  clock_valid : hour < 24 ∧ minute < 60 ∧ second < 60 ∧ microsecond < 1000000 := by decide

/-- `value.replace(microsecond=0)`. -/
def UtcTime.truncate (time : UtcTime) : UtcTime where
  day := time.day
  hour := time.hour
  minute := time.minute
  second := time.second
  microsecond := 0
  day_valid := time.day_valid
  clock_valid := ⟨time.clock_valid.1, time.clock_valid.2.1, time.clock_valid.2.2.1, by decide⟩

/-- `_iso_datetime`. -/
def isoDatetime (time : UtcTime) : Str :=
  time.day.isoformat ++ ['T'] ++ digits 2 time.hour ++ [':'] ++ digits 2 time.minute ++ [':'] ++
    digits 2 time.second ++ "+00:00".toList

/-! ## Servers -/

inductive McpTransport
  | stdio | http | sse
  deriving DecidableEq

def McpTransport.text : McpTransport → Str
  | .stdio => "stdio".toList
  | .http => "http".toList
  | .sse => "sse".toList

/-- `text.strip().lower()`, where it is one of `_MCP_TRANSPORTS`. -/
def McpTransport.parse (text : Str) : Option McpTransport :=
  let normalized := (strip text).map Char.toLower
  if normalized = "stdio".toList then some .stdio
  else if normalized = "http".toList then some .http
  else if normalized = "sse".toList then some .sse
  else none

structure McpServerEntry where
  serverId : Str
  transport : McpTransport
  enabled : Bool
  updatedAt : UtcTime

structure McpServerDetail where
  serverId : Str
  transport : McpTransport
  enabled : Bool
  description : Option Str
  createdAt : UtcTime
  updatedAt : UtcTime
  command : Option Str
  args : Option (List Str)
  env : Option (Dict Str Str)
  url : Option Str
  headers : Option (Dict Str Str)

/-- A JSON object that stands for a server. -/
abbrev Record := Dict Str Json

abbrev Servers := Dict Str Record

/-! ## Normalisation -/

/-- `_SAFE_SEGMENT.fullmatch(text)`. -/
def isSafeSegment : Str → Bool
  | [] => false
  | ch :: rest => ch.isAlphanum && rest.all fun ch => ch.isAlphanum || ch ∈ ['.', '_', '-']

/-- `_validate_segment`. -/
def validateSegment (value : Str) (label : String) : Except McpError Str :=
  if isSafeSegment (strip value) then .ok (strip value) else .error (.value ("invalid " ++ label))

/-- `_normalize_optional_string`. -/
def normalizeOptionalString (value : Option Str) : Option Str :=
  match value with
  | none => none
  | some value => if strip value = [] then none else some (strip value)

def invalidFile : McpError := .value "invalid mcp servers file"

/-- `_normalize_required_string`. -/
def normalizeRequiredString : Json → Except McpError Str
  | .str value => if strip value = [] then .error invalidFile else .ok (strip value)
  | _ => .error invalidFile

def normalizeStrings (label : String) : List Json → Except McpError (List Str)
  | [] => .ok []
  | .str item :: items =>
    if strip item = [] then .error (.value (label ++ " must be an array of strings"))
    else (normalizeStrings label items).map fun normalized => strip item :: normalized
  | _ :: _ => .error (.value (label ++ " must be an array of strings"))

/-- `_normalize_string_list`. -/
def normalizeStringList (value : Json) (label : String) : Except McpError (List Str) :=
  match value with
  | .null => .ok []
  | .array items => normalizeStrings label items
  | _ => .error (.value (label ++ " must be an array of strings"))

def normalizePairs (label : String) : List (Str × Json) → Dict Str Str → Except McpError (Dict Str Str)
  | [], normalized => .ok normalized
  | (key, .str item) :: items, normalized =>
    if strip key = [] then .error (.value (label ++ " must be an object with string values"))
    else normalizePairs label items (normalized.insert (strip key) item)
  | _ :: _, _ => .error (.value (label ++ " must be an object with string values"))

/-- `_normalize_string_dict`. -/
def normalizeStringDict (value : Json) (label : String) : Except McpError (Dict Str Str) :=
  match value with
  | .null => .ok ∅
  | .object members => normalizePairs label (Dict.ofItems members).items ∅
  | _ => .error (.value (label ++ " must be an object with string values"))

/-! ### Values of Python as JSON -/

def jsonString : Option Str → Json
  | none => .null
  | some value => .str value

def jsonStrings (values : List Str) : Json := .array (values.map .str)

def jsonDict (values : Dict Str Str) : Json :=
  .object (values.items.map fun item => (item.1, .str item.2))

/-- The arguments of an upsert that say how the server is reached. -/
structure TransportArguments where
  transport : Str
  command : Option Str := none
  args : Option (List Str) := none
  env : Option (Dict Str Str) := none
  url : Option Str := none
  headers : Option (Dict Str Str) := none

/-- The arguments of an upsert. -/
structure UpsertArguments extends TransportArguments where
  description : Option Str := none

/-- What `_normalize_transport_payload` answers. -/
inductive TransportPayload
  | stdio (command : Str) (args : List Str) (env : Dict Str Str)
  /-- `remote` is `http` or `sse`. -/
  | remote (transport : McpTransport) (url : Str) (headers : Dict Str Str)

def TransportPayload.transport : TransportPayload → McpTransport
  | .stdio _ _ _ => .stdio
  | .remote transport _ _ => transport

def normalizeTransportPayload (arguments : TransportArguments) : Except McpError TransportPayload :=
  match McpTransport.parse arguments.transport with
  | none => .error (.value "invalid transport")
  | some .stdio =>
    match normalizeOptionalString arguments.command with
    | none => .error (.value "command is required for stdio transport")
    | some command => do
      let args ← normalizeStringList ((arguments.args.map jsonStrings).getD .null) "args"
      let env ← normalizeStringDict ((arguments.env.map jsonDict).getD .null) "env"
      .ok (.stdio command args env)
  | some transport =>
    match normalizeOptionalString arguments.url with
    | none => .error (.value "url is required for http/sse transport")
    | some url => do
      let headers ← normalizeStringDict ((arguments.headers.map jsonDict).getD .null) "headers"
      .ok (.remote transport url headers)

/-! ## The service -/

structure McpServersService where
  maxFileSizeBytes : ℕ := 512 * 1024
  /-- `datetime.fromisoformat(text)`, brought to UTC. -/
  fromisoformat : Str → Option UtcTime

/-- The file of a user, where it exists. -/
abbrev ServersFile := Option Str

namespace McpServersService

variable (service : McpServersService)

/-- `_parse_datetime`. -/
def parseDatetime (value : Json) : Except McpError UtcTime :=
  match value with
  | .str value =>
    let candidate := strip value
    if candidate = [] then .error invalidFile
    else
      let candidate :=
        if candidate.getLast? = some 'Z' then candidate.dropLast ++ "+00:00".toList else candidate
      match service.fromisoformat candidate with
      | none => .error invalidFile
      | some time => .ok time
  | _ => .error invalidFile

/-- `record.get(name)`. -/
def field (record : Record) (name : String) : Json := record.getD name.toList .null

/-- `_detail_from_record`. -/
def detailFromRecord (serverId : Str) (record : Record) : Except McpError McpServerDetail :=
  match record.getD "enabled".toList (.bool true), field record "transport",
      field record "description" with
  | .bool enabled, .str transport, description =>
    match McpTransport.parse transport, description with
    | none, _ => .error invalidFile
    | some transport, .null => finish serverId record enabled transport none
    | some transport, .str description =>
      finish serverId record enabled transport (some description)
    | some _, _ => .error invalidFile
  | _, _, _ => .error invalidFile
where
  /-- The rest of the method, once the first three fields have been read. -/
  finish (serverId : Str) (record : Record) (enabled : Bool) (transport : McpTransport)
      (description : Option Str) : Except McpError McpServerDetail := do
    let createdAt ← service.parseDatetime (field record "created_at")
    let updatedAt ← service.parseDatetime (field record "updated_at")
    if transport = .stdio then do
      let command ← normalizeRequiredString (field record "command")
      let args ← normalizeStringList (field record "args") "args"
      let env ← normalizeStringDict (field record "env") "env"
      .ok { serverId, transport := .stdio, enabled, description, createdAt, updatedAt,
            command := some command, args := some args, env := some env, url := none,
            headers := none }
    else do
      let url ← normalizeRequiredString (field record "url")
      let headers ← normalizeStringDict (field record "headers") "headers"
      .ok { serverId, transport, enabled, description, createdAt, updatedAt, command := none,
            args := none, env := none, url := some url, headers := some headers }

/-! ### The file -/

/-- The servers of an object, with their ids checked. -/
def normalizeServers : List (Str × Json) → Servers → Except McpError Servers
  | [], normalized => .ok normalized
  | (serverId, .object record) :: servers, normalized =>
    match validateSegment serverId "server id" with
    | .error error => .error error
    | .ok safeServerId => normalizeServers servers (normalized.insert safeServerId (.ofItems record))
  | _ :: _, _ => .error invalidFile

/-- `_read_user_servers`. -/
def readUserServers (file : ServersFile) : Except McpError Servers :=
  match file with
  | none => .ok ∅
  | some text =>
    if sizeOf8 text > service.maxFileSizeBytes then
      .error (.value "mcp servers file exceeds size limit")
    else
      match loads (universalNewlines text) with
      | some (.object payload) =>
        match (Dict.ofItems payload).getD "servers".toList (.object []) with
        | .object servers => normalizeServers (Dict.ofItems servers).items ∅
        | _ => .error invalidFile
      | _ => .error invalidFile

/-- `item.lower()`, of server ids. -/
def lower (text : Str) : Str := text.map Char.toLower

/-- `sorted(servers.keys(), key=lambda item: item.lower())`. -/
def sortedIds (servers : Servers) : List Str :=
  servers.keys.insertionSort fun serverId serverId' => lower serverId ≤ lower serverId'

/-- The object of the servers, as it is encoded. -/
def payloadOf (servers : Servers) : Json :=
  .object [("servers".toList, .object ((sortedIds servers).filterMap fun serverId =>
    (servers.get? serverId).map fun record => (serverId, .object record.items)))]

/-- `encoded`. -/
def encodeServers (servers : Servers) : Str := dumps (payloadOf servers)

/-- `_write_user_servers`: the new text of the file. -/
def writeUserServers (servers : Servers) : Except McpError Str :=
  if sizeOf8 (encodeServers servers) > service.maxFileSizeBytes then
    .error (.value "mcp servers file exceeds size limit")
  else .ok (encodeServers servers ++ ['\n'])

/-! ### The operations -/

/-- `[self._detail_from_record(server_id, servers[server_id]) for server_id in server_ids]`. -/
def entriesOf (servers : Servers) : List Str → Except McpError (List McpServerEntry)
  | [] => .ok []
  | serverId :: serverIds => do
    let detail ← service.detailFromRecord serverId ((servers.get? serverId).getD ∅)
    let entries ← entriesOf servers serverIds
    .ok ({ serverId := detail.serverId, transport := detail.transport, enabled := detail.enabled,
           updatedAt := detail.updatedAt } :: entries)

def listUserServers (file : ServersFile) : Except McpError (List McpServerEntry) := do
  let servers ← service.readUserServers file
  service.entriesOf servers (sortedIds servers)

def serverNotFound : McpError := .notFound "mcp server not found"

def getUserServer (serverId : Str) (file : ServersFile) : Except McpError McpServerDetail := do
  let safeServerId ← validateSegment serverId "server id"
  let servers ← service.readUserServers file
  match servers.get? safeServerId with
  | none => .error serverNotFound
  | some record => service.detailFromRecord safeServerId record

/-- The record of an upsert. -/
def recordOf (payload : TransportPayload) (enabled : Bool) (description : Option Str)
    (createdAt now : UtcTime) : Record :=
  let record : Record := .ofItems [("enabled".toList, .bool enabled),
    ("transport".toList, .str payload.transport.text), ("description".toList, jsonString description),
    ("created_at".toList, .str (isoDatetime createdAt)),
    ("updated_at".toList, .str (isoDatetime now))]
  match payload with
  | .stdio command args env => record.insertAll [("command".toList, .str command),
      ("args".toList, jsonStrings args), ("env".toList, jsonDict env)]
  | .remote _ url headers => record.insertAll [("url".toList, .str url),
      ("headers".toList, jsonDict headers)]

/-- `_upsert_user_server`: the servers that it writes. -/
def upsertedServers (now : UtcTime) (serverId : Str) (arguments : UpsertArguments)
    (file : ServersFile) : Except McpError (Str × Record × Servers) := do
  let safeServerId ← validateSegment serverId "server id"
  let payload ← normalizeTransportPayload arguments.toTransportArguments
  let description := normalizeOptionalString arguments.description
  let servers ← service.readUserServers file
  match servers.get? safeServerId with
  | none =>
    let record := recordOf payload true description now now
    .ok (safeServerId, record, servers.insert safeServerId record)
  | some existing => do
    let detail ← service.detailFromRecord safeServerId existing
    let record := recordOf payload detail.enabled description detail.createdAt now
    .ok (safeServerId, record, servers.insert safeServerId record)

/-- `_set_user_server_enabled`: the servers that it writes, where the flag changes. -/
def enabledServers (now : UtcTime) (serverId : Str) (enabled : Bool) (file : ServersFile) :
    Except McpError (Str × Record × Option Servers) := do
  let safeServerId ← validateSegment serverId "server id"
  let servers ← service.readUserServers file
  match servers.get? safeServerId with
  | none => .error serverNotFound
  | some record => do
    let detail ← service.detailFromRecord safeServerId record
    if detail.enabled = enabled then .ok (safeServerId, record, none)
    else
      let updated := (record.insert "enabled".toList (.bool enabled)).insert "updated_at".toList
        (.str (isoDatetime now))
      .ok (safeServerId, updated, some (servers.insert safeServerId updated))

/-- `_delete_user_server`: the servers that it writes. -/
def remainingServers (serverId : Str) (file : ServersFile) : Except McpError Servers := do
  let safeServerId ← validateSegment serverId "server id"
  let servers ← service.readUserServers file
  if servers.contains safeServerId then .ok (servers.erase safeServerId) else .error serverNotFound

/-- `upsert_user_server`. -/
def upsertUserServer (now : UtcTime) (serverId : Str) (arguments : UpsertArguments)
    (file : ServersFile) : Except McpError McpServerDetail × ServersFile :=
  match service.upsertedServers now serverId arguments file with
  | .error error => (.error error, file)
  | .ok (safeServerId, record, servers) =>
    match service.writeUserServers servers with
    | .error error => (.error error, file)
    | .ok text => (service.detailFromRecord safeServerId record, some text)

/-- `set_user_server_enabled`. -/
def setUserServerEnabled (now : UtcTime) (serverId : Str) (enabled : Bool) (file : ServersFile) :
    Except McpError McpServerDetail × ServersFile :=
  match service.enabledServers now serverId enabled file with
  | .error error => (.error error, file)
  | .ok (safeServerId, record, none) => (service.detailFromRecord safeServerId record, file)
  | .ok (safeServerId, record, some servers) =>
    match service.writeUserServers servers with
    | .error error => (.error error, file)
    | .ok text => (service.detailFromRecord safeServerId record, some text)

/-- `delete_user_server`. -/
def deleteUserServer (serverId : Str) (file : ServersFile) : Except McpError Unit × ServersFile :=
  match service.remainingServers serverId file with
  | .error error => (.error error, file)
  | .ok servers =>
    match service.writeUserServers servers with
    | .error error => (.error error, file)
    | .ok text => (.ok (), some text)

end McpServersService

/-! ## Requests -/

/-- A request that may write the file. -/
inductive McpRequest
  | upsert (now : UtcTime) (serverId : Str) (arguments : UpsertArguments)
  | setEnabled (now : UtcTime) (serverId : Str) (enabled : Bool)
  | delete (serverId : Str)

namespace McpRequest

variable (service : McpServersService)

/-- The file after the request. -/
def perform (file : ServersFile) : McpRequest → ServersFile
  | .upsert now serverId arguments => (service.upsertUserServer now serverId arguments file).2
  | .setEnabled now serverId enabled => (service.setUserServerEnabled now serverId enabled file).2
  | .delete serverId => (service.deleteUserServer serverId file).2

/-- The servers that the request writes, where it has read the file. -/
def planned (request : McpRequest) (file : ServersFile) : Option Servers :=
  match request with
  | .upsert now serverId arguments =>
    (service.upsertedServers now serverId arguments file).toOption.map fun plan => plan.2.2
  | .setEnabled now serverId enabled =>
    (service.enabledServers now serverId enabled file).toOption.bind fun plan => plan.2.2
  | .delete serverId => (service.remainingServers serverId file).toOption

/-- The text that the request writes, where it has read the file. -/
def written (request : McpRequest) (file : ServersFile) : Option Str :=
  (request.planned service file).bind fun servers => (service.writeUserServers servers).toOption

/-- **A request writes what it has planned**, and leaves the file alone otherwise. -/
theorem perform_eq (request : McpRequest) (file : ServersFile) :
    request.perform service file = (request.written service file).or file := by
  cases request with
  | upsert now serverId arguments =>
    simp only [perform, written, planned, McpServersService.upsertUserServer]
    cases service.upsertedServers now serverId arguments file with
    | error error => rfl
    | ok plan =>
      simp only [Except.toOption, Option.map_some, Option.bind_some]
      cases service.writeUserServers plan.2.2 <;> rfl
  | setEnabled now serverId enabled =>
    simp only [perform, written, planned, McpServersService.setUserServerEnabled]
    cases service.enabledServers now serverId enabled file with
    | error error => rfl
    | ok plan =>
      obtain ⟨safeServerId, record, servers⟩ := plan
      cases servers with
      | none => rfl
      | some servers =>
        simp only [Except.toOption, Option.bind_some]
        cases service.writeUserServers servers <;> rfl
  | delete serverId =>
    simp only [perform, written, planned, McpServersService.deleteUserServer]
    cases service.remainingServers serverId file with
    | error error => rfl
    | ok servers =>
      simp only [Except.toOption, Option.bind_some]
      cases service.writeUserServers servers <;> rfl

end McpRequest

end Portex
