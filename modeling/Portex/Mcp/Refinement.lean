import Portex.Mcp.Normalisers
import Portex.Mcp.ReadBack

/-!
# The store of MCP servers as a map

A user's servers are a map from server ids: an upsert replaces an entry and keeps its flag and the
time of its creation, a switch changes the flag and the time of the update, a deletion takes the
entry away. The file represents such a map, and every request takes it to a file that represents
the map of the request, although each of them decodes and encodes all of the file.

## Main definitions

* `ServerView`, `Catalog`: an entry, and the map
* `McpRequest.apply`: what a request does to the map
* `Encodes`, `Represents`: the records and the files that stand for entries and maps

## Main results

* `Encodes.reread`: a record stands for the same entry once it was written and read
* `represents_perform`: a request keeps a file and its map together
* `agrees_run`: after any requests the file answers as the map does
-/

namespace Portex

open Foundation

/-! ## The map -/

structure ServerView where
  enabled : Bool
  description : Option Str
  createdAt : UtcTime
  updatedAt : UtcTime
  reach : Reach

abbrev Catalog := Str → Option ServerView

/-- The map after a request. A request with an id or arguments that are refused leaves it alone. -/
def McpRequest.apply (catalog : Catalog) : McpRequest → Catalog
  | .upsert now serverId arguments =>
    match safeSegment serverId, reachOf arguments.toTransportArguments with
    | some safeServerId, some reach =>
      Function.update catalog safeServerId (some
        { enabled := ((catalog safeServerId).map ServerView.enabled).getD true
          description := arguments.description.bind stripped
          createdAt := ((catalog safeServerId).map ServerView.createdAt).getD now.truncate
          updatedAt := now.truncate
          reach })
    | _, _ => catalog
  | .setEnabled now serverId enabled =>
    match safeSegment serverId with
    | none => catalog
    | some safeServerId =>
      match catalog safeServerId with
      | none => catalog
      | some view =>
        if view.enabled = enabled then catalog
        else Function.update catalog safeServerId
          (some { view with enabled, updatedAt := now.truncate })
  | .delete serverId =>
    match safeSegment serverId with
    | none => catalog
    | some safeServerId => Function.update catalog safeServerId none

/-- A detail shows an entry. -/
structure Shows (detail : McpServerDetail) (serverId : Str) (view : ServerView) : Prop where
  serverId_eq : detail.serverId = serverId
  transport_eq : detail.transport = view.reach.transport
  enabled_eq : detail.enabled = view.enabled
  description_eq : detail.description = view.description
  createdAt_eq : detail.createdAt = view.createdAt
  updatedAt_eq : detail.updatedAt = view.updatedAt
  reach_eq : match view.reach with
    | .stdio command args env => detail.command = some command ∧ detail.args = some args ∧
        detail.env.map Dict.get? = some env ∧ detail.url = none ∧
        detail.headers.map Dict.get? = none
    | .remote _ url headers => detail.command = none ∧ detail.args = none ∧
        detail.env.map Dict.get? = none ∧ detail.url = some url ∧
        detail.headers.map Dict.get? = some headers

/-! ## Normal strings -/

/-- A string that stripping leaves alone. -/
def Trimmed (text : Str) : Prop := strip text = text ∧ text ≠ []

theorem trimmed_strip {text : Str} (h : strip text ≠ []) : Trimmed (strip text) :=
  ⟨strip_strip text, h⟩

theorem trimmed_of_normalizeOptionalString {value : Option Str} {text : Str}
    (h : normalizeOptionalString value = some text) : Trimmed text := by
  unfold normalizeOptionalString at h
  split at h
  · cases h
  · split at h
    · cases h
    · rename_i hne
      rw [← Option.some.inj h]
      exact trimmed_strip hne

theorem normalizeRequiredString_trimmed {text : Str} (h : Trimmed text) :
    normalizeRequiredString (.str text) = .ok text := by
  rw [normalizeRequiredString, h.1, if_neg h.2]

theorem normalizeStringList_trimmed {values : List Str} (h : ∀ value ∈ values, Trimmed value)
    (label : String) : normalizeStringList (jsonStrings values) label = .ok values := by
  show normalizeStrings label (values.map .str) = .ok values
  induction values with
  | nil => rfl
  | cons value values ih =>
    obtain ⟨hstrip, hne⟩ := h value List.mem_cons_self
    rw [List.map_cons, normalizeStrings, hstrip, if_neg hne,
      ih fun value' hmem => h value' (List.mem_cons_of_mem _ hmem)]
    rfl

theorem trimmed_of_normalizeStrings {label : String} {items : List Json} {values : List Str}
    (h : normalizeStrings label items = .ok values) : ∀ value ∈ values, Trimmed value := by
  induction items generalizing values with
  | nil =>
    obtain rfl := Except.ok.inj h
    simp
  | cons item items ih =>
    cases item with
    | str text =>
      rw [normalizeStrings] at h
      split at h
      · cases h
      · rename_i hne
        cases hrest : normalizeStrings label items with
        | error error =>
          rw [hrest] at h
          cases h
        | ok normalized =>
          rw [hrest] at h
          obtain rfl := Except.ok.inj h
          rintro value hmem
          rcases List.mem_cons.mp hmem with rfl | hmem
          · exact trimmed_strip hne
          · exact ih hrest value hmem
    | _ => cases h

theorem trimmed_of_normalizeStringList {value : Json} {label : String} {values : List Str}
    (h : normalizeStringList value label = .ok values) : ∀ value ∈ values, Trimmed value := by
  cases value with
  | null =>
    obtain rfl := Except.ok.inj h
    simp
  | array items => exact trimmed_of_normalizeStrings h
  | _ => cases h

/-! ## Maps as objects -/

/-- The members of an object are those of a map, under normal names. -/
structure EncodesMap (members : List (Str × Json)) (map : Str → Option Str) : Prop where
  nodup : (members.map Prod.fst).Nodup
  normal : ∀ member ∈ members, Trimmed member.1 ∧ ∃ text, member.2 = .str text
  mem_iff : ∀ key value, (key, .str value) ∈ members ↔ map key = some value

theorem EncodesMap.perm {members members' : List (Str × Json)} {map : Str → Option Str}
    (h : EncodesMap members map) (hperm : members'.Perm members) : EncodesMap members' map where
  nodup := (hperm.map Prod.fst).nodup_iff.mpr h.nodup
  normal member hmem := h.normal member (hperm.mem_iff.mp hmem)
  mem_iff key value := hperm.mem_iff.trans (h.mem_iff key value)

/-- Strings are not changed by sorting. -/
theorem EncodesMap.sorted {members : List (Str × Json)} {map : Str → Option Str}
    (h : EncodesMap members map) :
    EncodesMap ((sortedMembers members).insertionSort nameLE) map := by
  have hself : sortedMembers members = members := by
    rw [sortedMembers_eq]
    refine (List.map_congr_left fun member hmem => ?_).trans (List.map_id members)
    obtain ⟨-, text, htext⟩ := h.normal member hmem
    rw [htext, Json.sorted, ← htext]
    rfl
  rw [hself]
  exact h.perm (List.perm_insertionSort _ _)

/-- The text of a string. -/
def textOf : Json → Str
  | .str text => text
  | _ => []

/-- Pairs with normal names are normalised to the dictionary of them. -/
theorem normalizePairs_eq {items : List (Str × Json)} {normalized : Dict Str Str} (label : String)
    (h : ∀ item ∈ items, Trimmed item.1 ∧ ∃ text, item.2 = .str text) :
    normalizePairs label items normalized =
      .ok (normalized.insertAll (items.map fun item => (item.1, textOf item.2))) := by
  induction items generalizing normalized with
  | nil => rfl
  | cons item items ih =>
    obtain ⟨key, value⟩ := item
    obtain ⟨⟨hstrip, hne⟩, text, rfl⟩ := h _ List.mem_cons_self
    rw [normalizePairs, hstrip, if_neg hne]
    exact ih fun item hmem => h item (List.mem_cons_of_mem _ hmem)

/-- **The object of a map is normalised to the map.** -/
theorem EncodesMap.normalize {members : List (Str × Json)} {map : Str → Option Str}
    (h : EncodesMap members map) (label : String) :
    ∃ dict, normalizeStringDict (.object members) label = .ok dict ∧ dict.get? = map := by
  have hmem (key : Str) (value : Json) :
      (key, value) ∈ (Dict.ofItems members).items ↔ (key, value) ∈ members := by
    rw [Dict.mem_items, Dict.get?_ofItems h.nodup]
  have hnormal : ∀ item ∈ (Dict.ofItems members).items,
      Trimmed item.1 ∧ ∃ text, item.2 = .str text :=
    fun item hitem => h.normal item ((hmem item.1 item.2).mp hitem)
  refine ⟨_, normalizePairs_eq label hnormal, funext fun key => Option.ext fun value => ?_⟩
  have hnodup : (((Dict.ofItems members).items.map fun item => (item.1, textOf item.2)).map
      Prod.fst).Nodup := by
    rw [List.map_map]
    exact (Dict.map_fst_items _).symm ▸ (Dict.nodup _)
  rw [← Dict.ofItems, Dict.get?_ofItems hnodup, List.mem_map, ← h.mem_iff]
  constructor
  · rintro ⟨item, hitem, heq⟩
    obtain ⟨rfl, rfl⟩ := Prod.mk.inj heq
    obtain ⟨-, text, htext⟩ := hnormal item hitem
    have hmember := (hmem item.1 item.2).mp hitem
    rwa [htext] at hmember ⊢
  · intro hmember
    exact ⟨(key, .str value), (hmem key _).mpr hmember, rfl⟩

/-- The names of a normalised dictionary are normal. -/
theorem trimmed_of_normalizePairs {label : String} {items : List (Str × Json)}
    {normalized dict : Dict Str Str} (hnormal : ∀ key ∈ normalized.keys, Trimmed key)
    (h : normalizePairs label items normalized = .ok dict) : ∀ key ∈ dict.keys, Trimmed key := by
  induction items generalizing normalized with
  | nil =>
    rw [← Except.ok.inj h]
    exact hnormal
  | cons item items ih =>
    obtain ⟨key, value⟩ := item
    cases value with
    | str text =>
      rw [normalizePairs] at h
      split at h
      · cases h
      · rename_i hne
        refine ih (fun key' hmem => ?_) h
        rcases Dict.mem_keys_insert.mp hmem with rfl | hmem
        · exact trimmed_strip hne
        · exact hnormal key' hmem
    | _ => cases h

theorem trimmed_of_normalizeStringDict {value : Json} {label : String} {dict : Dict Str Str}
    (h : normalizeStringDict value label = .ok dict) : ∀ key ∈ dict.keys, Trimmed key := by
  cases value with
  | null =>
    obtain rfl := Except.ok.inj h
    simp
  | object members => exact trimmed_of_normalizePairs (by simp) h
  | _ => cases h

/-- A dictionary with normal names is encoded as its map. -/
theorem encodesMap_jsonDict {dict : Dict Str Str} (h : ∀ key ∈ dict.keys, Trimmed key) :
    EncodesMap (dict.items.map fun item => (item.1, Json.str item.2)) dict.get? where
  nodup := by
    rw [List.map_map]
    exact dict.map_fst_items.symm ▸ dict.nodup
  normal := by
    rintro _ hmem
    obtain ⟨item, hitem, rfl⟩ := List.mem_map.mp hmem
    exact ⟨h _ (Dict.mem_keys_of_get? (Dict.mem_items.mp hitem)), item.2, rfl⟩
  mem_iff key value := by
    rw [List.mem_map, ← Dict.mem_items]
    constructor
    · rintro ⟨item, hitem, heq⟩
      obtain ⟨rfl, hvalue⟩ := Prod.mk.inj heq
      rwa [← Json.str.inj hvalue]
    · intro hitem
      exact ⟨(key, value), hitem, rfl⟩

/-! ## Datetimes -/

/-- The library reads the datetimes that it writes. -/
def RoundTripsIso (service : McpServersService) : Prop :=
  ∀ time : UtcTime, service.fromisoformat (isoDatetime time) = some time.truncate

theorem isSpace_digitChar (n : ℕ) : isSpace (Nat.digitChar (n % 10)) = false := by
  have hall : ∀ n < 10, isSpace (Nat.digitChar n) = false := by decide
  exact hall _ (Nat.mod_lt n (by decide))

/-- A datetime is written without spaces at its ends, and not with a `Z`. -/
theorem isoDatetime_ends (time : UtcTime) :
    (∃ n tail, isoDatetime time = Nat.digitChar (n % 10) :: tail) ∧
      (isoDatetime time).getLast? = some '0' := by
  refine ⟨⟨time.day.year / Nat.pow 10 3, _, rfl⟩, ?_⟩
  rw [isoDatetime, List.getLast?_append]
  rfl

theorem parseDatetime_iso {service : McpServersService} (hiso : RoundTripsIso service)
    (time : UtcTime) :
    service.parseDatetime (.str (isoDatetime time)) = .ok time.truncate := by
  obtain ⟨⟨n, tail, hcons⟩, hlast⟩ := isoDatetime_ends time
  have hstrip : strip (isoDatetime time) = isoDatetime time := by
    refine stripBy_eq_self (fun ch hch => ?_) fun ch hch => ?_
    · rw [hcons] at hch
      obtain rfl := Option.some.inj hch
      exact isSpace_digitChar n
    · rw [hlast] at hch
      obtain rfl := Option.some.inj hch
      decide
  have hne : isoDatetime time ≠ [] := by simp [hcons]
  have hz : ¬ (isoDatetime time).getLast? = some 'Z' := by
    rw [hlast]
    decide
  simp only [McpServersService.parseDatetime, hstrip, if_neg hne, if_neg hz, hiso time]

/-! ## Records -/

/-- The fields of a record that say how the server is reached. -/
inductive EncodesReach (record : Record) : Reach → Prop
  | stdio {command : Str} {args : List Str} {env : Str → Option Str} {members : List (Str × Json)} :
      record.get? "command".toList = some (.str command) → Trimmed command →
        record.get? "args".toList = some (jsonStrings args) → (∀ arg ∈ args, Trimmed arg) →
          record.get? "env".toList = some (.object members) → EncodesMap members env →
            EncodesReach record (.stdio command args env)
  | remote {transport : McpTransport} {url : Str} {headers : Str → Option Str}
      {members : List (Str × Json)} :
      transport ≠ .stdio → record.get? "url".toList = some (.str url) → Trimmed url →
        record.get? "headers".toList = some (.object members) → EncodesMap members headers →
          EncodesReach record (.remote transport url headers)

/-- A record stands for an entry. -/
structure Encodes (record : Record) (view : ServerView) : Prop where
  written : WrittenDict record
  enabled : record.get? "enabled".toList = some (.bool view.enabled)
  transport : record.get? "transport".toList = some (.str view.reach.transport.text)
  description : record.get? "description".toList = some (jsonString view.description)
  createdAt : record.get? "created_at".toList = some (.str (isoDatetime view.createdAt))
  updatedAt : record.get? "updated_at".toList = some (.str (isoDatetime view.updatedAt))
  createdAt_truncate : view.createdAt.truncate = view.createdAt
  updatedAt_truncate : view.updatedAt.truncate = view.updatedAt
  reach : EncodesReach record view.reach

theorem sorted_jsonString (value : Option Str) : (jsonString value).sorted = jsonString value := by
  cases value <;> rfl

theorem sorted_jsonStrings (values : List Str) :
    (jsonStrings values).sorted = jsonStrings values := by
  rw [jsonStrings, Json.sorted, sortedItems_eq, List.map_map]
  rfl

theorem writtenDict_reread {record : Record} (h : WrittenDict record) :
    WrittenDict (reread record) := by
  rw [writtenDict_iff] at h ⊢
  intro name value hget
  rw [get?_reread] at hget
  obtain ⟨value', hget', rfl⟩ := Option.map_eq_some_iff.mp hget
  exact (h name value' hget').sorted

theorem EncodesReach.reread {record : Record} {reach : Reach} (h : EncodesReach record reach) :
    EncodesReach (reread record) reach := by
  cases h with
  | stdio hcommand htrimmed hargs hnormal henv hmap =>
    refine .stdio ?_ htrimmed ?_ hnormal ?_ hmap.sorted
    · rw [get?_reread, hcommand]
      rfl
    · rw [get?_reread, hargs, Option.map_some, sorted_jsonStrings]
    · rw [get?_reread, henv]
      rfl
  | remote htransport hurl htrimmed hheaders hmap =>
    refine .remote htransport ?_ htrimmed ?_ hmap.sorted
    · rw [get?_reread, hurl]
      rfl
    · rw [get?_reread, hheaders]
      rfl

/-- **A record stands for the same entry** once it was written and read. -/
theorem Encodes.reread {record : Record} {view : ServerView} (h : Encodes record view) :
    Encodes (reread record) view where
  written := writtenDict_reread h.written
  enabled := by rw [get?_reread, h.enabled]; rfl
  transport := by rw [get?_reread, h.transport]; rfl
  description := by rw [get?_reread, h.description, Option.map_some, sorted_jsonString]
  createdAt := by rw [get?_reread, h.createdAt]; rfl
  updatedAt := by rw [get?_reread, h.updatedAt]; rfl
  createdAt_truncate := h.createdAt_truncate
  updatedAt_truncate := h.updatedAt_truncate
  reach := h.reach.reread

theorem parse_text (transport : McpTransport) :
    McpTransport.parse transport.text = some transport := by
  cases transport <;> decide

theorem field_of_get? {record : Record} {name : String} {value : Json}
    (h : record.get? name.toList = some value) : McpServersService.field record name = value := by
  rw [McpServersService.field, Dict.getD, h]
  rfl

section Detail

variable {service : McpServersService} {record : Record} {view : ServerView}

theorem detailFromRecord_finish (h : Encodes record view) (serverId : Str) :
    service.detailFromRecord serverId record = McpServersService.detailFromRecord.finish service
      serverId record view.enabled view.reach.transport view.description := by
  have henabled : record.getD "enabled".toList (.bool true) = .bool view.enabled := by
    rw [Dict.getD, h.enabled]
    rfl
  unfold McpServersService.detailFromRecord
  rw [henabled, field_of_get? h.transport, field_of_get? h.description]
  simp only [parse_text]
  cases view.description <;> rfl

/-- **A record that stands for an entry is read as it.** -/
theorem Encodes.detail (h : Encodes record view) (hiso : RoundTripsIso service) (serverId : Str) :
    ∃ detail, service.detailFromRecord serverId record = .ok detail ∧ Shows detail serverId view := by
  rw [detailFromRecord_finish h]
  unfold McpServersService.detailFromRecord.finish
  rw [field_of_get? h.createdAt, field_of_get? h.updatedAt, parseDatetime_iso hiso,
    parseDatetime_iso hiso, h.createdAt_truncate, h.updatedAt_truncate]
  have hreach := h.reach
  obtain ⟨enabled, description, createdAt, updatedAt, reach⟩ := view
  cases hreach with
  | @stdio command args env members hcommand htrimmed hargs hnormal henv hmap =>
    obtain ⟨dict, hdict, hget⟩ := hmap.normalize "env"
    rw [field_of_get? hcommand, normalizeRequiredString_trimmed htrimmed, field_of_get? hargs,
      normalizeStringList_trimmed hnormal, field_of_get? henv, hdict]
    exact ⟨_, rfl, ⟨rfl, rfl, rfl, rfl, rfl, rfl, rfl, rfl, congrArg some hget, rfl, rfl⟩⟩
  | @remote transport url headers members htransport hurl htrimmed hheaders hmap =>
    obtain ⟨dict, hdict, hget⟩ := hmap.normalize "headers"
    rw [field_of_get? hurl, normalizeRequiredString_trimmed htrimmed, field_of_get? hheaders, hdict]
    simp only [Reach.transport, htransport, if_false]
    exact ⟨_, rfl, ⟨rfl, rfl, rfl, rfl, rfl, rfl, rfl, rfl, rfl, rfl, congrArg some hget⟩⟩

end Detail

/-! ## What is written for an entry -/

/-- What is reached through a normalised payload, in normal strings. -/
inductive NormalPayload : TransportPayload → Prop
  | stdio {command : Str} {args : List Str} {env : Dict Str Str} :
      Trimmed command → (∀ arg ∈ args, Trimmed arg) → (∀ key ∈ env.keys, Trimmed key) →
        NormalPayload (.stdio command args env)
  | remote {transport : McpTransport} {url : Str} {headers : Dict Str Str} :
      transport ≠ .stdio → Trimmed url → (∀ key ∈ headers.keys, Trimmed key) →
        NormalPayload (.remote transport url headers)

theorem bind_eq_ok {α β : Type} {x : Except McpError α} {f : α → Except McpError β} {b : β}
    (h : x >>= f = .ok b) : ∃ a, x = .ok a ∧ f a = .ok b := by
  cases x with
  | error error => cases h
  | ok a => exact ⟨a, rfl, h⟩

theorem ok_bind {α β : Type} (a : α) (f : α → Except McpError β) :
    (Except.ok a >>= f) = f a := rfl

/-- **What the normaliser answers is normal.** -/
theorem normalPayload {arguments : TransportArguments} {payload : TransportPayload}
    (h : normalizeTransportPayload arguments = .ok payload) : NormalPayload payload := by
  unfold normalizeTransportPayload at h
  split at h
  · cases h
  · split at h
    · cases h
    · rename_i command hcommand
      obtain ⟨args, hargs, h⟩ := bind_eq_ok h
      obtain ⟨env, henv, h⟩ := bind_eq_ok h
      rw [← Except.ok.inj h]
      exact .stdio (trimmed_of_normalizeOptionalString hcommand)
        (trimmed_of_normalizeStringList hargs) (trimmed_of_normalizeStringDict henv)
  · rename_i transport hstdio _
    split at h
    · cases h
    · rename_i url hurl
      obtain ⟨headers, hheaders, h⟩ := bind_eq_ok h
      rw [← Except.ok.inj h]
      exact .remote hstdio (trimmed_of_normalizeOptionalString hurl)
        (trimmed_of_normalizeStringDict hheaders)

theorem written_jsonString (value : Option Str) : (jsonString value).Written := by
  cases value <;> trivial

theorem written_jsonStrings (values : List Str) : (jsonStrings values).Written := by
  show WrittenItems (values.map .str)
  induction values with
  | nil => trivial
  | cons value values ih => exact ⟨trivial, ih⟩

theorem written_jsonDict (values : Dict Str Str) : (jsonDict values).Written := by
  refine writtenMembers_iff.mpr fun member hmem => ?_
  obtain ⟨item, -, rfl⟩ := List.mem_map.mp hmem
  trivial

theorem writtenDict_insert {record : Record} (h : WrittenDict record) (name : Str) {value : Json}
    (hvalue : value.Written) : WrittenDict (record.insert name value) := by
  rw [writtenDict_iff] at h ⊢
  intro name' value' hget
  rw [Dict.get?_insert] at hget
  split at hget
  · rw [← Option.some.inj hget]
    exact hvalue
  · exact h name' value' hget

/-- The fields of every record. -/
def commonFields (payload : TransportPayload) (enabled : Bool) (description : Option Str)
    (createdAt now : UtcTime) : List (Str × Json) :=
  [("enabled".toList, .bool enabled), ("transport".toList, .str payload.transport.text),
    ("description".toList, jsonString description),
    ("created_at".toList, .str (isoDatetime createdAt)),
    ("updated_at".toList, .str (isoDatetime now))]

/-- The fields that say how the server is reached. -/
def reachFields : TransportPayload → List (Str × Json)
  | .stdio command args env => [("command".toList, .str command), ("args".toList, jsonStrings args),
      ("env".toList, jsonDict env)]
  | .remote _ url headers => [("url".toList, .str url), ("headers".toList, jsonDict headers)]

section Fields

variable {payload : TransportPayload} {enabled : Bool} {description : Option Str}
  {createdAt now : UtcTime} {name : Str} {value : Json}

theorem recordOf_eq : McpServersService.recordOf payload enabled description createdAt now =
    (Dict.ofItems (commonFields payload enabled description createdAt now)).insertAll
      (reachFields payload) := by
  cases payload <;> rfl

theorem reachFields_nodup : ((reachFields payload).map Prod.fst).Nodup := by
  cases payload with
  | stdio command args env =>
    have hnames : ["command".toList, "args".toList, "env".toList].Nodup := by decide
    exact hnames
  | remote transport url headers =>
    have hnames : ["url".toList, "headers".toList].Nodup := by decide
    exact hnames

theorem commonFields_nodup :
    ((commonFields payload enabled description createdAt now).map Prod.fst).Nodup := by
  have hnames : ["enabled".toList, "transport".toList, "description".toList, "created_at".toList,
      "updated_at".toList].Nodup := by decide
  exact hnames

theorem get?_recordOf_reach (h : (name, value) ∈ reachFields payload) :
    (McpServersService.recordOf payload enabled description createdAt now).get? name =
      some value := by
  rw [recordOf_eq]
  exact Dict.get?_insertAll_of_mem reachFields_nodup h

theorem get?_recordOf_common
    (h : (name, value) ∈ commonFields payload enabled description createdAt now) :
    (McpServersService.recordOf payload enabled description createdAt now).get? name =
      some value := by
  -- No field has the name of another.
  have hcommon : name ∈ ["enabled".toList, "transport".toList, "description".toList,
      "created_at".toList, "updated_at".toList] := List.mem_map_of_mem (f := Prod.fst) h
  have hother : name ∉ (reachFields payload).map Prod.fst := by
    have hnames : ∀ name ∈ ["enabled".toList, "transport".toList, "description".toList,
        "created_at".toList, "updated_at".toList],
          name ∉ ["command".toList, "args".toList, "env".toList] ∧
            name ∉ ["url".toList, "headers".toList] := by decide
    cases payload with
    | stdio command args env => exact (hnames name hcommon).1
    | remote transport url headers => exact (hnames name hcommon).2
  rw [recordOf_eq, Dict.get?_insertAll_of_notMem hother]
  exact (Dict.get?_ofItems commonFields_nodup).mpr h

/-- The values of a record are those of its fields. -/
theorem mem_fields_of_get?
    (h : (McpServersService.recordOf payload enabled description createdAt now).get? name =
      some value) :
    (name, value) ∈ commonFields payload enabled description createdAt now ++ reachFields payload := by
  rw [recordOf_eq, Dict.get?_insertAll _ reachFields_nodup, Option.or_eq_some_iff] at h
  rcases h with h | ⟨-, h⟩
  · exact List.mem_append_right _ ((Dict.get?_ofItems reachFields_nodup).mp h)
  · exact List.mem_append_left _ ((Dict.get?_ofItems commonFields_nodup).mp h)

theorem written_recordOf :
    WrittenDict (McpServersService.recordOf payload enabled description createdAt now) := by
  rw [writtenDict_iff]
  intro name value hget
  have hmem := mem_fields_of_get? hget
  simp only [commonFields, List.mem_append, List.mem_cons, Prod.mk.injEq, List.not_mem_nil,
    or_false] at hmem
  rcases hmem with (⟨-, rfl⟩ | ⟨-, rfl⟩ | ⟨-, rfl⟩ | ⟨-, rfl⟩ | ⟨-, rfl⟩) | hmem
  · trivial
  · trivial
  · exact written_jsonString description
  · trivial
  · trivial
  · cases payload with
    | stdio command args env =>
      simp only [reachFields, List.mem_cons, Prod.mk.injEq, List.not_mem_nil, or_false] at hmem
      rcases hmem with ⟨-, rfl⟩ | ⟨-, rfl⟩ | ⟨-, rfl⟩
      · trivial
      · exact written_jsonStrings args
      · exact written_jsonDict env
    | remote transport url headers =>
      simp only [reachFields, List.mem_cons, Prod.mk.injEq, List.not_mem_nil, or_false] at hmem
      rcases hmem with ⟨-, rfl⟩ | ⟨-, rfl⟩
      · trivial
      · exact written_jsonDict headers

/-- **The record of an upsert** stands for the entry. -/
theorem encodes_recordOf (hpayload : NormalPayload payload) :
    Encodes (McpServersService.recordOf payload enabled description createdAt now)
      { enabled, description, createdAt := createdAt.truncate, updatedAt := now.truncate,
        reach := payload.reach } where
  written := written_recordOf
  enabled := get?_recordOf_common (by simp [commonFields])
  transport := by
    have htransport : payload.reach.transport = payload.transport := by cases payload <;> rfl
    rw [htransport]
    exact get?_recordOf_common (by simp [commonFields])
  description := get?_recordOf_common (by simp [commonFields])
  createdAt := get?_recordOf_common (by
    have hiso : isoDatetime createdAt.truncate = isoDatetime createdAt := rfl
    simp [commonFields, hiso])
  updatedAt := get?_recordOf_common (by
    have hiso : isoDatetime now.truncate = isoDatetime now := rfl
    simp [commonFields, hiso])
  createdAt_truncate := rfl
  updatedAt_truncate := rfl
  reach := by
    cases hpayload with
    | stdio hcommand hargs henv =>
      exact .stdio (get?_recordOf_reach (by simp [reachFields])) hcommand
        (get?_recordOf_reach (by simp [reachFields])) hargs
        (get?_recordOf_reach (by simp [reachFields, jsonDict])) (encodesMap_jsonDict henv)
    | remote htransport hurl hheaders =>
      exact .remote htransport (get?_recordOf_reach (by simp [reachFields])) hurl
        (get?_recordOf_reach (by simp [reachFields, jsonDict])) (encodesMap_jsonDict hheaders)

end Fields

/-! ## Files -/

/-- The servers stand for a map. -/
def Stands (servers : Servers) (catalog : Catalog) : Prop :=
  ∀ serverId, (catalog serverId = none → servers.get? serverId = none) ∧
    ∀ view, catalog serverId = some view →
      ∃ record, servers.get? serverId = some record ∧ Encodes record view

/-- The file represents a map. -/
def Represents (service : McpServersService) (file : ServersFile) (catalog : Catalog) : Prop :=
  ∃ servers, service.readUserServers file = .ok servers ∧ Stands servers catalog

section Files

variable {service : McpServersService} {servers : Servers} {catalog : Catalog} {file : ServersFile}

theorem stands_empty : Stands ∅ fun _ => none := by
  intro serverId
  refine ⟨fun _ => rfl, fun view hview => ?_⟩
  cases hview

theorem represents_none : Represents service none fun _ => none := ⟨∅, rfl, stands_empty⟩

/-- The entry of a server that is stored. -/
theorem Stands.view (h : Stands servers catalog) {serverId : Str} {record : Record}
    (hget : servers.get? serverId = some record) :
    ∃ view, catalog serverId = some view ∧ Encodes record view := by
  cases hview : catalog serverId with
  | none =>
    rw [(h serverId).1 hview] at hget
    cases hget
  | some view =>
    obtain ⟨record', hget', hencodes⟩ := (h serverId).2 view hview
    obtain rfl := Option.some.inj (hget.symm.trans hget')
    exact ⟨view, rfl, hencodes⟩

theorem Stands.catalog_eq_none (h : Stands servers catalog) {serverId : Str}
    (hget : servers.get? serverId = none) : catalog serverId = none := by
  cases hview : catalog serverId with
  | none => rfl
  | some view =>
    obtain ⟨record, hget', -⟩ := (h serverId).2 view hview
    rw [hget] at hget'
    cases hget'

theorem Stands.written (h : Stands servers catalog) : WrittenServers servers := by
  intro serverId record hget
  obtain ⟨view, -, hencodes⟩ := h.view hget
  exact hencodes.written

theorem Stands.insert (h : Stands servers catalog) {record : Record} {view : ServerView}
    (hencodes : Encodes record view) (serverId : Str) :
    Stands (servers.insert serverId record) (Function.update catalog serverId (some view)) := by
  intro serverId'
  rw [Dict.get?_insert, Function.update_apply]
  split
  · refine ⟨fun hnone => ?_, fun view' hview => ?_⟩
    · cases hnone
    · obtain rfl := Option.some.inj hview
      exact ⟨record, rfl, hencodes⟩
  · exact h serverId'

theorem Stands.erase (h : Stands servers catalog) (serverId : Str) :
    Stands (servers.erase serverId) (Function.update catalog serverId none) := by
  intro serverId'
  rw [Dict.get?_erase, Function.update_apply]
  split
  · refine ⟨fun _ => rfl, fun view hview => ?_⟩
    cases hview
  · exact h serverId'

/-- Servers that were written and read stand for the same map. -/
theorem Stands.reread {servers' : Servers} (h : Stands servers catalog)
    (hservers : ∀ serverId, servers'.get? serverId = (servers.get? serverId).map Foundation.reread) :
    Stands servers' catalog := by
  intro serverId
  rw [hservers]
  refine ⟨fun hnone => ?_, fun view hview => ?_⟩
  · rw [(h serverId).1 hnone]
    rfl
  · obtain ⟨record, hget, hencodes⟩ := (h serverId).2 view hview
    exact ⟨Foundation.reread record, by rw [hget]; rfl, hencodes.reread⟩

/-- **Servers that are written are represented** by the file, below the limit. -/
theorem represents_write (h : Stands servers catalog) (hsafe : SafeServers servers)
    (hsize : sizeOf8 (McpServersService.encodeServers servers) < service.maxFileSizeBytes) :
    ∃ text, service.writeUserServers servers = .ok text ∧
      Represents service (some text) catalog := by
  obtain ⟨servers', hread, hservers⟩ :=
    McpServersService.readUserServers_encoded h.written hsafe hsize
  have hfits : ¬ sizeOf8 (McpServersService.encodeServers servers) > service.maxFileSizeBytes := by
    omega
  exact ⟨_, if_neg hfits, servers', hread, h.reread hservers⟩

theorem safeServers_insert (hsafe : SafeServers servers) {serverId : Str}
    (h : isSafeSegment serverId = true) (record : Record) :
    SafeServers (servers.insert serverId record) := by
  intro serverId' hmem
  rcases Dict.mem_keys_insert.mp hmem with rfl | hmem
  · exact h
  · exact hsafe serverId' hmem

theorem safeServers_erase (hsafe : SafeServers servers) (serverId : Str) :
    SafeServers (servers.erase serverId) := by
  intro serverId' hmem
  rw [Dict.keys_erase] at hmem
  exact hsafe serverId' (List.mem_of_mem_filter hmem)

end Files

/-! ## Requests -/

section Requests

variable {service : McpServersService} {servers : Servers} {catalog : Catalog} {file : ServersFile}

/-- A request either writes servers that stand for its map, or changes neither. -/
def PlansMap (service : McpServersService) (file : ServersFile) (catalog : Catalog)
    (request : McpRequest) : Prop :=
  (∃ servers, request.planned service file = some servers ∧ SafeServers servers ∧
    Stands servers (request.apply catalog)) ∨
      (request.planned service file = none ∧ request.apply catalog = catalog)

variable {now : UtcTime} {serverId safeServerId : Str} {arguments : UpsertArguments}
  {payload : TransportPayload} {enabled : Bool} {record : Record} {detail : McpServerDetail}

theorem upsertedServers_new (hvalid : validateSegment serverId "server id" = .ok safeServerId)
    (hpayload : normalizeTransportPayload arguments.toTransportArguments = .ok payload)
    (hread : service.readUserServers file = .ok servers)
    (hget : servers.get? safeServerId = none) :
    (McpRequest.upsert now serverId arguments).planned service file =
      some (servers.insert safeServerId (McpServersService.recordOf payload true
        (normalizeOptionalString arguments.description) now now)) := by
  simp only [McpRequest.planned, McpServersService.upsertedServers, hvalid, hpayload, hread,
    ok_bind, hget]
  rfl

theorem upsertedServers_existing (hvalid : validateSegment serverId "server id" = .ok safeServerId)
    (hpayload : normalizeTransportPayload arguments.toTransportArguments = .ok payload)
    (hread : service.readUserServers file = .ok servers)
    (hget : servers.get? safeServerId = some record)
    (hdetail : service.detailFromRecord safeServerId record = .ok detail) :
    (McpRequest.upsert now serverId arguments).planned service file =
      some (servers.insert safeServerId (McpServersService.recordOf payload detail.enabled
        (normalizeOptionalString arguments.description) detail.createdAt now)) := by
  simp only [McpRequest.planned, McpServersService.upsertedServers, hvalid, hpayload, hread,
    ok_bind, hget, hdetail]
  rfl

theorem plansMap_upsert (hiso : RoundTripsIso service)
    (hread : service.readUserServers file = .ok servers) (hstands : Stands servers catalog)
    (now : UtcTime) (serverId : Str) (arguments : UpsertArguments) :
    PlansMap service file catalog (.upsert now serverId arguments) := by
  have hsafe := McpServersService.safe_of_readUserServers hread
  have hsegment := safeSegment_eq serverId "server id"
  have hreach := normalizeTransportPayload_reach arguments.toTransportArguments
  cases hvalid : validateSegment serverId "server id" with
  | error error =>
    rw [hvalid] at hsegment
    refine .inr ⟨?_, ?_⟩
    · simp only [McpRequest.planned, McpServersService.upsertedServers, hvalid]
      rfl
    · simp only [McpRequest.apply, hsegment, Except.toOption]
  | ok safeServerId =>
    rw [hvalid] at hsegment
    cases hpayload : normalizeTransportPayload arguments.toTransportArguments with
    | error error =>
      rw [hpayload] at hreach
      refine .inr ⟨?_, ?_⟩
      · simp only [McpRequest.planned, McpServersService.upsertedServers, hvalid, hpayload]
        rfl
      · simp only [McpRequest.apply, hsegment, ← hreach, Except.toOption, Option.map_none]
    | ok payload =>
      rw [hpayload] at hreach
      have hid := isSafeSegment_of_validateSegment hvalid
      left
      cases hget : servers.get? safeServerId with
      | none =>
        refine ⟨_, upsertedServers_new hvalid hpayload hread hget,
          safeServers_insert hsafe hid _, ?_⟩
        simp only [McpRequest.apply, hsegment, ← hreach, Except.toOption, Option.map_some,
          hstands.catalog_eq_none hget, ← normalizeOptionalString_eq]
        exact hstands.insert (encodes_recordOf (normalPayload hpayload)) safeServerId
      | some existing =>
        obtain ⟨view, hview, hencodes⟩ := hstands.view hget
        obtain ⟨detail, hdetail, hshows⟩ := hencodes.detail hiso safeServerId
        refine ⟨_, upsertedServers_existing hvalid hpayload hread hget hdetail,
          safeServers_insert hsafe hid _, ?_⟩
        -- The flag and the time of the creation are those of the entry.
        rw [hshows.enabled_eq, hshows.createdAt_eq]
        simp only [McpRequest.apply, hsegment, ← hreach, Except.toOption, Option.map_some, hview,
          ← normalizeOptionalString_eq]
        have hrecord : Encodes (McpServersService.recordOf payload view.enabled
            (normalizeOptionalString arguments.description) view.createdAt now) _ :=
          encodes_recordOf (normalPayload hpayload)
        rw [hencodes.createdAt_truncate] at hrecord
        exact hstands.insert hrecord safeServerId

/-- The record of a server that is switched. -/
theorem Encodes.switch {view : ServerView} (h : Encodes record view) (enabled : Bool)
    (now : UtcTime) :
    Encodes ((record.insert "enabled".toList (.bool enabled)).insert "updated_at".toList
      (.str (isoDatetime now))) { view with enabled, updatedAt := now.truncate } := by
  have hother {name : Str} {value : Json} (hget : record.get? name = some value)
      (henabled : name ≠ "enabled".toList) (hupdated : name ≠ "updated_at".toList) :
      ((record.insert "enabled".toList (.bool enabled)).insert "updated_at".toList
        (.str (isoDatetime now))).get? name = some value := by
    rw [Dict.get?_insert, if_neg hupdated, Dict.get?_insert, if_neg henabled, hget]
  have henabled : Json.Written (.bool enabled) := trivial
  have hupdated : Json.Written (.str (isoDatetime now)) := trivial
  have hne : "enabled".toList ≠ "updated_at".toList := by decide
  have hreach {reach : Reach} (h : EncodesReach record reach) :
      EncodesReach ((record.insert "enabled".toList (.bool enabled)).insert "updated_at".toList
        (.str (isoDatetime now))) reach := by
    cases h with
    | stdio hcommand htrimmed hargs hnormal henv hmap =>
      exact .stdio (hother hcommand (by decide) (by decide)) htrimmed
        (hother hargs (by decide) (by decide)) hnormal (hother henv (by decide) (by decide)) hmap
    | remote htransport hurl htrimmed hheaders hmap =>
      exact .remote htransport (hother hurl (by decide) (by decide)) htrimmed
        (hother hheaders (by decide) (by decide)) hmap
  exact {
    written := writtenDict_insert (writtenDict_insert h.written _ henabled) _ hupdated
    enabled := by rw [Dict.get?_insert, if_neg hne, Dict.get?_insert, if_pos rfl]
    transport := hother h.transport (by decide) (by decide)
    description := hother h.description (by decide) (by decide)
    createdAt := hother h.createdAt (by decide) (by decide)
    updatedAt := by
      rw [Dict.get?_insert, if_pos rfl]
      rfl
    createdAt_truncate := h.createdAt_truncate
    updatedAt_truncate := rfl
    reach := hreach h.reach }

theorem enabledServers_changed (hvalid : validateSegment serverId "server id" = .ok safeServerId)
    (hread : service.readUserServers file = .ok servers)
    (hget : servers.get? safeServerId = some record)
    (hdetail : service.detailFromRecord safeServerId record = .ok detail)
    (hchanged : ¬ detail.enabled = enabled) :
    (McpRequest.setEnabled now serverId enabled).planned service file =
      some (servers.insert safeServerId ((record.insert "enabled".toList (.bool enabled)).insert
        "updated_at".toList (.str (isoDatetime now)))) := by
  simp only [McpRequest.planned, McpServersService.enabledServers, hvalid, hread, ok_bind, hget,
    hdetail, if_neg hchanged]
  rfl

theorem plansMap_setEnabled (hiso : RoundTripsIso service)
    (hread : service.readUserServers file = .ok servers) (hstands : Stands servers catalog)
    (now : UtcTime) (serverId : Str) (enabled : Bool) :
    PlansMap service file catalog (.setEnabled now serverId enabled) := by
  have hsafe := McpServersService.safe_of_readUserServers hread
  have hsegment := safeSegment_eq serverId "server id"
  cases hvalid : validateSegment serverId "server id" with
  | error error =>
    rw [hvalid] at hsegment
    refine .inr ⟨?_, ?_⟩
    · simp only [McpRequest.planned, McpServersService.enabledServers, hvalid]
      rfl
    · simp only [McpRequest.apply, hsegment, Except.toOption]
  | ok safeServerId =>
    rw [hvalid] at hsegment
    cases hget : servers.get? safeServerId with
    | none =>
      refine .inr ⟨?_, ?_⟩
      · simp only [McpRequest.planned, McpServersService.enabledServers, hvalid, hread, ok_bind, hget]
        rfl
      · simp only [McpRequest.apply, hsegment, Except.toOption, hstands.catalog_eq_none hget]
    | some record =>
      obtain ⟨view, hview, hencodes⟩ := hstands.view hget
      obtain ⟨detail, hdetail, hshows⟩ := hencodes.detail hiso safeServerId
      have hflag : detail.enabled = view.enabled := hshows.enabled_eq
      by_cases hsame : view.enabled = enabled
      · -- The flag stands as it is asked for, and nothing is written.
        refine .inr ⟨?_, ?_⟩
        · simp only [McpRequest.planned, McpServersService.enabledServers, hvalid, hread, ok_bind,
            hget, hdetail, hflag, if_pos hsame]
          rfl
        · simp only [McpRequest.apply, hsegment, Except.toOption, hview, if_pos hsame]
      · refine .inl ⟨_, enabledServers_changed hvalid hread hget hdetail (hflag ▸ hsame),
          safeServers_insert hsafe (isSafeSegment_of_validateSegment hvalid) _, ?_⟩
        simp only [McpRequest.apply, hsegment, Except.toOption, hview, if_neg hsame]
        exact hstands.insert (hencodes.switch enabled now) safeServerId

theorem plansMap_delete (hread : service.readUserServers file = .ok servers)
    (hstands : Stands servers catalog) (serverId : Str) :
    PlansMap service file catalog (.delete serverId) := by
  have hsafe := McpServersService.safe_of_readUserServers hread
  have hsegment := safeSegment_eq serverId "server id"
  cases hvalid : validateSegment serverId "server id" with
  | error error =>
    rw [hvalid] at hsegment
    refine .inr ⟨?_, ?_⟩
    · simp only [McpRequest.planned, McpServersService.remainingServers, hvalid]
      rfl
    · simp only [McpRequest.apply, hsegment, Except.toOption]
  | ok safeServerId =>
    rw [hvalid] at hsegment
    cases hget : servers.get? safeServerId with
    | none =>
      have hcontains : ¬ servers.contains safeServerId = true := by simp [Dict.contains, hget]
      -- A server that is not there is refused, and the map has nothing to forget.
      refine .inr ⟨?_, ?_⟩
      · simp only [McpRequest.planned, McpServersService.remainingServers, hvalid, hread, ok_bind,
          if_neg hcontains]
        rfl
      · simp only [McpRequest.apply, hsegment, Except.toOption]
        rw [← hstands.catalog_eq_none hget, Function.update_eq_self]
    | some record =>
      have hcontains : servers.contains safeServerId = true := by simp [Dict.contains, hget]
      refine .inl ⟨servers.erase safeServerId, ?_, safeServers_erase hsafe _, ?_⟩
      · simp only [McpRequest.planned, McpServersService.remainingServers, hvalid, hread, ok_bind,
          if_pos hcontains]
        rfl
      · simp only [McpRequest.apply, hsegment, Except.toOption]
        exact hstands.erase safeServerId

/-- What a request writes is smaller than the limit. -/
def FitsFile (service : McpServersService) (file : ServersFile) (request : McpRequest) : Prop :=
  ∀ servers, request.planned service file = some servers →
    sizeOf8 (McpServersService.encodeServers servers) < service.maxFileSizeBytes

/-- **A request keeps a file and its map together.** -/
theorem represents_perform (hiso : RoundTripsIso service)
    (hrepresents : Represents service file catalog) (request : McpRequest)
    (hfits : FitsFile service file request) :
    Represents service (request.perform service file) (request.apply catalog) := by
  have hplans : PlansMap service file catalog request := by
    obtain ⟨servers, hread, hstands⟩ := hrepresents
    cases request with
    | upsert now serverId arguments => exact plansMap_upsert hiso hread hstands _ _ _
    | setEnabled now serverId enabled => exact plansMap_setEnabled hiso hread hstands _ _ _
    | delete serverId => exact plansMap_delete hread hstands _
  rw [request.perform_eq]
  rcases hplans with ⟨servers, hplanned, hsafe, hstands⟩ | ⟨hplanned, hsame⟩
  · obtain ⟨text, htext, hrepresents'⟩ := represents_write hstands hsafe (hfits servers hplanned)
    rw [McpRequest.written, hplanned, Option.bind_some, htext]
    exact hrepresents'
  · rw [McpRequest.written, hplanned, hsame]
    exact hrepresents

end Requests

/-! ## What the file answers -/

/-- What `get_user_server` answers for an id is the entry of the map. -/
def GetAgrees (service : McpServersService) (file : ServersFile) (catalog : Catalog)
    (serverId : Str) : Prop :=
  (safeSegment serverId = none →
    service.getUserServer serverId file = .error (.value "invalid server id")) ∧
  ∀ safeServerId, safeSegment serverId = some safeServerId →
    (catalog safeServerId = none →
      service.getUserServer serverId file = .error McpServersService.serverNotFound) ∧
    ∀ view, catalog safeServerId = some view →
      ∃ detail, service.getUserServer serverId file = .ok detail ∧ Shows detail safeServerId view

/-- What `list_user_servers` answers are the entries of the map, once each and in the order of
their ids in lower case. -/
def ListAgrees (service : McpServersService) (file : ServersFile) (catalog : Catalog) : Prop :=
  ∃ entries, service.listUserServers file = .ok entries ∧
    (entries.map McpServerEntry.serverId).Nodup ∧
    (entries.map McpServerEntry.serverId).Pairwise
      (fun serverId serverId' =>
        McpServersService.lower serverId ≤ McpServersService.lower serverId') ∧
    (∀ serverId, serverId ∈ entries.map McpServerEntry.serverId ↔ catalog serverId ≠ none) ∧
    ∀ entry ∈ entries, ∃ view, catalog entry.serverId = some view ∧
      entry.transport = view.reach.transport ∧ entry.enabled = view.enabled ∧
        entry.updatedAt = view.updatedAt

section Answers

variable {service : McpServersService} {servers : Servers} {catalog : Catalog} {file : ServersFile}

theorem getAgrees (hiso : RoundTripsIso service) (h : Represents service file catalog)
    (serverId : Str) : GetAgrees service file catalog serverId := by
  obtain ⟨servers, hread, hstands⟩ := h
  have hvalid := validateSegment_eq serverId "server id"
  refine ⟨fun hsegment => ?_, fun safeServerId hsegment =>
    ⟨fun hnone => ?_, fun view hview => ?_⟩⟩ <;> rw [hsegment] at hvalid
  · simp only [McpServersService.getUserServer, hvalid]
    rfl
  · simp only [McpServersService.getUserServer, hvalid, Option.elim_some, ok_bind, hread,
      (hstands safeServerId).1 hnone]
  · obtain ⟨record, hget, hencodes⟩ := (hstands safeServerId).2 view hview
    simp only [McpServersService.getUserServer, hvalid, Option.elim_some, ok_bind, hread, hget]
    exact hencodes.detail hiso safeServerId

/-- The entries of some servers that are stored. -/
theorem entriesOf_eq (hiso : RoundTripsIso service) (hstands : Stands servers catalog)
    {serverIds : List Str} (h : ∀ serverId ∈ serverIds, serverId ∈ servers.keys) :
    ∃ entries, service.entriesOf servers serverIds = .ok entries ∧
      entries.map McpServerEntry.serverId = serverIds ∧
        ∀ entry ∈ entries, ∃ view, catalog entry.serverId = some view ∧
          entry.transport = view.reach.transport ∧ entry.enabled = view.enabled ∧
            entry.updatedAt = view.updatedAt := by
  induction serverIds with
  | nil => exact ⟨[], rfl, rfl, fun entry hmem => absurd hmem List.not_mem_nil⟩
  | cons serverId serverIds ih =>
    obtain ⟨entries, hentries, hids, hviews⟩ :=
      ih fun serverId' hmem => h serverId' (List.mem_cons_of_mem _ hmem)
    obtain ⟨record, hget⟩ := (servers.mem_keys_iff serverId).mp (h serverId List.mem_cons_self)
    obtain ⟨view, hview, hencodes⟩ := hstands.view hget
    obtain ⟨detail, hdetail, hshows⟩ := hencodes.detail hiso serverId
    refine ⟨{ serverId := detail.serverId, transport := detail.transport,
              enabled := detail.enabled, updatedAt := detail.updatedAt } :: entries, ?_, ?_, ?_⟩
    · simp only [McpServersService.entriesOf, hget, Option.getD_some, hdetail, ok_bind, hentries]
    · rw [List.map_cons, hids, hshows.serverId_eq]
    · intro entry hmem
      rcases List.mem_cons.mp hmem with rfl | hmem
      · refine ⟨view, ?_, hshows.transport_eq, hshows.enabled_eq, hshows.updatedAt_eq⟩
        rw [← hview]
        exact congrArg catalog hshows.serverId_eq
      · exact hviews entry hmem

instance : Std.Total fun serverId serverId' : Str =>
    McpServersService.lower serverId ≤ McpServersService.lower serverId' :=
  ⟨fun _ _ => le_total (α := Str) _ _⟩

instance : IsTrans Str fun serverId serverId' =>
    McpServersService.lower serverId ≤ McpServersService.lower serverId' :=
  ⟨fun _ _ _ h h' => le_trans h h'⟩

theorem listAgrees (hiso : RoundTripsIso service) (h : Represents service file catalog) :
    ListAgrees service file catalog := by
  obtain ⟨servers, hread, hstands⟩ := h
  have hperm : (McpServersService.sortedIds servers).Perm servers.keys :=
    List.perm_insertionSort _ _
  obtain ⟨entries, hentries, hids, hviews⟩ := entriesOf_eq hiso hstands
    fun _ hmem => hperm.mem_iff.mp hmem
  refine ⟨entries, ?_, ?_, ?_, fun serverId => ?_, hviews⟩
  · simp only [McpServersService.listUserServers, hread, ok_bind, hentries]
  · rw [hids]
    exact hperm.nodup_iff.mpr servers.nodup
  · rw [hids]
    exact List.pairwise_insertionSort _ _
  · rw [hids, hperm.mem_iff, servers.mem_keys_iff]
    constructor
    · rintro ⟨record, hget⟩
      obtain ⟨view, hview, -⟩ := hstands.view hget
      simp [hview]
    · intro hne
      obtain ⟨view, hview⟩ := Option.ne_none_iff_exists'.mp hne
      obtain ⟨record, hget, -⟩ := (hstands serverId).2 view hview
      exact ⟨record, hget⟩

end Answers

/-! ## Runs -/

/-- The file after some requests, from a missing one. -/
def fileAfter (service : McpServersService) (requests : List McpRequest) : ServersFile :=
  requests.foldl (fun file request => request.perform service file) none

/-- The map after some requests, from the empty one. -/
def catalogAfter (requests : List McpRequest) : Catalog :=
  requests.foldl (fun catalog request => request.apply catalog) fun _ => none

/-- What each of the requests writes is smaller than the limit. -/
def FitsRun (service : McpServersService) (requests : List McpRequest) : Prop :=
  ∀ before request after, requests = before ++ request :: after →
    FitsFile service (fileAfter service before) request

theorem represents_run {service : McpServersService} (hiso : RoundTripsIso service)
    {requests : List McpRequest} (hfits : FitsRun service requests) :
    Represents service (fileAfter service requests) (catalogAfter requests) := by
  induction requests using List.reverseRecOn with
  | nil => exact represents_none
  | append_singleton requests request ih =>
    have hbefore : FitsRun service requests := fun before request' after hsplit =>
      hfits before request' (after ++ [request]) (by rw [hsplit, List.append_assoc, List.cons_append])
    have hstep := represents_perform hiso (ih hbefore) request (hfits requests request [] rfl)
    simpa [fileAfter, catalogAfter, List.foldl_append] using hstep

/-- **The store refines a map**: after any requests the file answers as the map does. -/
theorem agrees_run {service : McpServersService} (hiso : RoundTripsIso service)
    {requests : List McpRequest} (hfits : FitsRun service requests) :
    (∀ serverId, GetAgrees service (fileAfter service requests) (catalogAfter requests) serverId) ∧
      ListAgrees service (fileAfter service requests) (catalogAfter requests) :=
  have hrepresents := represents_run hiso hfits
  ⟨getAgrees hiso hrepresents, listAgrees hiso hrepresents⟩

/-! ### A library that reads the datetimes -/

/-- The number that some digits write. -/
def readNumber (text : Str) : ℕ := text.foldl (fun n ch => 10 * n + (ch.toNat - 48)) 0

/-- `datetime.fromisoformat`, on a text of the length that `isoDatetime` writes. -/
def readIso (text : Str) : Option UtcTime :=
  let day : Day :=
    ⟨readNumber (text.take 4), readNumber ((text.drop 5).take 2), readNumber ((text.drop 8).take 2)⟩
  let hour := readNumber ((text.drop 11).take 2)
  let minute := readNumber ((text.drop 14).take 2)
  let second := readNumber ((text.drop 17).take 2)
  if h : day.Valid ∧ hour < 24 ∧ minute < 60 ∧ second < 60 then
    some { day, hour, minute, second, microsecond := 0, day_valid := h.1
           clock_valid := ⟨h.2.1, h.2.2.1, h.2.2.2, by decide⟩ }
  else none

theorem toNat_digitChar (n : ℕ) : (Nat.digitChar (n % 10)).toNat - 48 = n % 10 := by
  have hall : ∀ n < 10, (Nat.digitChar n).toNat - 48 = n := by decide
  exact hall _ (Nat.mod_lt n (by decide))

theorem readNumber_four {n : ℕ} (h : n < 10000) : readNumber (digits 4 n) = n := by
  have hdigits : digits 4 n = [Nat.digitChar (n / 1000 % 10), Nat.digitChar (n / 100 % 10),
      Nat.digitChar (n / 10 % 10), Nat.digitChar (n / 1 % 10)] := rfl
  rw [hdigits]
  simp only [readNumber, List.foldl_cons, List.foldl_nil, toNat_digitChar]
  omega

theorem readNumber_two {n : ℕ} (h : n < 100) : readNumber (digits 2 n) = n := by
  have hdigits : digits 2 n = [Nat.digitChar (n / 10 % 10), Nat.digitChar (n / 1 % 10)] := rfl
  rw [hdigits]
  simp only [readNumber, List.foldl_cons, List.foldl_nil, toNat_digitChar]
  omega

/-- Where the numbers of a datetime stand in its text. -/
theorem isoDatetime_parts (time : UtcTime) :
    (isoDatetime time).take 4 = digits 4 time.day.year ∧
      ((isoDatetime time).drop 5).take 2 = digits 2 time.day.month ∧
      ((isoDatetime time).drop 8).take 2 = digits 2 time.day.day ∧
      ((isoDatetime time).drop 11).take 2 = digits 2 time.hour ∧
      ((isoDatetime time).drop 14).take 2 = digits 2 time.minute ∧
      ((isoDatetime time).drop 17).take 2 = digits 2 time.second := by
  have hfour (n : ℕ) : ∃ a b c d, digits 4 n = [a, b, c, d] := ⟨_, _, _, _, rfl⟩
  have htwo (n : ℕ) : ∃ a b, digits 2 n = [a, b] := ⟨_, _, rfl⟩
  obtain ⟨y₁, y₂, y₃, y₄, hyear⟩ := hfour time.day.year
  obtain ⟨m₁, m₂, hmonth⟩ := htwo time.day.month
  obtain ⟨d₁, d₂, hday⟩ := htwo time.day.day
  obtain ⟨h₁, h₂, hhour⟩ := htwo time.hour
  obtain ⟨i₁, i₂, hminute⟩ := htwo time.minute
  obtain ⟨s₁, s₂, hsecond⟩ := htwo time.second
  simp [isoDatetime, Day.isoformat, hyear, hmonth, hday, hhour, hminute, hsecond]

theorem readIso_isoDatetime (time : UtcTime) : readIso (isoDatetime time) = some time.truncate := by
  obtain ⟨hyears, hmonths, hdays, hhours, hminutes, hseconds⟩ := isoDatetime_parts time
  have hday := time.day_valid
  have hclock := time.clock_valid
  have hyear : readNumber (digits 4 time.day.year) = time.day.year := readNumber_four (by
    have hle := hday.2.1
    omega)
  have hmonth : readNumber (digits 2 time.day.month) = time.day.month := readNumber_two (by
    have hle := hday.2.2.2.1
    omega)
  have hdate : readNumber (digits 2 time.day.day) = time.day.day := readNumber_two (by
    have hle := hday.2.2.2.2.2
    unfold daysInMonth at hle
    split at hle
    · split at hle <;> omega
    · split at hle <;> omega)
  have hhour : readNumber (digits 2 time.hour) = time.hour := readNumber_two (by omega)
  have hminute : readNumber (digits 2 time.minute) = time.minute := readNumber_two (by omega)
  have hsecond : readNumber (digits 2 time.second) = time.second := readNumber_two (by omega)
  have hvalid : time.day.Valid ∧ time.hour < 24 ∧ time.minute < 60 ∧ time.second < 60 :=
    ⟨hday, hclock.1, hclock.2.1, hclock.2.2.1⟩
  simp only [readIso, hyears, hmonths, hdays, hhours, hminutes, hseconds, hyear, hmonth, hdate,
    hhour, hminute, hsecond]
  exact dif_pos hvalid

instance (service : McpServersService) (file : ServersFile) (request : McpRequest) :
    Decidable (FitsFile service file request) :=
  inferInstanceAs (Decidable (∀ servers ∈ request.planned service file, _))

/-- Requests fit where each of them fits the file that the others before it leave. -/
theorem fitsRun_of_forall {service : McpServersService} {requests : List McpRequest}
    (h : ∀ i (hi : i < requests.length),
      FitsFile service (fileAfter service (requests.take i)) (requests.get ⟨i, hi⟩)) :
    FitsRun service requests := by
  rintro before request after rfl
  have hfits := h before.length (by simp)
  simpa using hfits

def docsTime : UtcTime :=
  { day := ⟨2026, 3, 8⟩, hour := 12, minute := 0, second := 0, microsecond := 5 }

def docsArguments : UpsertArguments :=
  { transport := " HTTP".toList, url := some "https://docs".toList }

/-- The arguments name a variable twice, with blanks at different ends. -/
def toolsArguments : UpsertArguments :=
  { transport := "stdio".toList
    command := some "npx ".toList
    args := some [" -y".toList, "tools".toList]
    env := some (.ofItems [(" KEY".toList, "1".toList), ("KEY ".toList, "2".toList)])
    description := some " ".toList }

/-- Two servers; the first one is switched off and has its arguments replaced, the second one goes
away. -/
def docsRequests : List McpRequest :=
  [.upsert docsTime " docs ".toList docsArguments,
    .upsert docsTime "tools".toList toolsArguments,
    .setEnabled docsTime "docs".toList false,
    .upsert docsTime "docs".toList toolsArguments,
    .delete "tools".toList]

theorem agrees_run_docs :
    (∀ serverId, GetAgrees { fromisoformat := readIso }
      (fileAfter { fromisoformat := readIso } docsRequests) (catalogAfter docsRequests) serverId) ∧
      ListAgrees { fromisoformat := readIso }
        (fileAfter { fromisoformat := readIso } docsRequests) (catalogAfter docsRequests) ∧
      (catalogAfter docsRequests "docs".toList).map ServerView.enabled = some false ∧
        (catalogAfter docsRequests "tools".toList).isNone = true := by
  have hiso : RoundTripsIso { fromisoformat := readIso } := by
    intro time
    dsimp only
    rw [readIso_isoDatetime]
  have hfits : FitsRun { fromisoformat := readIso } docsRequests := by
    apply fitsRun_of_forall
    decide +kernel
  obtain ⟨hget, hlist⟩ := agrees_run hiso hfits
  exact ⟨hget, hlist, by decide +kernel, by decide +kernel⟩

end Portex
