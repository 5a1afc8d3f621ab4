import Portex.Mcp.Servers
import Portex.Foundation.JsonDict
import Portex.Settings.Service

/-!
# What is written is read back

The file of the MCP servers is written with a new line that the check of its size leaves out, so an
encoding as large as the limit is written, and refused by every later read. Below the limit the
servers that are read are the servers that were written.

## Main definitions

* `WrittenServers`, `SafeServers`: the servers that the service writes
* `McpServersService.ReadsBack`: what is written is read

## Main results

* `readUserServers_encoded`: the servers that are read where some are written
* `McpServersService.readsBack_iff`: the servers that are read back
* `readBack_iff`: the same, with the objects of the settings
-/

namespace Portex

open Foundation

/-! ## Server ids -/

theorem not_isSpace_of_safe {ch : Char} (h : (ch.isAlphanum || ch ∈ ['.', '_', '-']) = true) :
    isSpace ch = false := by
  rw [Bool.eq_false_iff]
  intro hspace
  obtain ⟨halpha, hdigit⟩ := not_isAlphanum_of_isSpace hspace
  have halphanum : ch.isAlphanum = (ch.isAlpha || ch.isDigit) := rfl
  rw [halphanum, halpha, hdigit] at h
  simp only [Bool.or_self, Bool.false_or, decide_eq_true_eq, List.mem_cons, List.not_mem_nil,
    or_false] at h
  rcases h with rfl | rfl | rfl <;> exact absurd hspace (by decide)

theorem strip_of_isSafeSegment {serverId : Str} (h : isSafeSegment serverId = true) :
    strip serverId = serverId := by
  refine stripBy_eq_self_of_forall fun ch hch => not_isSpace_of_safe ?_
  cases serverId with
  | nil => cases hch
  | cons first rest =>
    simp only [isSafeSegment, Bool.and_eq_true, List.all_eq_true] at h
    rcases List.mem_cons.mp hch with rfl | hch
    · rw [h.1, Bool.true_or]
    · exact h.2 ch hch

theorem validateSegment_of_safe {serverId : Str} (h : isSafeSegment serverId = true)
    (label : String) : validateSegment serverId label = .ok serverId := by
  rw [validateSegment, strip_of_isSafeSegment h, if_pos h]

theorem isSafeSegment_of_validateSegment {value safe : Str} {label : String}
    (h : validateSegment value label = .ok safe) : isSafeSegment safe = true := by
  unfold validateSegment at h
  split at h
  · rename_i hsafe
    rw [← Except.ok.inj h]
    exact hsafe
  · cases h

/-! ## Reading servers -/

/-- The record of a value. -/
def recordOfJson : Json → Record
  | .object members => .ofItems members
  | _ => ∅

def Json.IsObject (value : Json) : Prop := ∃ members, value = .object members

namespace McpServersService

variable {service : McpServersService} {servers normalized : Servers} {file : ServersFile}

theorem normalizeServers_ok {items : List (Str × Json)}
    (h : ∀ item ∈ items, isSafeSegment item.1 = true ∧ Json.IsObject item.2) :
    normalizeServers items normalized =
      .ok (normalized.insertAll (items.map fun item => (item.1, recordOfJson item.2))) := by
  induction items generalizing normalized with
  | nil => rfl
  | cons item items ih =>
    obtain ⟨serverId, value⟩ := item
    obtain ⟨hsafe, members, rfl⟩ := h _ List.mem_cons_self
    rw [normalizeServers, validateSegment_of_safe hsafe]
    exact ih fun item hmem => h item (List.mem_cons_of_mem _ hmem)

/-- The ids of servers that are read are server ids. -/
theorem safe_of_normalizeServers {items : List (Str × Json)}
    (hsafe : ∀ serverId ∈ normalized.keys, isSafeSegment serverId = true)
    (h : normalizeServers items normalized = .ok servers) :
    ∀ serverId ∈ servers.keys, isSafeSegment serverId = true := by
  induction items generalizing normalized with
  | nil =>
    rw [← Except.ok.inj h]
    exact hsafe
  | cons item items ih =>
    obtain ⟨serverId, value⟩ := item
    cases value with
    | object record =>
      simp only [normalizeServers] at h
      split at h
      · cases h
      · rename_i safeServerId hvalid
        refine ih (fun serverId' hmem => ?_) h
        rcases Dict.mem_keys_insert.mp hmem with rfl | hmem
        · exact isSafeSegment_of_validateSegment hvalid
        · exact hsafe serverId' hmem
    | _ => cases h

theorem safe_of_readUserServers (h : service.readUserServers file = .ok servers) :
    ∀ serverId ∈ servers.keys, isSafeSegment serverId = true := by
  have hempty : ∀ serverId ∈ (∅ : Servers).keys, isSafeSegment serverId = true := by simp
  unfold readUserServers at h
  split at h
  · rw [← Except.ok.inj h]
    exact hempty
  · split at h
    · cases h
    · split at h
      · split at h
        · exact safe_of_normalizeServers hempty h
        · cases h
      · cases h

end McpServersService

/-! ## Writing servers -/

/-- The numbers in the records are written as numbers. -/
def WrittenServers (servers : Servers) : Prop :=
  ∀ serverId record, servers.get? serverId = some record → WrittenDict record

def SafeServers (servers : Servers) : Prop := ∀ serverId ∈ servers.keys, isSafeSegment serverId = true

namespace McpServersService

variable {service : McpServersService} {servers : Servers}

/-- The members of the object of the servers. -/
def serverMembers (servers : Servers) : List (Str × Json) :=
  (sortedIds servers).filterMap fun serverId =>
    (servers.get? serverId).map fun record => (serverId, .object record.items)

theorem mem_serverMembers {serverId : Str} {value : Json} :
    (serverId, value) ∈ serverMembers servers ↔
      ∃ record, servers.get? serverId = some record ∧ value = .object record.items := by
  simp only [serverMembers, sortedIds, List.mem_filterMap, List.mem_insertionSort,
    Option.map_eq_some_iff, Prod.mk.injEq]
  constructor
  · rintro ⟨_, -, record, hget, rfl, rfl⟩
    exact ⟨record, hget, rfl⟩
  · rintro ⟨record, hget, rfl⟩
    exact ⟨serverId, Dict.mem_keys_of_get? hget, record, hget, rfl, rfl⟩

theorem map_fst_filterMap {serverIds : List Str}
    (h : ∀ serverId ∈ serverIds, serverId ∈ servers.keys) :
    (serverIds.filterMap fun serverId =>
      (servers.get? serverId).map fun record => (serverId, Json.object record.items)).map Prod.fst =
        serverIds := by
  induction serverIds with
  | nil => rfl
  | cons serverId serverIds ih =>
    obtain ⟨record, hget⟩ := (servers.mem_keys_iff serverId).mp (h serverId List.mem_cons_self)
    rw [List.filterMap_cons_some (by rw [hget]; rfl), List.map_cons,
      ih fun serverId' hmem => h serverId' (List.mem_cons_of_mem _ hmem)]

theorem serverMembers_nodup (servers : Servers) : ((serverMembers servers).map Prod.fst).Nodup := by
  have hperm : (sortedIds servers).Perm servers.keys := List.perm_insertionSort _ _
  rw [serverMembers, map_fst_filterMap fun serverId hmem => hperm.mem_iff.mp hmem]
  exact hperm.nodup_iff.mpr servers.nodup

/-- The object of the servers is written with the servers sorted. -/
theorem sorted_payloadOf (servers : Servers) :
    (payloadOf servers).sorted = .object [("servers".toList,
      .object ((sortedMembers (serverMembers servers)).insertionSort nameLE))] := rfl

theorem written_payloadOf (h : WrittenServers servers) : (payloadOf servers).Written := by
  refine ⟨writtenMembers_iff.mpr fun member hmem => ?_, trivial⟩
  obtain ⟨record, hget, hvalue⟩ := mem_serverMembers.mp hmem
  rw [hvalue]
  exact h _ record hget

/-- What a sorted member of the object of the servers is. -/
theorem mem_sorted_serverMembers {serverId : Str} {value : Json} :
    (serverId, value) ∈ (sortedMembers (serverMembers servers)).insertionSort nameLE ↔
      ∃ record, servers.get? serverId = some record ∧
        value = .object ((sortedMembers record.items).insertionSort nameLE) := by
  rw [mem_sorted]
  constructor
  · rintro ⟨value', hmem, rfl⟩
    obtain ⟨record, hget, rfl⟩ := mem_serverMembers.mp hmem
    exact ⟨record, hget, rfl⟩
  · rintro ⟨record, hget, rfl⟩
    exact ⟨_, mem_serverMembers.mpr ⟨record, hget, rfl⟩, rfl⟩

theorem loads_encodeServers (h : WrittenServers servers) :
    loads (universalNewlines (encodeServers servers ++ ['\n'])) = some (payloadOf servers).sorted := by
  have hwritten := written_payloadOf h
  have hcr : '\r' ∉ encodeServers servers ++ ['\n'] := by
    have hdumps := cr_notMem_render hwritten.sorted 0
    simp [encodeServers, dumps, hdumps]
  rw [universalNewlines_eq_self.mpr hcr, encodeServers, loads_dumps hwritten]

/-- What reading an encoding below the limit comes to. -/
theorem readUserServers_eq (h : WrittenServers servers)
    (hsize : sizeOf8 (encodeServers servers) < service.maxFileSizeBytes) :
    service.readUserServers (some (encodeServers servers ++ ['\n'])) = normalizeServers
      (Dict.ofItems ((sortedMembers (serverMembers servers)).insertionSort nameLE)).items ∅ := by
  have hfits : ¬ sizeOf8 (encodeServers servers ++ ['\n']) > service.maxFileSizeBytes := by
    rw [sizeOf8_append, sizeOf8_newline]
    omega
  simp only [readUserServers, if_neg hfits, loads_encodeServers h, sorted_payloadOf]
  rfl

theorem readUserServers_of_eq
    (hsize : sizeOf8 (encodeServers servers) = service.maxFileSizeBytes) :
    service.readUserServers (some (encodeServers servers ++ ['\n'])) =
      .error (.value "mcp servers file exceeds size limit") := by
  have hlarge : sizeOf8 (encodeServers servers ++ ['\n']) > service.maxFileSizeBytes := by
    rw [sizeOf8_append, sizeOf8_newline]
    omega
  simp only [readUserServers, if_pos hlarge]

theorem mem_items_serverMembers {serverId : Str} {value : Json} :
    (serverId, value) ∈
        (Dict.ofItems ((sortedMembers (serverMembers servers)).insertionSort nameLE)).items ↔
      ∃ record, servers.get? serverId = some record ∧
        value = .object ((sortedMembers record.items).insertionSort nameLE) := by
  rw [Dict.mem_items, Dict.get?_ofItems (names_sorted_nodup (serverMembers_nodup servers)),
    mem_sorted_serverMembers]

/-- **The servers that are read** where servers are written are these, each with the values of its
record. -/
theorem readUserServers_encoded (h : WrittenServers servers) (hsafe : SafeServers servers)
    (hsize : sizeOf8 (encodeServers servers) < service.maxFileSizeBytes) :
    ∃ servers', service.readUserServers (some (encodeServers servers ++ ['\n'])) = .ok servers' ∧
      ∀ serverId, servers'.get? serverId = (servers.get? serverId).map reread := by
  rw [readUserServers_eq h hsize]
  have hitems : ∀ item ∈
      (Dict.ofItems ((sortedMembers (serverMembers servers)).insertionSort nameLE)).items,
        isSafeSegment item.1 = true ∧ Json.IsObject item.2 := by
    rintro ⟨serverId, value⟩ hmem
    obtain ⟨record, hget, hvalue⟩ := mem_items_serverMembers.mp hmem
    exact ⟨hsafe serverId (Dict.mem_keys_of_get? hget), _, hvalue⟩
  refine ⟨_, normalizeServers_ok hitems, fun serverId => ?_⟩
  have hnodup : (((Dict.ofItems
      ((sortedMembers (serverMembers servers)).insertionSort nameLE)).items.map
        fun item => (item.1, recordOfJson item.2)).map Prod.fst).Nodup := by
    rw [List.map_map]
    exact (Dict.map_fst_items _).symm ▸ (Dict.nodup _)
  refine Option.ext fun record => ?_
  rw [← Dict.ofItems, Dict.get?_ofItems hnodup, List.mem_map, Option.map_eq_some_iff]
  constructor
  · rintro ⟨⟨serverId', value⟩, hmem, heq⟩
    obtain ⟨rfl, rfl⟩ := Prod.mk.inj heq
    obtain ⟨record, hget, rfl⟩ := mem_items_serverMembers.mp hmem
    exact ⟨record, hget, rfl⟩
  · rintro ⟨record, hget, rfl⟩
    exact ⟨(serverId, .object ((sortedMembers record.items).insertionSort nameLE)),
      mem_items_serverMembers.mpr ⟨record, hget, rfl⟩, rfl⟩

/-! ## What is read back -/

/-- Where servers are written, the next read gives them. -/
def ReadsBack (service : McpServersService) (servers : Servers) : Prop :=
  ∀ text, service.writeUserServers servers = .ok text →
    ∃ servers', service.readUserServers (some text) = .ok servers' ∧ ∀ serverId,
      (servers.get? serverId = none → servers'.get? serverId = none) ∧
        ∀ record, servers.get? serverId = some record →
          ∃ record', servers'.get? serverId = some record' ∧ SameDict record' record

/-- **The servers that are read back** where they are written: their encoding is smaller than the
limit, and their ids are server ids. -/
theorem readsBack_iff (h : WrittenServers servers) :
    service.ReadsBack servers ↔ service.maxFileSizeBytes < sizeOf8 (encodeServers servers) ∨
      (sizeOf8 (encodeServers servers) < service.maxFileSizeBytes ∧ SafeServers servers) := by
  by_cases hlarge : service.maxFileSizeBytes < sizeOf8 (encodeServers servers)
  · -- Nothing is written.
    refine iff_of_true (fun text hwrite => ?_) (.inl hlarge)
    rw [writeUserServers, if_pos hlarge] at hwrite
    cases hwrite
  · have hwrite : service.writeUserServers servers = .ok (encodeServers servers ++ ['\n']) :=
      if_neg hlarge
    constructor
    · intro hreads
      obtain ⟨servers', hread, hservers⟩ := hreads _ hwrite
      refine .inr ⟨?_, fun serverId hmem => ?_⟩
      · by_contra hsize
        rw [readUserServers_of_eq (by omega)] at hread
        cases hread
      · obtain ⟨record, hget⟩ := (servers.mem_keys_iff serverId).mp hmem
        obtain ⟨record', hget', -⟩ := (hservers serverId).2 record hget
        exact safe_of_readUserServers hread serverId (Dict.mem_keys_of_get? hget')
    · rintro (hlarge' | ⟨hsize, hsafe⟩) text htext
      · exact absurd hlarge' hlarge
      · obtain rfl := Except.ok.inj (hwrite.symm.trans htext)
        obtain ⟨servers', hread, hservers⟩ := readUserServers_encoded h hsafe hsize
        refine ⟨servers', hread, fun serverId => ⟨fun hnone => ?_, fun record hget => ?_⟩⟩
        · rw [hservers, hnone]
          rfl
        · exact ⟨reread record, by rw [hservers, hget]; rfl, sameDict_reread record⟩

end McpServersService

/-! ## Both services -/

/-- **What is read back**: of the settings, the objects whose encoding is not as large as the limit,
and of the MCP servers the same, with server ids where they are written. -/
theorem readBack_iff (settings : SettingsService) (mcp : McpServersService)
    {payload defaultPayload : Dict Str Json} (hpayload : WrittenDict payload)
    {servers : Servers} (hservers : WrittenServers servers) :
    (settings.ReadsBack payload defaultPayload ↔
      sizeOf8 (dumps (.object payload.items)) ≠ settings.maxFileSizeBytes) ∧
      (mcp.ReadsBack servers ↔
        sizeOf8 (McpServersService.encodeServers servers) ≠ mcp.maxFileSizeBytes ∧
          (sizeOf8 (McpServersService.encodeServers servers) < mcp.maxFileSizeBytes →
            SafeServers servers)) := by
  refine ⟨SettingsService.readsBack_iff hpayload, ?_⟩
  rw [McpServersService.readsBack_iff hservers]
  constructor
  · rintro (hlarge | ⟨hsmall, hsafe⟩)
    · exact ⟨by omega, fun hsmall => by omega⟩
    · exact ⟨by omega, fun _ => hsafe⟩
  · rintro ⟨hne, hsafe⟩
    rcases Nat.lt_or_gt_of_ne hne with hsmall | hlarge
    · exact .inr ⟨hsmall, hsafe hsmall⟩
    · exact .inl hlarge

theorem writtenDict_empty : WrittenDict ∅ := trivial

theorem writtenServers_empty : WrittenServers ∅ := by
  intro serverId record hget
  cases hget

/-- Settings with a list, over a default that they replace and one that they do not have. -/
def registrationSettings : Dict Str Json :=
  .ofItems [("limit".toList, .number "30".toList), ("title".toList, .str "Portex\n".toList),
    ("domains".toList, .array [.str "a".toList, .null])]

def defaultSettings : Dict Str Json :=
  .ofItems [("title".toList, .str "none".toList), ("theme".toList, .str "dark".toList)]

/-- Two servers, of which the one that sorts last comes first. -/
def twoServers : Servers :=
  .ofItems [("tools".toList, .ofItems [("command".toList, .str "npx".toList),
      ("env".toList, .object [("KEY".toList, .str "1".toList)])]),
    ("Docs".toList, .ofItems [("url".toList, .str "https://docs".toList)])]

theorem readBack_registration :
    SettingsService.ReadsBack ⟨100⟩ registrationSettings defaultSettings ∧
      McpServersService.ReadsBack ⟨300, fun _ => none⟩ twoServers := by
  have hsettings : WrittenDict registrationSettings := by
    have hnumber : IsNumber ['3', '0'] := by decide +kernel
    apply writtenDict_ofItems
    simp [Json.Written, WrittenItems, hnumber]
  have hservers : WrittenServers twoServers := by
    intro serverId record hget
    rcases Dict.get?_insertAll_cases hget with hnone | hmem
    · cases hnone
    · simp only [List.mem_cons, Prod.mk.injEq, List.not_mem_nil, or_false] at hmem
      rcases hmem with ⟨-, rfl⟩ | ⟨-, rfl⟩
      · apply writtenDict_ofItems
        simp [Json.Written, WrittenMembers]
      · apply writtenDict_ofItems
        simp [Json.Written]
  have hboth : (SettingsService.ReadsBack ⟨100⟩ registrationSettings defaultSettings ↔ _) ∧
      (McpServersService.ReadsBack ⟨300, fun _ => none⟩ twoServers ↔ _) :=
    readBack_iff _ _ hsettings hservers
  obtain ⟨hread, hreadServers⟩ := hboth
  refine ⟨hread.mpr (by decide +kernel), hreadServers.mpr ⟨by decide +kernel, fun _ => ?_⟩⟩
  unfold SafeServers
  decide +kernel

/-- **Files as large as the limit** are written and never read. -/
theorem exists_unreadable :
    ¬ SettingsService.ReadsBack ⟨2⟩ ∅ ∅ ∧ ¬ McpServersService.ReadsBack ⟨19, fun _ => none⟩ ∅ := by
  have hsettings : sizeOf8 (dumps (.object (∅ : Dict Str Json).items)) = 2 := by decide
  have hservers : sizeOf8 (McpServersService.encodeServers ∅) = 19 := by decide
  constructor
  · rw [SettingsService.readsBack_iff writtenDict_empty, hsettings]
    exact fun hne => hne rfl
  · rw [McpServersService.readsBack_iff writtenServers_empty, hservers]
    rintro (hlt | ⟨hlt, -⟩) <;> exact Nat.lt_irrefl 19 hlt

end Portex
