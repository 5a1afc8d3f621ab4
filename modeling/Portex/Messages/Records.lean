import Portex.Foundation.JsonAscii
import Portex.Registry.State

/-!
# Message records

`services/message_service.py` and the reading of what it stores in `services/usage_audit.py`: the
channel of a message, its group and its run are kept in a text of JSON beside it.

## Main definitions

* `Attachments`: the texts that a row keeps
* `Message`, `storeMessage`: a row of the table, and how one is made
* `extractMetadata`: the channel, the group and the run of a row

## Main results

* `extractMetadata_storeMessage`: what is read of a row is what it was stored with
* `extractMetadata_eq_iff`: when it is just that
-/

namespace Portex

open Foundation

/-! ## Storing -/

/-- A text that `json.loads` reads or refuses with a `JSONDecodeError`. No row has another one:
`store_message` writes them all. -/
structure Attachments where
  text : List Char
  readable : ∀ error, pyLoads defaultLimits (fun _ => ()) text = .error error → error = .decode
  deriving DecidableEq

/-- A row of `messages`. -/
structure Message where
  id : String
  chatJid : String
  sender : String
  content : Option String
  /-- In microseconds of UTC. -/
  timestamp : ℤ
  isFromMe : Bool := false
  slotId : String := "main"
  attachments : Option Attachments := none
  deriving DecidableEq

/-- The arguments of `store_message`, with the id that it draws and the time that it reads. -/
structure StoreCall where
  id : String
  timestamp : ℤ
  chatJid : String
  sender : String
  content : String
  isFromMe : Bool := false
  slotId : String := "main"
  channel : Option String := none
  groupFolder : Option String := none
  runId : Option String := none
  externalMessageId : Option String := none
  deriving DecidableEq

/-- The dict of the source, before what has no value is dropped. -/
def attachmentValues (call : StoreCall) : List (String × Option String) :=
  [("channel", call.channel), ("group_folder", call.groupFolder), ("run_id", call.runId),
    ("external_message_id", call.externalMessageId)]

/-- The members that have a value. -/
def payloadMembers (values : List (String × Option String)) : List (List Char × List Char) :=
  values.filterMap fun member => member.2.map fun value => (member.1.toList, value.toList)

/-- `json.dumps(payload, sort_keys=True)`. -/
def dumpPayload (payload : List (List Char × List Char)) (hne : payload ≠ []) : Attachments where
  text := asciiObject payload
  readable error herror := by
    obtain ⟨value, hvalue⟩ := pyLoads_asciiObject defaultLimits (fun _ => ()) hne (by decide)
    rw [hvalue] at herror
    cases herror

/-- `_build_attachments_payload`. -/
def buildAttachmentsPayload (call : StoreCall) : Option Attachments :=
  let payload := payloadMembers (attachmentValues call)
  if h : payload = [] then none else some (dumpPayload payload h)

/-- The row that `store_message` adds. -/
def storeMessage (call : StoreCall) : Message where
  id := call.id
  chatJid := call.chatJid
  sender := call.sender
  content := some call.content
  timestamp := call.timestamp
  isFromMe := call.isFromMe
  slotId := call.slotId
  attachments := buildAttachmentsPayload call

/-! ## Reading -/

structure MessageMetadata where
  channel : String
  groupId : String
  runId : Option String
  externalMessageId : Option String
  deriving DecidableEq

/-- `_parse_attachments`: the members of the dict. -/
def parseAttachments : Option Attachments → List (List Char × Json)
  | none => []
  | some value =>
    if value.text = [] then []
    else
      match loads value.text with
      | some (.object members) => members
      | _ => []

/-- `value.strip() or None`, of a string. -/
def nonEmptyStrip (value : List Char) : Option String :=
  if strip value = [] then none else some (String.ofList (strip value))

/-- `_as_non_empty_string`, of what a dict has under a name. -/
def asNonEmptyString : Option Json → Option String
  | some (.str value) => nonEmptyStrip value
  | _ => none

def messageChannels : List String := ["web", "feishu", "telegram"]

/-- `_infer_channel`, from the channel of the attachments. -/
def inferChannel (chatJid : String) (channel : Option String) : String :=
  match channel.filter (· ∈ messageChannels) with
  | some channel => channel
  | none =>
    if startsWith chatJid "feishu:" then "feishu"
    else if startsWith chatJid "telegram:" then "telegram"
    else "web"

/-- `_infer_group_id`, from the group of the attachments. -/
def inferGroupId (chatJid : String) (attachmentGroup : Option String) : String :=
  match attachmentGroup with
  | some group => group
  | none =>
    if startsWith chatJid "web:" then
      -- `chat_jid.split(":", 1)[1]`
      let webGroup := String.ofList (chatJid.toList.drop 4)
      if webGroup = "" then chatJid else webGroup
    else chatJid

/-- `_extract_metadata`. -/
def extractMetadata (message : Message) : MessageMetadata :=
  let attachments := parseAttachments message.attachments
  let textOf (name : String) := asNonEmptyString (Json.get? name.toList attachments)
  { channel := inferChannel message.chatJid (textOf "channel")
    groupId := inferGroupId message.chatJid (textOf "group_folder")
    runId := textOf "run_id"
    externalMessageId := textOf "external_message_id" }

/-! ## Round trip -/

variable {call : StoreCall}

/-- The value of a text without the blanks around it, where that leaves something. -/
def trimmed (value : Option String) : Option String :=
  value.bind fun text => nonEmptyStrip text.toList

theorem names_payloadMembers (values : List (String × Option String)) :
    ((payloadMembers values).map Prod.fst).Sublist ((values.map Prod.fst).map String.toList) := by
  induction values with
  | nil => exact List.Sublist.refl _
  | cons member values ih =>
    obtain ⟨name, value⟩ := member
    cases value with
    | none => exact ih.cons _
    | some value => exact ih.cons_cons _

/-- A member that has no value is passed over. -/
theorem find?_payloadMembers {values : List (String × Option String)}
    (hnodup : (values.map Prod.fst).Nodup) {name : String} {value : Option String}
    (hmem : (name, value) ∈ values) :
    (payloadMembers values).find? (·.1 = name.toList) =
      value.map fun text => (name.toList, text.toList) := by
  induction values with
  | nil => cases hmem
  | cons member values ih =>
    obtain ⟨hnot, hrest⟩ := List.nodup_cons.mp hnodup
    rcases List.mem_cons.mp hmem with rfl | hlater
    · cases value with
      | some text =>
        simp [payloadMembers]
      | none =>
        -- No other member has this name.
        rw [Option.map_none, List.find?_eq_none]
        intro found hfound hname
        have hfound' : found.1 ∈ (payloadMembers values).map Prod.fst := List.mem_map_of_mem hfound
        have hnames := (names_payloadMembers values).subset hfound'
        obtain ⟨other, hother, heq⟩ := List.mem_map.mp hnames
        rw [decide_eq_true_iff.mp hname] at heq
        obtain rfl := String.toList_inj.mp heq
        exact hnot hother
    · have hne : member.1.toList ≠ name.toList := by
        intro heq
        rw [String.toList_inj.mp heq] at hnot
        exact hnot (List.mem_map_of_mem hlater)
      obtain ⟨other, text⟩ := member
      cases text with
      | none => exact ih hrest hlater
      | some text =>
        rw [← ih hrest hlater]
        exact List.find?_cons_of_neg (by simpa using hne)

/-- The members of the payload, as the reader finds them. -/
theorem get?_dumpPayload {members : List (List Char × List Char)} (hne : members ≠ [])
    (hnodup : (members.map Prod.fst).Nodup) (name : List Char) :
    Json.get? name (parseAttachments (some (dumpPayload members hne))) =
      (members.find? (·.1 = name)).map fun member => Json.str member.2 := by
  have htext : asciiObject members ≠ [] := List.cons_ne_nil _ _
  simp only [parseAttachments, dumpPayload, if_neg htext, loads_asciiObject hne]
  have hperm := sortedBy_perm Prod.fst members
  have hsorted : ((stringMembers (sortedBy Prod.fst members)).map Prod.fst).Nodup := by
    unfold stringMembers
    rw [List.map_map]
    exact (hperm.map Prod.fst).nodup_iff.mpr hnodup
  cases hfind : members.find? (·.1 = name) with
  | none =>
    rw [Option.map_none, Json.get?_eq_none_iff]
    intro hmem
    obtain ⟨_, hread, hname⟩ := List.mem_map.mp hmem
    obtain ⟨member, hmember, rfl⟩ := List.mem_map.mp hread
    have hnot := List.find?_eq_none.mp hfind member (hperm.mem_iff.mp hmember)
    exact hnot (decide_eq_true hname)
  | some member =>
    rw [Option.map_some, Json.get?_members hsorted]
    have hname : member.1 = name := by simpa using List.find?_some hfind
    have hmember := hperm.mem_iff.mpr (List.mem_of_find?_eq_some hfind)
    exact List.mem_map.mpr ⟨member, hmember, by rw [hname]⟩

theorem nodup_attachmentValues (call : StoreCall) :
    ((attachmentValues call).map Prod.fst).Nodup := by
  have hnames : ["channel", "group_folder", "run_id", "external_message_id"].Nodup := by decide
  exact hnames

/-- A value is read without the blanks around it. -/
theorem asNonEmptyString_payload {call : StoreCall} {name : String} {value : Option String}
    (hmem : (name, value) ∈ attachmentValues call) :
    asNonEmptyString (Json.get? name.toList (parseAttachments (buildAttachmentsPayload call))) =
      trimmed value := by
  have hfind := find?_payloadMembers (nodup_attachmentValues call) hmem
  unfold buildAttachmentsPayload
  dsimp only
  split
  · rename_i hnil
    rw [hnil] at hfind
    cases value with
    | none => rfl
    | some text => cases hfind
  · rename_i hne
    have hnodup : ((payloadMembers (attachmentValues call)).map Prod.fst).Nodup := by
      refine ((nodup_attachmentValues call).map ?_).sublist (names_payloadMembers _)
      intro name name' heq
      exact String.toList_inj.mp heq
    rw [get?_dumpPayload hne hnodup, hfind]
    cases value with
    | none => rfl
    | some text => rfl

/-- **What is read of a row** is what it was stored with, without the blanks around it. -/
theorem extractMetadata_storeMessage (call : StoreCall) :
    extractMetadata (storeMessage call) =
      { channel := inferChannel call.chatJid (trimmed call.channel)
        groupId := inferGroupId call.chatJid (trimmed call.groupFolder)
        runId := trimmed call.runId
        externalMessageId := trimmed call.externalMessageId } := by
  have hchannel : ("channel", call.channel) ∈ attachmentValues call := by simp [attachmentValues]
  have hgroup : ("group_folder", call.groupFolder) ∈ attachmentValues call := by
    simp [attachmentValues]
  have hrun : ("run_id", call.runId) ∈ attachmentValues call := by simp [attachmentValues]
  have hexternal : ("external_message_id", call.externalMessageId) ∈ attachmentValues call := by
    simp [attachmentValues]
  simp only [extractMetadata, storeMessage, asNonEmptyString_payload hchannel,
    asNonEmptyString_payload hgroup, asNonEmptyString_payload hrun,
    asNonEmptyString_payload hexternal]

/-! ## Texts that are read as they were stored -/

/-- The text is not empty, and there are no blanks around it. -/
def Unpadded (text : String) : Prop := strip text.toList = text.toList ∧ text ≠ ""

instance : DecidablePred Unpadded := fun text =>
  inferInstanceAs (Decidable (strip text.toList = text.toList ∧ text ≠ ""))

theorem toList_ne_nil {text : String} : text.toList ≠ [] ↔ text ≠ "" :=
  not_congr String.toList_eq_nil_iff

theorem Unpadded.trimmed {text : String} (h : Unpadded text) : trimmed (some text) = some text := by
  show nonEmptyStrip text.toList = some text
  rw [nonEmptyStrip, h.1, if_neg (toList_ne_nil.mpr h.2), String.ofList_toList]

theorem trimmed_eq_iff {text : String} : trimmed (some text) = some text ↔ Unpadded text := by
  refine ⟨fun h => ?_, Unpadded.trimmed⟩
  change nonEmptyStrip text.toList = some text at h
  unfold nonEmptyStrip at h
  split at h
  · cases h
  · rename_i hne
    have htext := congrArg String.toList (Option.some.inj h)
    rw [String.toList_ofList] at htext
    refine ⟨htext, fun hempty => hne ?_⟩
    rw [hempty]
    rfl

theorem trimmed_eq_none_iff {text : String} :
    trimmed (some text) = none ↔ strip text.toList = [] := by
  show nonEmptyStrip text.toList = none ↔ _
  unfold nonEmptyStrip
  split <;> simp_all

/-- A channel is always one of the three. -/
theorem inferChannel_mem (chatJid : String) (channel : Option String) :
    inferChannel chatJid channel ∈ messageChannels := by
  unfold inferChannel
  split
  · rename_i hfilter
    exact decide_eq_true_iff.mp (Option.filter_eq_some_iff.mp hfilter).2
  · split
    · decide
    · split <;> decide

/-- A channel that was stored is read back if it is one of the three. -/
theorem inferChannel_eq_iff {chatJid : String} {channel : Option String} :
    inferChannel chatJid (trimmed channel) = channel.getD (inferChannel chatJid none) ↔
      ∀ c ∈ channel, c ∈ messageChannels := by
  cases channel with
  | none => simp [trimmed]
  | some channel =>
    simp only [Option.getD_some, Option.mem_some_iff, forall_eq']
    constructor
    · intro h
      exact h ▸ inferChannel_mem chatJid _
    · intro hmem
      have hplain : Unpadded channel := by
        have hall : ∀ channel ∈ messageChannels, Unpadded channel := by decide
        exact hall channel hmem
      rw [hplain.trimmed, inferChannel]
      simp [Option.filter, hmem]

/-- A folder that was stored is read back if it has no blanks around it, or if it is blank and that
of the chat. -/
theorem inferGroupId_eq_iff {chatJid : String} {folder : Option String} :
    inferGroupId chatJid (trimmed folder) = folder.getD (inferGroupId chatJid none) ↔
      ∀ group ∈ folder,
        Unpadded group ∨ strip group.toList = [] ∧ inferGroupId chatJid none = group := by
  cases folder with
  | none => simp [trimmed]
  | some folder =>
    simp only [Option.getD_some, Option.mem_some_iff, forall_eq']
    cases htrimmed : trimmed (some folder) with
    | none =>
      have hblank := trimmed_eq_none_iff.mp htrimmed
      have hnot : ¬ Unpadded folder := fun hplain => by
        rw [hplain.trimmed] at htrimmed
        cases htrimmed
      simp [hblank, hnot]
    | some group =>
      have hblank : strip folder.toList ≠ [] := fun hnil => by
        rw [trimmed_eq_none_iff.mpr hnil] at htrimmed
        cases htrimmed
      rw [← trimmed_eq_iff, htrimmed]
      simp [hblank, inferGroupId]

/-- A text that was stored is read back if it has no blanks around it. -/
theorem trimmed_eq_self_iff {value : Option String} :
    trimmed value = value ↔ ∀ text ∈ value, Unpadded text := by
  cases value with
  | none => simp [trimmed]
  | some text => simp [trimmed_eq_iff]

/-- What a message is stored with. A missing channel or folder is that of the chat. -/
def StoreCall.metadata (call : StoreCall) : MessageMetadata where
  channel := call.channel.getD (inferChannel call.chatJid none)
  groupId := call.groupFolder.getD (inferGroupId call.chatJid none)
  runId := call.runId
  externalMessageId := call.externalMessageId

/-- **What a message was stored with** is read back if and only if its channel, where it has one, is
one of the three and there are no blanks around its texts. A blank folder is read from the chat
instead. -/
theorem extractMetadata_eq_iff (call : StoreCall) :
    extractMetadata (storeMessage call) = call.metadata ↔
      (∀ channel ∈ call.channel, channel ∈ messageChannels) ∧
        (∀ group ∈ call.groupFolder,
          Unpadded group ∨ strip group.toList = [] ∧ inferGroupId call.chatJid none = group) ∧
        (∀ run ∈ call.runId, Unpadded run) ∧ ∀ id ∈ call.externalMessageId, Unpadded id := by
  rw [extractMetadata_storeMessage, StoreCall.metadata, MessageMetadata.mk.injEq,
    inferChannel_eq_iff, inferGroupId_eq_iff, trimmed_eq_self_iff, trimmed_eq_self_iff]

/-- A message with quotes, a control character and a character beyond the first plane. -/
def exampleCall : StoreCall where
  id := "m1"
  timestamp := 0
  chatJid := "telegram:7"
  sender := "7"
  content := "hello"
  channel := some "telegram"
  groupFolder := some "a\n\"b"
  runId := some "r1"
  externalMessageId := some "𝄞"

example : extractMetadata (storeMessage { exampleCall with channel := none, runId := none }) =
    { channel := "telegram", groupId := "a\n\"b", runId := none,
      externalMessageId := some "𝄞" } := by
  rw [extractMetadata_storeMessage]
  decide

end Portex
