import Portex.Messages.Records
import Mathlib.Data.String.Basic
import Mathlib.Order.Lattice

/-!
# The audit list

`UsageAuditService.list_audit_messages` of `services/usage_audit.py`: the newest messages, of all
groups or of one. Without a group the query has a limit of its own; with one, the rows are searched
until enough are found.

## Main definitions

* `listAuditMessages`: the list
* `auditItem`: how a stored message is shown
* `IsFeed`: the newest messages of a group

## Main results

* `isFeed_listAuditMessages`: the list is that
-/

namespace Portex

open Foundation

/-! ## The list -/

structure AuditMessageSnapshot where
  messageId : String
  chatJid : String
  groupId : String
  channel : String
  runId : Option String
  externalMessageId : Option String
  sender : String
  isFromMe : Bool
  slotId : String
  content : Option String
  timestamp : ℤ
  deriving DecidableEq

structure AuditMessageListSnapshot where
  items : List AuditMessageSnapshot
  limit : ℕ
  groupId : Option String
  hasMore : Bool
  deriving DecidableEq

/-- `_normalize_limit`. -/
def normalizeLimit (limit : ℤ) : ℕ := (max 1 (min 200 limit)).toNat

/-- The order of the rows: the latest first, of one time the greatest id first. -/
def Message.auditKey (message : Message) : ℤ ×ₗ Stringᵒᵈ :=
  toLex (-message.timestamp, OrderDual.toDual message.id)

def auditSnapshot (message : Message) : AuditMessageSnapshot :=
  let metadata := extractMetadata message
  { messageId := message.id
    chatJid := message.chatJid
    groupId := metadata.groupId
    channel := metadata.channel
    runId := metadata.runId
    externalMessageId := metadata.externalMessageId
    sender := message.sender
    isFromMe := message.isFromMe
    slotId := message.slotId
    content := message.content
    timestamp := message.timestamp }

/-- The loop of `list_audit_messages`, which ends once `wanted` items are found. -/
def collectAudit (wanted : ℕ) (groupId : Option String) :
    List Message → List AuditMessageSnapshot → List AuditMessageSnapshot
  | [], items => items
  | message :: candidates, items =>
    if groupId ≠ none ∧ groupId ≠ some (extractMetadata message).groupId then
      collectAudit wanted groupId candidates items
    else
      let items := items ++ [auditSnapshot message]
      if wanted ≤ items.length then items else collectAudit wanted groupId candidates items

/-- `list_audit_messages`. -/
def listAuditMessages (rows : List Message) (limit : ℤ) (groupId : Option String) :
    AuditMessageListSnapshot :=
  let normalizedLimit := normalizeLimit limit
  let normalizedGroupId := trimmed groupId
  let statement := sortedBy Message.auditKey rows
  let candidates :=
    if normalizedGroupId = none then statement.take (normalizedLimit + 1) else statement
  let items := collectAudit (normalizedLimit + 1) normalizedGroupId candidates []
  { items := items.take normalizedLimit
    limit := normalizedLimit
    groupId := normalizedGroupId
    hasMore := normalizedLimit < items.length }

/-! ## What is found -/

def Message.inGroup (groupId : Option String) (message : Message) : Bool :=
  groupId = none ∨ groupId = some (extractMetadata message).groupId

theorem collectAudit_eq {wanted : ℕ} (groupId : Option String) (candidates : List Message)
    {items : List AuditMessageSnapshot} (hitems : items.length < wanted) :
    collectAudit wanted groupId candidates items =
      items ++ ((candidates.filter (Message.inGroup groupId)).take (wanted - items.length)).map
        auditSnapshot := by
  induction candidates generalizing items with
  | nil => simp [collectAudit]
  | cons message candidates ih =>
    by_cases hother : groupId ≠ none ∧ groupId ≠ some (extractMetadata message).groupId
    · have hnot : message.inGroup groupId = false := by
        simpa [Message.inGroup] using hother
      rw [collectAudit, if_pos hother, ih hitems, List.filter_cons_of_neg (by simp [hnot])]
    · have hin : message.inGroup groupId = true := by
        rw [not_and_or, not_not, not_not] at hother
        simpa [Message.inGroup] using hother
      rw [collectAudit, if_neg hother, List.filter_cons_of_pos hin]
      obtain ⟨left, hleft⟩ : ∃ left, wanted - items.length = left + 1 :=
        ⟨wanted - items.length - 1, by omega⟩
      rw [hleft, List.take_succ_cons, List.map_cons]
      dsimp only
      rw [List.length_append, List.length_singleton]
      split
      · -- The last one that was asked for.
        have hzero : left = 0 := by omega
        rw [hzero, List.take_zero, List.map_nil]
      · have hnext : wanted - (items ++ [auditSnapshot message]).length = left := by
          rw [List.length_append, List.length_singleton]
          omega
        rw [ih (by rw [List.length_append, List.length_singleton]; omega), hnext,
          List.append_assoc, List.singleton_append]

/-- The limit of the query makes no difference: without a group, no row is passed over. -/
theorem collectAudit_candidates (rows : List Message) (limit : ℕ) (groupId : Option String) :
    collectAudit (limit + 1) groupId
        (if groupId = none then rows.take (limit + 1) else rows) [] =
      ((rows.filter (Message.inGroup groupId)).take (limit + 1)).map auditSnapshot := by
  rw [collectAudit_eq groupId _ (Nat.succ_pos limit), List.nil_append, List.length_nil,
    Nat.sub_zero]
  split
  · rename_i hnone
    have hall (rows : List Message) : rows.filter (Message.inGroup groupId) = rows := by
      apply List.filter_eq_self.mpr
      intro message _
      simp [Message.inGroup, hnone]
    rw [hall, hall, List.take_take, min_self]
  · rfl

theorem listAuditMessages_eq (rows : List Message) (limit : ℤ) (groupId : Option String) :
    let found := (sortedBy Message.auditKey rows).filter (Message.inGroup (trimmed groupId))
    listAuditMessages rows limit groupId =
      { items := (found.take (normalizeLimit limit)).map auditSnapshot
        limit := normalizeLimit limit
        groupId := trimmed groupId
        hasMore := normalizeLimit limit < found.length } := by
  dsimp only
  unfold listAuditMessages
  dsimp only
  rw [collectAudit_candidates, ← List.map_take, List.take_take, Nat.min_eq_left (Nat.le_succ _),
    List.length_map, List.length_take]
  congr 1
  rw [decide_eq_decide]
  omega

/-! ## What was stored -/

/-- How a message that was stored is shown. -/
def auditItem (call : StoreCall) : AuditMessageSnapshot where
  messageId := call.id
  chatJid := call.chatJid
  groupId := inferGroupId call.chatJid (trimmed call.groupFolder)
  channel := inferChannel call.chatJid (trimmed call.channel)
  runId := trimmed call.runId
  externalMessageId := trimmed call.externalMessageId
  sender := call.sender
  isFromMe := call.isFromMe
  slotId := call.slotId
  content := some call.content
  timestamp := call.timestamp

/-- The message comes first in the list. -/
def StoreCall.Newer (call call' : StoreCall) : Prop :=
  call'.timestamp < call.timestamp ∨ call'.timestamp = call.timestamp ∧ call'.id < call.id

/-- The message is one of those that are asked for. -/
def StoreCall.Asked (groupId : Option String) (call : StoreCall) : Prop :=
  ∀ group ∈ groupId, inferGroupId call.chatJid (trimmed call.groupFolder) = group

/-- The list has the newest of the messages that are asked for, as they were stored, and says
whether that is all of them. -/
structure IsFeed (calls : List StoreCall) (limit : ℕ) (groupId : Option String)
    (feed : AuditMessageListSnapshot) : Prop where
  limit_eq : feed.limit = limit
  groupId_eq : feed.groupId = groupId
  shown : ∃ shown : List StoreCall, feed.items = shown.map auditItem ∧
    shown.length ≤ limit ∧ shown.Pairwise StoreCall.Newer ∧
    (∀ call ∈ shown, call ∈ calls ∧ call.Asked groupId) ∧
    (∀ call ∈ calls, call.Asked groupId → call ∉ shown →
      shown.length = limit ∧ ∀ other ∈ shown, other.Newer call) ∧
    (feed.hasMore = true ↔ ∃ call ∈ calls, call.Asked groupId ∧ call ∉ shown)

theorem auditSnapshot_storeMessage (call : StoreCall) :
    auditSnapshot (storeMessage call) = auditItem call := by
  unfold auditSnapshot
  rw [extractMetadata_storeMessage]
  rfl

theorem inGroup_storeMessage {groupId : Option String} {call : StoreCall} :
    (storeMessage call).inGroup groupId = true ↔ call.Asked groupId := by
  unfold Message.inGroup
  rw [extractMetadata_storeMessage, decide_eq_true_iff]
  cases groupId with
  | none => simp [StoreCall.Asked]
  | some group => simp [StoreCall.Asked, eq_comm]

theorem auditKey_lt_iff {call call' : StoreCall} :
    (storeMessage call).auditKey < (storeMessage call').auditKey ↔ call.Newer call' := by
  unfold Message.auditKey
  rw [Prod.Lex.toLex_lt_toLex, StoreCall.Newer]
  apply or_congr
  · exact Int.neg_lt_neg_iff
  · exact and_congr (Int.neg_inj.trans eq_comm) Iff.rfl

/-- **The audit list** of messages that were stored under different ids. -/
theorem isFeed_listAuditMessages {calls : List StoreCall} (hids : (calls.map StoreCall.id).Nodup)
    (limit : ℤ) (groupId : Option String) :
    IsFeed calls (normalizeLimit limit) (trimmed groupId)
      (listAuditMessages (calls.map storeMessage) limit groupId) := by
  have hkeys : (calls.map fun call => (storeMessage call).auditKey).Nodup := by
    refine List.Nodup.of_map (fun key => OrderDual.ofDual (ofLex key).2) ?_
    rw [List.map_map]
    exact hids
  obtain ⟨hsorted, hmem, hrest, hmore⟩ := first_sortedBy hkeys
    (Message.inGroup (trimmed groupId) ∘ storeMessage) (normalizeLimit limit)
  rw [listAuditMessages_eq, ← map_sortedBy, List.filter_map]
  generalize (sortedBy (fun call => (storeMessage call).auditKey) calls).filter
    (Message.inGroup (trimmed groupId) ∘ storeMessage) = found at hsorted hmem hrest hmore
  refine ⟨rfl, rfl, found.take (normalizeLimit limit), ?_, List.length_take_le _ _, ?_, ?_, ?_, ?_⟩
  · rw [← List.map_take, List.map_map]
    exact List.map_congr_left fun call _ => auditSnapshot_storeMessage call
  · exact hsorted.imp auditKey_lt_iff.mp
  · intro call hcall
    exact ⟨(hmem call hcall).1, inGroup_storeMessage.mp (hmem call hcall).2⟩
  · intro call hcall hasked hnot
    obtain ⟨hlength, hall⟩ := hrest call hcall (inGroup_storeMessage.mpr hasked) hnot
    exact ⟨hlength, fun other hother => auditKey_lt_iff.mp (hall other hother)⟩
  · rw [decide_eq_true_iff, List.length_map]
    rw [hmore]
    simp only [Function.comp_apply, inGroup_storeMessage]

/-- The second message is in the group of its chat. -/
def exampleStored : List StoreCall :=
  [exampleCall, { exampleCall with id := "m2", groupFolder := none }]

theorem isFeed_listAuditMessages_example :
    IsFeed exampleStored (normalizeLimit (-3)) (trimmed (some " telegram:7"))
      (listAuditMessages (exampleStored.map storeMessage) (-3) (some " telegram:7")) :=
  isFeed_listAuditMessages (by decide) (-3) (some " telegram:7")

end Portex
