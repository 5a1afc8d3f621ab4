import Portex.Registry.Folder
import Portex.Foundation.SortKey

/-!
# The slots of the workspaces

Every workspace has the slot `main`. The registry sees to it whenever it writes a row and whenever
it looks a workspace up, and the initialisation of the database repairs what an older one lacks.

## Main definitions

* `listSlots`, `listGroupSlots`: the slots of a workspace
* `repairMainConversationSlots`: the repair of the database
* `KeepsSlots`: what requests may do to the slots
* `IsListing`, `Repaired`: what a listing and a repair are

## Main results

* `keepsSlots_perform`: every request only adds slots, and gives each row it writes its main slot
* `slots_of_run`: lookups write nothing, and the slots that were listed stay
* `mainSlots_of_repair`: a repaired database is as good as a new one
-/

namespace Portex

open Foundation

/-- The main slot comes first, the others by their ids. -/
def ConversationSlot.place (slot : ConversationSlot) : Bool ×ₗ List Char :=
  toLex (decide (slot.slotId ≠ "main"), slot.slotId.toList)

/-- `jid LIKE 'web:%'`, which ignores the case of ASCII letters. -/
def isLikeWeb (jid : String) : Bool := "web:".toList.isPrefixOf (jid.toList.map Char.toLower)

/-- The order in which the repair reads the rows. -/
def RegisteredGroup.repairPlace (group : RegisteredGroup) : Bool ×ₗ ℕ ×ₗ List Char :=
  toLex (!isLikeWeb group.jid, group.rank)

namespace Registry

def listSlots (workspaceFolder : String) (r : Registry) : List ConversationSlot :=
  sortedBy ConversationSlot.place
    (r.slots.rows.filter fun slot => slot.workspaceFolder = workspaceFolder)

def listGroupSlots (user : AuthUser) (groupId : String) (r : Registry) :
    Except RouteError (List ConversationSlot) × Registry :=
  match r.requireAccessibleWorkspace user groupId with
  | (.error error, r) => (.error error, r)
  | (.ok workspace, r) => (.ok (r.listSlots workspace.folder), r)

/-- The slot that the repair inserts for a row. -/
def repairSlot (now : ℕ) (group : RegisteredGroup) : ConversationSlot :=
  { workspaceFolder := group.folder, slotId := "main", title := "Main",
    createdBy := group.createdBy, createdAt := now }

/-- The loop of the repair, from the folders that it has seen. -/
def repairFolders : List String → List RegisteredGroup → Registry → Registry
  | _, [], r => r
  | seenFolders, group :: groups, r =>
    if group.folder ∈ seenFolders then repairFolders seenFolders groups r
    else
      match r.getSlot group.folder "main" with
      | some _ => repairFolders (group.folder :: seenFolders) groups r
      | none =>
        repairFolders (group.folder :: seenFolders) groups
          { r with slots := r.slots.put (repairSlot r.now group) }

/-- `_repair_main_conversation_slots`. -/
def repairMainConversationSlots (r : Registry) : Registry :=
  repairFolders [] (sortedBy RegisteredGroup.repairPlace r.groups.rows) r

variable {r r' r'' : Registry} {cfg : AppConfig} {user : AuthUser}

/-! ## What requests do to the slots -/

/-- A slot is never renamed; a main slot nobody has created may get a creator. -/
structure Continues (slot slot' : ConversationSlot) : Prop where
  key : slot'.key = slot.key
  title : slot'.title = slot.title
  createdAt : slot'.createdAt = slot.createdAt
  createdBy : slot'.createdBy = slot.createdBy ∨ slot.createdBy = none ∧ slot.slotId = "main"

theorem Continues.refl (slot : ConversationSlot) : Continues slot slot := ⟨rfl, rfl, rfl, .inl rfl⟩

theorem Continues.trans {a b c : ConversationSlot} (h : Continues a b) (k : Continues b c) :
    Continues a c := by
  refine ⟨k.key.trans h.key, k.title.trans h.title, k.createdAt.trans h.createdAt, ?_⟩
  have hslotId : b.slotId = a.slotId := congrArg Prod.snd h.key
  rcases h.createdBy with hsame | hnone
  · rw [← hsame, ← hslotId]
    exact k.createdBy
  · exact .inr hnone

theorem Continues.createdBy_ne {slot slot' : ConversationSlot} (h : Continues slot slot')
    (hne : slot.createdBy ≠ none) : slot'.createdBy ≠ none := by
  rcases h.createdBy with hsame | ⟨hnone, -⟩
  · rwa [hsame]
  · exact absurd hnone hne

/-- A main slot, or one that `create_slot` accepts. -/
def Regular (slot : ConversationSlot) : Prop :=
  slot.slotId = "main" ∧ slot.title = "Main" ∨ slot.slotId ≠ "main" ∧ isSlug slot.slotId = true

/-- The main slot of the row is there, with a creator if the row has one. -/
def Served (r : Registry) (group : RegisteredGroup) : Prop :=
  ∃ slot, r.getSlot group.folder "main" = some slot ∧
    (group.createdBy ≠ none → slot.createdBy ≠ none)

/-- From one registry to a later one. -/
structure KeepsSlots (r r' : Registry) : Prop where
  kept : ∀ slot ∈ r.slots.rows, ∃ slot', r'.slots.get? slot.key = some slot' ∧ Continues slot slot'
  added : ∀ slot' ∈ r'.slots.rows, r.slots.get? slot'.key = none → Regular slot'
  /-- Rows that were written since are served. -/
  served : ∀ group' ∈ r'.groups.rows, Served r' group' ∨
    ∃ group ∈ r.groups.rows, group.folder = group'.folder ∧ group.createdBy = group'.createdBy

theorem KeepsSlots.served_mono (h : KeepsSlots r r') {group group' : RegisteredGroup}
    (hserved : Served r group) (hfolder : group.folder = group'.folder)
    (hcreatedBy : group.createdBy = group'.createdBy) : Served r' group' := by
  obtain ⟨slot, hget, hcreated⟩ := hserved
  obtain ⟨slot', hget', hcontinues⟩ := h.kept slot (Table.mem_rows_of_get? hget)
  rw [Table.key_of_get? hget, hfolder] at hget'
  refine ⟨slot', hget', fun hne => hcontinues.createdBy_ne (hcreated ?_)⟩
  rwa [hcreatedBy]

theorem Continues.regular {slot slot' : ConversationSlot} (h : Continues slot slot')
    (hregular : Regular slot) : Regular slot' := by
  have hslotId : slot'.slotId = slot.slotId := congrArg Prod.snd h.key
  unfold Regular
  rwa [hslotId, h.title]

theorem KeepsSlots.refl (r : Registry) : KeepsSlots r r where
  kept slot hslot := ⟨slot, Table.mem_rows.mp hslot, .refl slot⟩
  added slot hslot hnone := absurd ((Table.mem_rows.mp hslot).symm.trans hnone) (by simp)
  served group hgroup := .inr ⟨group, hgroup, rfl, rfl⟩

theorem KeepsSlots.trans (h : KeepsSlots r r') (k : KeepsSlots r' r'') : KeepsSlots r r'' where
  kept slot hslot := by
    obtain ⟨slot', hget', hfirst⟩ := h.kept slot hslot
    obtain ⟨slot'', hget'', hsecond⟩ := k.kept slot' (Table.mem_rows_of_get? hget')
    rw [Table.key_of_get? hget'] at hget''
    exact ⟨slot'', hget'', hfirst.trans hsecond⟩
  added slot'' hslot'' hnone := by
    cases hmiddle : r'.slots.get? slot''.key with
    | none => exact k.added slot'' hslot'' hmiddle
    | some slot' =>
      -- The slot was added by the first part, and has gone on since.
      have hkey : slot'.key = slot''.key := Table.key_of_get? hmiddle
      have hregular := h.added slot' (Table.mem_rows_of_get? hmiddle) (by rwa [hkey])
      obtain ⟨other, hother, hcontinues⟩ := k.kept slot' (Table.mem_rows_of_get? hmiddle)
      rw [hkey, Table.mem_rows.mp hslot''] at hother
      obtain rfl := Option.some.inj hother
      exact hcontinues.regular hregular
  served group'' hgroup'' := by
    rcases k.served group'' hgroup'' with hserved | ⟨group', hgroup', hfolder, hcreatedBy⟩
    · exact .inl hserved
    · rcases h.served group' hgroup' with hserved | ⟨group, hgroup, hfolder', hcreatedBy'⟩
      · exact .inl (k.served_mono hserved hfolder hcreatedBy)
      · exact .inr ⟨group, hgroup, hfolder'.trans hfolder, hcreatedBy'.trans hcreatedBy⟩

theorem keepsSlots_of_eq (hgroups : r'.groups = r.groups) (hslots : r'.slots = r.slots) :
    KeepsSlots r r' := by
  have h := KeepsSlots.refl r
  refine ⟨?_, ?_, ?_⟩
  · rw [hslots]
    exact h.kept
  · rw [hslots]
    exact h.added
  · intro group hgroup
    rw [hgroups] at hgroup
    exact .inr ⟨group, hgroup, rfl, rfl⟩

/-- A slot is put where there was none, or over the one it continues. -/
theorem keepsSlots_putSlot {slot : ConversationSlot}
    (hnew : r.slots.get? slot.key = none → Regular slot)
    (hold : ∀ old, r.slots.get? slot.key = some old → Continues old slot) :
    KeepsSlots r { r with slots := r.slots.put slot } where
  kept old hmem := by
    have hget := Table.mem_rows.mp hmem
    show ∃ slot', (r.slots.put slot).get? old.key = some slot' ∧ _
    rw [Table.get?_put]
    split
    · rename_i hkey
      rw [hkey] at hget
      exact ⟨slot, rfl, hold old hget⟩
    · exact ⟨old, hget, .refl old⟩
  added slot' hmem hnone := by
    rcases Table.mem_rows_put.mp hmem with rfl | ⟨-, hrow⟩
    · exact hnew hnone
    · exact absurd ((Table.mem_rows.mp hrow).symm.trans hnone) (by simp)
  served group hgroup := .inr ⟨group, hgroup, rfl, rfl⟩

/-- A row keeps its folder and its creator. -/
theorem keepsSlots_putGroup {old row : RegisteredGroup} (hold : r.groups.get? row.jid = some old)
    (hfolder : row.folder = old.folder) (hcreatedBy : row.createdBy = old.createdBy) :
    KeepsSlots r { r with groups := r.groups.put row } where
  kept := (KeepsSlots.refl r).kept
  added := (KeepsSlots.refl r).added
  served group hgroup := by
    rcases Table.mem_rows_put.mp hgroup with rfl | ⟨-, hmem⟩
    · exact .inr ⟨old, Table.mem_rows_of_get? hold, hfolder.symm, hcreatedBy.symm⟩
    · exact .inr ⟨group, hmem, rfl, rfl⟩

/-! ## The services -/

theorem keepsSlots_ensureMainSlot (workspaceFolder : String) (createdBy : Option String)
    (r : Registry) : KeepsSlots r (r.ensureMainSlot workspaceFolder createdBy) := by
  unfold ensureMainSlot
  split
  · rename_i existing hexisting
    have hkey : existing.key = (workspaceFolder, "main") := Table.key_of_get? hexisting
    split
    · rename_i hcreated
      have hexisting' : r.slots.get? existing.key = some existing := by
        rw [hkey]
        exact hexisting
      apply keepsSlots_putSlot
      · intro hnone
        exact absurd (hexisting'.symm.trans hnone) (by simp)
      · intro old hold
        obtain rfl := Option.some.inj (hexisting'.symm.trans hold)
        exact ⟨rfl, rfl, rfl, .inr ⟨hcreated.1, congrArg Prod.snd hkey⟩⟩
    · exact .refl r
  · rename_i hnone
    apply keepsSlots_putSlot
    · exact fun _ => .inl ⟨rfl, rfl⟩
    · intro old hold
      exact absurd (hold.symm.trans hnone) (by simp)

/-- The main slot is there afterwards, with a creator if one is named. -/
theorem exists_ensureMainSlot (workspaceFolder : String) (createdBy : Option String)
    (r : Registry) : ∃ slot, (r.ensureMainSlot workspaceFolder createdBy).getSlot workspaceFolder
      "main" = some slot ∧ (createdBy ≠ none → slot.createdBy ≠ none) := by
  unfold ensureMainSlot
  split
  · rename_i existing hexisting
    have hkey : existing.key = (workspaceFolder, "main") := Table.key_of_get? hexisting
    split
    · rename_i hcreated
      refine ⟨{ existing with createdBy }, ?_, fun _ => hcreated.2⟩
      show (r.slots.put _).get? (workspaceFolder, "main") = _
      rw [Table.get?_put]
      exact if_pos hkey.symm
    · rename_i hcreated
      refine ⟨existing, hexisting, fun hne hnone => hcreated ⟨hnone, hne⟩⟩
  · exact ⟨_, Table.get?_put_self _ _, fun hne => hne⟩

/-- A row is put, and its main slot is seen to. -/
theorem keepsSlots_serve (group : RegisteredGroup) (r : Registry) :
    KeepsSlots r (ensureMainSlotForWorkspace group { r with groups := r.groups.put group }) := by
  have hensure := keepsSlots_ensureMainSlot group.folder group.createdBy
    { r with groups := r.groups.put group }
  refine ⟨hensure.kept, hensure.added, fun group' hgroup' => ?_⟩
  rw [ensureMainSlotForWorkspace, (sameGroups_ensureMainSlot _ _ _).groups] at hgroup'
  rcases Table.mem_rows_put.mp hgroup' with rfl | ⟨-, hmem⟩
  · exact .inl (exists_ensureMainSlot _ _ _)
  · exact .inr ⟨group', hmem, rfl, rfl⟩

theorem keepsSlots_ensureRegisteredGroup (jid name folder : String) (createdBy : Option String)
    (isHome : Option Bool) (target : Option (Option String)) (r : Registry) :
    KeepsSlots r (r.ensureRegisteredGroup jid name folder createdBy isHome target).2 := by
  unfold ensureRegisteredGroup
  split
  · exact keepsSlots_serve _ r
  · exact keepsSlots_serve _ r

theorem keepsSlots_getWebWorkspaceByFolder (folder : String) (r : Registry) :
    KeepsSlots r (r.getWebWorkspaceByFolder folder).2 := by
  unfold getWebWorkspaceByFolder
  split
  · exact .refl r
  · exact keepsSlots_ensureMainSlot _ _ _

theorem addMember_slots (groupFolder userId role : String) (addedBy : Option String)
    (r : Registry) : (r.addMember groupFolder userId role addedBy).2.slots = r.slots := by
  unfold addMember
  split
  · rfl
  · split
    · split <;> rfl
    · rfl

theorem removeMember_slots (groupFolder userId : String) (r : Registry) :
    (r.removeMember groupFolder userId).2.slots = r.slots := by
  unfold removeMember
  split
  · rfl
  · split <;> rfl

theorem keepsSlots_createSlot (workspaceFolder slotId title : String) (createdBy : Option String)
    (r : Registry) : KeepsSlots r (r.createSlot workspaceFolder slotId title createdBy).2 := by
  unfold createSlot
  split
  · exact .refl r
  · rename_i hmain
    split
    · exact .refl r
    · rename_i hslug
      split
      · exact .refl r
      · rename_i hnone
        apply keepsSlots_putSlot
        · exact fun _ => .inr ⟨hmain, not_not.mp hslug⟩
        · intro old hold
          exact absurd (hold.symm.trans hnone) (by simp)

theorem keepsSlots_createWorkspace (folder name createdBy : String) (r : Registry) :
    KeepsSlots r (r.createWorkspace folder name createdBy).2 := by
  have hensure := keepsSlots_ensureRegisteredGroup ("web:" ++ folder) name folder (some createdBy)
    (some false) none r
  unfold createWorkspace
  split
  · exact .refl r
  · split
    · exact .refl r
    · have hadd := hensure.trans (keepsSlots_of_eq (addMember_groups folder createdBy "owner"
        (some createdBy) _) (addMember_slots _ _ _ _ _))
      simp only
      split
      · rename_i hresult
        rwa [hresult] at hadd
      · rename_i hresult
        rwa [hresult] at hadd

theorem keepsSlots_renameWorkspace {workspace : RegisteredGroup} (name : String)
    (h : r.groups.get? workspace.jid = some workspace) :
    KeepsSlots r (r.renameWorkspace workspace name).2 := by
  unfold renameWorkspace
  split
  · exact .refl r
  · split
    · exact .refl r
    · exact keepsSlots_putGroup h rfl rfl

theorem keepsSlots_bindImEndpointToWorkspace (workspace : RegisteredGroup) (imJid : String)
    (r : Registry) : KeepsSlots r (r.bindImEndpointToWorkspace workspace imJid).2 := by
  unfold bindImEndpointToWorkspace
  split
  · exact .refl r
  · rename_i endpoint hget
    have hself : r.groups.get? endpoint.jid = some endpoint := by
      rw [Table.key_of_get? hget]
      exact hget
    split
    · exact .refl r
    · split
      · exact .refl r
      · split
        · exact .refl r
        · exact keepsSlots_putGroup hself rfl rfl

theorem keepsSlots_unbindImEndpointFromWorkspace (workspace : RegisteredGroup) (imJid : String)
    (r : Registry) : KeepsSlots r (r.unbindImEndpointFromWorkspace workspace imJid).2 := by
  unfold unbindImEndpointFromWorkspace
  split
  · exact .refl r
  · rename_i endpoint hget
    have hself : r.groups.get? endpoint.jid = some endpoint := by
      rw [Table.key_of_get? hget]
      exact hget
    split
    · exact .refl r
    · split
      · exact .refl r
      · exact keepsSlots_putGroup hself rfl rfl

/-! ## The requests -/

theorem keepsSlots_requireAccessibleWorkspace (user : AuthUser) (groupId : String) (r : Registry) :
    KeepsSlots r (r.requireAccessibleWorkspace user groupId).2 := by
  have hget := keepsSlots_getWebWorkspaceByFolder groupId r
  unfold requireAccessibleWorkspace
  split
  · rename_i hfound
    rwa [hfound] at hget
  · rename_i hfound
    rw [hfound] at hget
    split
    · exact hget
    · exact hget

/-- A route advances the registry if it does from its workspace on. -/
theorem keepsSlots_of_workspace {α : Type} {groupId : String}
    {route : RegisteredGroup → Registry → Except RouteError α × Registry}
    (h : ∀ workspace r', r'.groups.get? workspace.jid = some workspace →
      KeepsSlots r' (route workspace r').2) :
    KeepsSlots r (match r.requireAccessibleWorkspace user groupId with
      | (.error error, r) => ((.error error, r) : Except RouteError α × Registry)
      | (.ok workspace, r) => route workspace r).2 := by
  have hrequire := keepsSlots_requireAccessibleWorkspace user groupId r
  obtain ⟨hsame, hworkspace⟩ := requireAccessibleWorkspace_spec user groupId r
  split
  · rename_i hresult
    rwa [hresult] at hrequire
  · rename_i workspace r' hresult
    rw [hresult] at hrequire hsame hworkspace
    apply hrequire.trans
    apply h
    rw [hsame.groups]
    exact hworkspace workspace rfl

theorem keepsSlots_resolveHttpMessageTarget (user : AuthUser) (groupId slotId : String)
    (r : Registry) : KeepsSlots r (r.resolveHttpMessageTarget user groupId slotId).2 := by
  have hhome : KeepsSlots r (r.ensureHomeWorkspace user).2 :=
    keepsSlots_ensureRegisteredGroup _ _ _ _ _ _ r
  have hget := hhome.trans
    (keepsSlots_getWebWorkspaceByFolder groupId (r.ensureHomeWorkspace user).2)
  unfold resolveHttpMessageTarget
  simp only
  split
  · rename_i hfound
    rw [hfound] at hget
    split
    · exact hget
    · split
      · exact hget
      · exact hget
  · rename_i hfound
    rw [hfound] at hget
    split
    · exact hget
    · exact hget

theorem keepsSlots_sendMessage (user : AuthUser) (request : SendMessageRequest) (runId : String)
    (r : Registry) : KeepsSlots r (r.sendMessage user request runId).2 := by
  have hresolve := keepsSlots_resolveHttpMessageTarget user request.groupId request.slotId r
  unfold sendMessage
  split
  · rename_i hresult
    rwa [hresult] at hresolve
  · rename_i hresult
    rw [hresult] at hresolve
    split
    · exact hresolve
    · split
      · exact hresolve
      · exact hresolve.trans (keepsSlots_ensureRegisteredGroup _ _ _ _ _ _ _)

theorem keepsSlots_receiveMessage (message : InboundMessage) (runId : String) (r : Registry) :
    KeepsSlots r (receiveMessage cfg message runId r).2 := by
  unfold receiveMessage
  split
  · split
    · exact .refl r
    · exact .refl r
  · show KeepsSlots r (r.ensureImEndpoint message.chatJid message.chatJid _).2
    unfold ensureImEndpoint
    split
    · exact keepsSlots_ensureMainSlot _ _ r
    · exact keepsSlots_ensureRegisteredGroup _ _ _ _ _ _ r

theorem keepsSlots_updateGroup (groupId name : String) :
    KeepsSlots r (r.updateGroup user groupId name).2 := by
  unfold updateGroup
  split
  · exact .refl r
  · apply keepsSlots_of_workspace
    intro workspace r' hget
    have hrename := keepsSlots_renameWorkspace name hget
    split
    · exact hrename
    · split
      · exact .refl r'
      · exact hrename

theorem keepsSlots_addGroupMember (groupId userId role : String) :
    KeepsSlots r (addGroupMember cfg user groupId userId role r).2 := by
  unfold addGroupMember
  split
  · exact .refl r
  · apply keepsSlots_of_workspace
    intro workspace r' _
    split
    · exact .refl r'
    · split
      · exact .refl r'
      · split
        · exact .refl r'
        · split
          · exact .refl r'
          · exact keepsSlots_of_eq (addMember_groups _ _ _ _ r') (addMember_slots _ _ _ _ r')

theorem keepsSlots_removeGroupMember (groupId userId : String) :
    KeepsSlots r (r.removeGroupMember user groupId userId).2 := by
  unfold removeGroupMember
  apply keepsSlots_of_workspace
  intro workspace r' _
  have hremove : KeepsSlots r' (finishRemoval (r'.removeMember workspace.folder userId)).2 := by
    rw [finishRemoval_snd]
    exact keepsSlots_of_eq (removeMember_groups _ _ r') (removeMember_slots _ _ r')
  split
  · exact .refl r'
  · split
    · split
      · exact .refl r'
      · split
        · exact .refl r'
        · exact hremove
    · split
      · exact .refl r'
      · exact hremove

/-- **Requests** only add slots, and serve every row that they write. -/
theorem keepsSlots_perform (cfg : AppConfig) (r : Registry) (a : Action) :
    KeepsSlots r (perform cfg r a) := by
  cases a with
  | sendMessage user request runId => exact keepsSlots_sendMessage user request runId r
  | receiveMessage message runId => exact keepsSlots_receiveMessage message runId r
  | createGroup user groupId name =>
    show KeepsSlots r (r.createGroup user groupId name).2
    unfold createGroup
    split
    · exact .refl r
    · exact keepsSlots_createWorkspace groupId name user.id r
  | updateGroup user groupId name => exact keepsSlots_updateGroup groupId name
  | bindGroupImEndpoint user groupId imJid =>
    show KeepsSlots r (r.bindGroupImEndpoint user groupId imJid).2
    unfold bindGroupImEndpoint
    split
    · exact .refl r
    · exact keepsSlots_of_workspace fun workspace r' _ =>
        keepsSlots_bindImEndpointToWorkspace workspace imJid r'
  | unbindGroupImEndpoint user groupId imJid =>
    show KeepsSlots r (r.unbindGroupImEndpoint user groupId imJid).2
    unfold unbindGroupImEndpoint
    split
    · exact .refl r
    · exact keepsSlots_of_workspace fun workspace r' _ =>
        keepsSlots_unbindImEndpointFromWorkspace workspace imJid r'
  | addGroupMember user groupId userId role => exact keepsSlots_addGroupMember groupId userId role
  | removeGroupMember user groupId userId => exact keepsSlots_removeGroupMember groupId userId
  | createGroupSlot user groupId slotId title =>
    exact keepsSlots_of_workspace fun workspace r' _ => keepsSlots_createSlot _ _ _ _ r'
  | listGroups user => exact keepsSlots_ensureRegisteredGroup _ _ _ _ _ _ r
  | setClock now => exact keepsSlots_of_eq rfl rfl

theorem keepsSlots_of_run {l : List Action} (h : Run (step cfg) (fun _ _ => True) r l r') :
    KeepsSlots r r' := by
  refine h.invariant (I := fun u => KeepsSlots r u) (.refl r) fun {t u a} ht _ hstep => ?_
  obtain rfl := Option.some.inj hstep
  exact ht.trans (keepsSlots_perform cfg t a)

/-! ## Registries that requests have made -/

/-- Every row is served, and every slot is one that a service makes. -/
structure Settled (r : Registry) : Prop where
  served : ∀ group ∈ r.groups.rows, Served r group
  regular : ∀ slot ∈ r.slots.rows, Regular slot

theorem Settled.advance (hsettled : Settled r) (h : KeepsSlots r r') : Settled r' where
  served group' hgroup' := by
    rcases h.served group' hgroup' with hserved | ⟨group, hgroup, hfolder, hcreatedBy⟩
    · exact hserved
    · exact h.served_mono (hsettled.served group hgroup) hfolder hcreatedBy
  regular slot' hslot' := by
    cases hold : r.slots.get? slot'.key with
    | none => exact h.added slot' hslot' hold
    | some slot =>
      obtain ⟨other, hother, hcontinues⟩ := h.kept slot (Table.mem_rows_of_get? hold)
      rw [Table.key_of_get? hold, Table.mem_rows.mp hslot'] at hother
      obtain rfl := Option.some.inj hother
      exact hcontinues.regular (hsettled.regular slot (Table.mem_rows_of_get? hold))

theorem settled_empty : Settled {} where
  served group hgroup := absurd (Table.mem_rows.mp hgroup) (by simp)
  regular slot hslot := absurd (Table.mem_rows.mp hslot) (by simp)

/-- The slot that a row needs is there already. -/
theorem Served.ensureMainSlotForWorkspace_eq {group : RegisteredGroup} (h : Served r group) :
    r.ensureMainSlotForWorkspace group = r := by
  obtain ⟨slot, hget, hcreated⟩ := h
  rw [ensureMainSlotForWorkspace, ensureMainSlot, hget]
  show (if slot.createdBy = none ∧ group.createdBy ≠ none then _ else r) = r
  rw [if_neg]
  rintro ⟨hnone, hne⟩
  exact hcreated hne hnone

theorem Settled.getWebWorkspaceByFolder_eq (h : Settled r) (folder : String) :
    r.getWebWorkspaceByFolder folder = (r.webWorkspace folder, r) := by
  unfold getWebWorkspaceByFolder
  split
  · rename_i hnone
    rw [hnone]
  · rename_i workspace hsome
    have hrow := Table.mem_rows_of_get? (webWorkspace_spec hsome).1
    rw [hsome, (h.served workspace hrow).ensureMainSlotForWorkspace_eq]

/-! ## Listings -/

/-- All the slots of a workspace, the main slot first and the others in the order of their ids. -/
structure IsListing (folder : String) (slots : List ConversationSlot) (r : Registry) : Prop where
  mem_iff : ∀ slot, slot ∈ slots ↔ slot ∈ r.slots.rows ∧ slot.workspaceFolder = folder
  main_first : ∃ main others, slots = main :: others ∧ main.slotId = "main" ∧ main.title = "Main" ∧
    others.Pairwise (fun slot slot' => slot.slotId.toList < slot'.slotId.toList) ∧
    ∀ slot ∈ others, slot.slotId ≠ "main" ∧ isSlug slot.slotId = true

theorem nodup_place (folder : String) (r : Registry) :
    ((r.slots.rows.filter fun slot => slot.workspaceFolder = folder).map
      ConversationSlot.place).Nodup := by
  refine List.Nodup.map_on ?_ (r.slots.nodup_rows.filter _)
  intro slot hslot slot' hslot' hplace
  obtain ⟨hrow, hfolder⟩ := List.mem_filter.mp hslot
  obtain ⟨hrow', hfolder'⟩ := List.mem_filter.mp hslot'
  -- In one folder the ids are the keys.
  have hids : slot.slotId = slot'.slotId :=
    String.toList_inj.mp (congrArg (fun place => (ofLex place).2) hplace)
  apply Table.eq_of_key_eq hrow hrow'
  rw [ConversationSlot.key, ConversationSlot.key, hids, of_decide_eq_true hfolder,
    of_decide_eq_true hfolder']

theorem place_lt_iff {slot slot' : ConversationSlot} (h : slot.slotId ≠ "main")
    (h' : slot'.slotId ≠ "main") :
    slot.place < slot'.place ↔ slot.slotId.toList < slot'.slotId.toList := by
  simp [ConversationSlot.place, Prod.Lex.toLex_lt_toLex, h, h']

/-- Nothing comes before the main slot. -/
theorem not_place_lt_main {slot slot' : ConversationSlot} (h' : slot'.slotId = "main") :
    ¬ slot.place < slot'.place := by
  rw [ConversationSlot.place, ConversationSlot.place, Prod.Lex.toLex_lt_toLex]
  by_cases h : slot.slotId = "main"
  · simp [h, h']
  · simp [h, h']

theorem Settled.isListing (hsettled : Settled r) {group : RegisteredGroup}
    (hgroup : group ∈ r.groups.rows) : IsListing group.folder (r.listSlots group.folder) r := by
  have hmem (slot : ConversationSlot) : slot ∈ r.listSlots group.folder ↔
      slot ∈ r.slots.rows ∧ slot.workspaceFolder = group.folder := by
    rw [listSlots, mem_sortedBy, List.mem_filter, decide_eq_true_eq]
  refine ⟨hmem, ?_⟩
  obtain ⟨main, hget, -⟩ := hsettled.served group hgroup
  have hkey : main.key = (group.folder, "main") := Table.key_of_get? hget
  have hmain := (hmem main).mpr ⟨Table.mem_rows_of_get? hget, congrArg Prod.fst hkey⟩
  have hsorted : (r.listSlots group.folder).Pairwise fun a b => a.place < b.place :=
    pairwise_lt_sortedBy (nodup_place group.folder r)
  have hregular : ∀ slot ∈ r.listSlots group.folder, Regular slot := fun slot hslot =>
    hsettled.regular slot ((hmem slot).mp hslot).1
  cases hlist : r.listSlots group.folder with
  | nil =>
    rw [hlist] at hmain
    cases hmain
  | cons first others =>
    rw [hlist] at hmain hsorted hregular
    obtain ⟨hfirst, hothers⟩ := List.pairwise_cons.mp hsorted
    obtain rfl : main = first := by
      rcases List.mem_cons.mp hmain with heq | hlater
      · exact heq
      · exact absurd (hfirst main hlater) (not_place_lt_main (congrArg Prod.snd hkey))
    have hslotId : main.slotId = "main" := congrArg Prod.snd hkey
    -- Only one slot of the folder has the id of the main slot.
    have hne (slot : ConversationSlot) (hslot : slot ∈ others) : slot.slotId ≠ "main" := fun h =>
      absurd (hfirst slot hslot) (not_place_lt_main h)
    refine ⟨main, others, rfl, hslotId, ?_, ?_, ?_⟩
    · rcases hregular main List.mem_cons_self with ⟨-, htitle⟩ | ⟨hnot, -⟩
      · exact htitle
      · exact absurd hslotId hnot
    · exact hothers.imp_of_mem fun ha hb hlt => (place_lt_iff (hne _ ha) (hne _ hb)).mp hlt
    · intro slot hslot
      rcases hregular slot (List.mem_cons_of_mem _ hslot) with ⟨heq, -⟩ | hslug
      · exact absurd heq (hne slot hslot)
      · exact hslug

theorem Settled.listGroupSlots_eq (h : Settled r) {groupId : String} {workspace : RegisteredGroup}
    (hworkspace : r.webWorkspace groupId = some workspace)
    (haccess : r.userCanAccessGroup user workspace = true) :
    r.listGroupSlots user groupId = (.ok (r.listSlots groupId), r) := by
  have hfolder := (webWorkspace_spec hworkspace).2.1
  simp [listGroupSlots, requireAccessibleWorkspace, h.getWebWorkspaceByFolder_eq, hworkspace,
    haccess, hfolder]

/-- **Slots.** In every run, looking a workspace up writes nothing, a user who may access a
workspace is listed all its slots, the main slot first, and what was listed at any time before is
listed still, with the title it had. -/
theorem slots_of_run {l m : List Action} (h : Run (step cfg) (fun _ _ => True) {} l r)
    (k : Run (step cfg) (fun _ _ => True) r m r') :
    (∀ folder, r'.getWebWorkspaceByFolder folder = (r'.webWorkspace folder, r')) ∧
      ∀ user groupId workspace, r'.webWorkspace groupId = some workspace →
        r'.userCanAccessGroup user workspace = true →
          ∃ slots, r'.listGroupSlots user groupId = (.ok slots, r') ∧ IsListing groupId slots r' ∧
            ∀ slot ∈ r.listSlots groupId, ∃ slot' ∈ slots, Continues slot slot' := by
  have hlater := keepsSlots_of_run k
  have hsettled : Settled r' := settled_empty.advance ((keepsSlots_of_run h).trans hlater)
  refine ⟨hsettled.getWebWorkspaceByFolder_eq, fun user groupId workspace hworkspace haccess => ?_⟩
  obtain ⟨hget, hfolder, -⟩ := webWorkspace_spec hworkspace
  have hlisting := hsettled.isListing (Table.mem_rows_of_get? hget)
  rw [hfolder] at hlisting
  refine ⟨_, hsettled.listGroupSlots_eq hworkspace haccess, hlisting, fun slot hslot => ?_⟩
  rw [listSlots, mem_sortedBy, List.mem_filter, decide_eq_true_eq] at hslot
  obtain ⟨slot', hget', hcontinues⟩ := hlater.kept slot hslot.1
  refine ⟨slot', (hlisting.mem_iff slot').mpr ⟨Table.mem_rows_of_get? hget', ?_⟩, hcontinues⟩
  have hfolders : slot'.workspaceFolder = slot.workspaceFolder :=
    congrArg Prod.fst hcontinues.key
  exact hfolders.trans hslot.2

/-- A user has a home, and then a slot in it. -/
def homeOnly : Registry := perform chatConfig {} (.listGroups stranger)

def homeWithNotes : Registry :=
  perform chatConfig homeOnly (.createGroupSlot stranger "home-v" "notes" "Notes")

theorem slots_of_run_homeWithNotes : ∃ slots,
    homeWithNotes.listGroupSlots stranger "home-v" = (.ok slots, homeWithNotes) ∧
      IsListing "home-v" slots homeWithNotes := by
  have hhome : Run (step chatConfig) (fun _ _ => True) {} [.listGroups stranger] homeOnly :=
    .single trivial rfl
  have hnotes : Run (step chatConfig) (fun _ _ => True) homeOnly
      [.createGroupSlot stranger "home-v" "notes" "Notes"] homeWithNotes := .single trivial rfl
  obtain ⟨workspace, hworkspace⟩ : ∃ workspace, homeWithNotes.webWorkspace "home-v" =
      some workspace := Option.isSome_iff_exists.mp (by decide)
  have haccess : (homeWithNotes.webWorkspace "home-v").all
      (homeWithNotes.userCanAccessGroup stranger) = true := by decide
  rw [hworkspace] at haccess
  obtain ⟨slots, hlisted, hlisting, -⟩ :=
    (slots_of_run hhome hnotes).2 stranger "home-v" workspace hworkspace haccess
  exact ⟨slots, hlisted, hlisting⟩

/-! ## The repair -/

/-- What a repair does. -/
structure Repaired (r r' : Registry) : Prop where
  groups : r'.groups = r.groups
  members : r'.members = r.members
  kept : ∀ slot ∈ r.slots.rows, slot ∈ r'.slots.rows
  covered : ∀ group ∈ r.groups.rows, ∃ slot, r'.getSlot group.folder "main" = some slot
  /-- A new slot is a main slot, created by whom the first row of its folder was. -/
  added : ∀ slot ∈ r'.slots.rows, slot ∉ r.slots.rows → slot.slotId = "main" ∧
    slot.title = "Main" ∧ ∃ group ∈ r.groups.rows, group.folder = slot.workspaceFolder ∧
      group.createdBy = slot.createdBy ∧ ∀ other ∈ r.groups.rows,
        other.folder = slot.workspaceFolder → group.repairPlace ≤ other.repairPlace

/-- A slot that is missing is made of the first row of its folder, unless that was seen before. -/
def repairOf (seenFolders : List String) (groups : List RegisteredGroup) (now : ℕ)
    (key : String × String) : Option ConversationSlot :=
  if key.2 = "main" ∧ key.1 ∉ seenFolders then
    (groups.find? fun group => group.folder = key.1).map (repairSlot now)
  else none

theorem repairOf_cons_of_ne {seenFolders : List String} {group : RegisteredGroup}
    {groups : List RegisteredGroup} {now : ℕ} {key : String × String}
    (h : group.folder ≠ key.1) :
    repairOf (group.folder :: seenFolders) groups now key =
      repairOf seenFolders (group :: groups) now key := by
  simp [repairOf, h, h.symm]

theorem repairOf_cons_self (seenFolders : List String) (groups : List RegisteredGroup) (now : ℕ)
    {folder slotId : String} :
    repairOf (folder :: seenFolders) groups now (folder, slotId) = none := by
  simp [repairOf]

/-- **The loop.** It keeps the slots, and makes those that are missing. -/
theorem get?_repairFolders (seenFolders : List String) (groups : List RegisteredGroup)
    (r : Registry) (key : String × String) :
    (repairFolders seenFolders groups r).slots.get? key =
      (r.slots.get? key).or (repairOf seenFolders groups r.now key) := by
  obtain ⟨folder, slotId⟩ := key
  induction groups generalizing seenFolders r with
  | nil => simp [repairFolders, repairOf]
  | cons group groups ih =>
    rw [repairFolders]
    split
    · rename_i hseen
      rw [ih]
      congr 1
      by_cases hfolder : group.folder = folder
      · simp [repairOf, ← hfolder, hseen]
      · simp [repairOf, hfolder]
    · rename_i hnew
      by_cases hfolder : group.folder = folder
      · -- The folder is looked at here, and not again.
        subst hfolder
        split
        · rename_i slot hslot
          rw [ih, repairOf_cons_self]
          by_cases hmain : slotId = "main"
          · subst hmain
            have hget : r.slots.get? (group.folder, "main") = some slot := hslot
            rw [hget]
            rfl
          · simp [repairOf, hmain]
        · rename_i hnone
          rw [ih, repairOf_cons_self, Option.or_none]
          by_cases hmain : slotId = "main"
          · subst hmain
            have hget : r.slots.get? (group.folder, "main") = none := hnone
            rw [hget, Option.none_or]
            simp [repairOf, hnew, repairSlot, ConversationSlot.key]
          · simp [repairOf, hmain, repairSlot, ConversationSlot.key]
      · split
        · rw [ih, repairOf_cons_of_ne hfolder]
        · have hne : (folder, slotId) ≠ (repairSlot r.now group).key := fun heq =>
            hfolder (congrArg Prod.fst heq).symm
          rw [ih, repairOf_cons_of_ne hfolder, Table.get?_put_of_ne hne]

theorem sameGroups_repairFolders (seenFolders : List String) (groups : List RegisteredGroup)
    (r : Registry) : SameGroups r (repairFolders seenFolders groups r) := by
  induction groups generalizing seenFolders r with
  | nil => exact .refl r
  | cons group groups ih =>
    rw [repairFolders]
    split
    · exact ih _ r
    · split
      · exact ih _ r
      · have hput : SameGroups r { r with slots := r.slots.put (repairSlot r.now group) } :=
          ⟨rfl, rfl, rfl⟩
        exact hput.trans (ih _ _)

/-- Nothing is missing. -/
theorem repairFolders_eq_self (seenFolders : List String) {groups : List RegisteredGroup}
    (h : ∀ group ∈ groups, ∃ slot, r.getSlot group.folder "main" = some slot) :
    repairFolders seenFolders groups r = r := by
  induction groups generalizing seenFolders with
  | nil => rfl
  | cons group groups ih =>
    have hrest (seenFolders : List String) := ih seenFolders fun group hgroup =>
      h group (List.mem_cons_of_mem _ hgroup)
    obtain ⟨slot, hslot⟩ := h group List.mem_cons_self
    rw [repairFolders, hslot]
    split
    · exact hrest _
    · exact hrest _

theorem repaired (r : Registry) : Repaired r r.repairMainConversationSlots := by
  have hsame := sameGroups_repairFolders [] (sortedBy RegisteredGroup.repairPlace r.groups.rows) r
  have hget := get?_repairFolders [] (sortedBy RegisteredGroup.repairPlace r.groups.rows) r
  refine ⟨hsame.groups, hsame.members, ?_, ?_, ?_⟩
  · intro slot hslot
    rw [Table.mem_rows] at hslot ⊢
    rw [repairMainConversationSlots, hget, hslot, Option.some_or]
  · intro group hgroup
    have hfound : ((sortedBy RegisteredGroup.repairPlace r.groups.rows).find? fun other =>
        other.folder = group.folder).isSome := by
      rw [List.find?_isSome]
      exact ⟨group, mem_sortedBy.mpr hgroup, by simp⟩
    obtain ⟨first, hfirst⟩ := Option.isSome_iff_exists.mp hfound
    rw [← Option.isSome_iff_exists, getSlot, repairMainConversationSlots, hget]
    simp [repairOf, hfirst]
  · intro slot hslot hnew
    rw [Table.mem_rows, repairMainConversationSlots, hget] at hslot
    cases hold : r.slots.get? slot.key with
    | some old =>
      rw [hold, Option.some_or] at hslot
      obtain rfl := Option.some.inj hslot
      exact absurd (Table.mem_rows_of_get? hold) hnew
    | none =>
      rw [hold, Option.none_or, repairOf] at hslot
      split at hslot
      · obtain ⟨first, hfirst, rfl⟩ := Option.map_eq_some_iff.mp hslot
        obtain ⟨hmem, hfolder, hleast⟩ := find?_sortedBy hfirst
        refine ⟨rfl, rfl, first, hmem, rfl, rfl, fun other hother hsameFolder => ?_⟩
        exact hleast other hother (decide_eq_true hsameFolder)
      · cases hslot

/-- **A repaired database.** Whatever rows an older database has, the repair keeps its slots and
makes the missing main slots. From then on every row has its main slot in every run, so that a
later repair writes nothing, and the slots there were go on. -/
theorem mainSlots_of_repair {l : List Action}
    (h : Run (step cfg) (fun _ _ => True) r.repairMainConversationSlots l r') :
    Repaired r r.repairMainConversationSlots ∧
      (∀ group ∈ r'.groups.rows, ∃ slot, r'.getSlot group.folder "main" = some slot) ∧
      r'.repairMainConversationSlots = r' ∧
      ∀ slot ∈ r.slots.rows,
        ∃ slot', r'.slots.get? slot.key = some slot' ∧ Continues slot slot' := by
  have hrepaired := repaired r
  have hlater := keepsSlots_of_run h
  have hcovered : ∀ group ∈ r'.groups.rows, ∃ slot, r'.getSlot group.folder "main" = some slot := by
    intro group' hgroup'
    rcases hlater.served group' hgroup' with ⟨slot, hget, -⟩ | ⟨group, hgroup, hfolder, -⟩
    · exact ⟨slot, hget⟩
    · rw [hrepaired.groups] at hgroup
      obtain ⟨slot, hget⟩ := hrepaired.covered group hgroup
      obtain ⟨slot', hget', -⟩ := hlater.kept slot (Table.mem_rows_of_get? hget)
      rw [Table.key_of_get? hget, hfolder] at hget'
      exact ⟨slot', hget'⟩
  refine ⟨hrepaired, hcovered, ?_, fun slot hslot => hlater.kept slot (hrepaired.kept slot hslot)⟩
  exact repairFolders_eq_self [] fun group hgroup => hcovered group (mem_sortedBy.mp hgroup)

/-- An older database: two rows of one folder, which has a slot, but no main one. -/
def unslotted : Registry :=
  { groups := Table.put (Table.put ∅
      { jid := "telegram:7", name := "chat", folder := "team", addedAt := 1,
        createdBy := some "9" })
      { jid := "WEB:team", name := "Team", folder := "team", addedAt := 2,
        createdBy := some "u" }
    slots := Table.put ∅
      { workspaceFolder := "team", slotId := "notes", title := "Notes", createdBy := some "9"
        createdAt := 3 } }

/-- A user lists the groups, the chat writes, and a workspace is made and gets a slot. -/
def laterRequests : List Action :=
  [.listGroups stranger, .receiveMessage chatMessage "run₁", .createGroup creator "drafts" "Drafts",
    .createGroupSlot creator "drafts" "plan" "Plan"]

theorem mainSlots_of_repair_unslotted : ∃ r',
    Run (step chatConfig) (fun _ _ => True) unslotted.repairMainConversationSlots laterRequests r' ∧
      r'.slots.rows.map ConversationSlot.key = [("team", "notes"), ("team", "main"),
        ("home-v", "main"), ("drafts", "main"), ("drafts", "plan")] ∧
      (r'.getSlot "team" "main").map ConversationSlot.createdBy = some (some "u") ∧
      r'.repairMainConversationSlots = r' ∧
      ∃ slot, r'.getSlot "team" "notes" = some slot ∧ slot.title = "Notes" := by
  have hrun : Run (step chatConfig) (fun _ _ => True) unslotted.repairMainConversationSlots
      laterRequests _ := .of_execute (by decide +kernel)
  obtain ⟨-, -, hrepair, hkept⟩ := mainSlots_of_repair hrun
  obtain ⟨slot, hget, hcontinues⟩ := hkept
    { workspaceFolder := "team", slotId := "notes", title := "Notes", createdBy := some "9"
      createdAt := 3 } (by decide +kernel)
  exact ⟨_, hrun, by decide +kernel, by decide +kernel, hrepair, slot, hget, hcontinues.title⟩

end Registry

end Portex
