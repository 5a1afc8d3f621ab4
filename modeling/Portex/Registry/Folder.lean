import Portex.Registry.Access

/-!
# The folder of a chat

Memory, files and sessions are keyed by the folder of a row. The webhooks of the IM channels leave
the row of a known chat as it is. The upsert behind `POST /messages` and `POST /groups` writes the
folder it is given over the folder of the row.

## Main definitions

* `FolderKept`: the rows there are keep their folders
* `FolderSafe`: a request upserts no row under another folder

## Main results

* `folderKept_iff`: the requests that keep every folder
* `foldersKept_iff_safe`: the histories in which folders are fixed
* `exists_moved_chat`: a message by HTTP moves an IM chat to another folder
-/

namespace Portex

open Foundation

namespace Registry

variable {r r' r'' : Registry} {user : AuthUser} {request : SendMessageRequest}

/-- The rows of `r` are in `r'`, with the folders they have. -/
def FolderKept (r r' : Registry) : Prop :=
  ∀ group ∈ r.groups.rows, ∃ group', r'.groups.get? group.jid = some group' ∧
    group'.folder = group.folder

theorem FolderKept.refl (r : Registry) : FolderKept r r := fun group hgroup =>
  ⟨group, Table.mem_rows.mp hgroup, rfl⟩

theorem FolderKept.trans (h : FolderKept r r') (k : FolderKept r' r'') : FolderKept r r'' := by
  intro group hgroup
  obtain ⟨group', hget', hfolder'⟩ := h group hgroup
  obtain ⟨group'', hget'', hfolder''⟩ := k group' (Table.mem_rows_of_get? hget')
  rw [Table.key_of_get? hget'] at hget''
  exact ⟨group'', hget'', hfolder''.trans hfolder'⟩

/-- What folder a jid has stays. -/
theorem FolderKept.folder (h : FolderKept r r') {jid folder : String}
    (hfolder : (r.groups.get? jid).map RegisteredGroup.folder = some folder) :
    (r'.groups.get? jid).map RegisteredGroup.folder = some folder := by
  obtain ⟨group, hget, rfl⟩ := Option.map_eq_some_iff.mp hfolder
  obtain ⟨group', hget', hsame⟩ := h group (Table.mem_rows_of_get? hget)
  rw [Table.key_of_get? hget] at hget'
  rw [hget', Option.map_some, hsame]

theorem folderKept_of_groups (h : r'.groups = r.groups) : FolderKept r r' := by
  intro group hgroup
  exact ⟨group, by rw [h]; exact Table.mem_rows.mp hgroup, rfl⟩

/-- A put keeps the folders just if the row that it replaces has the folder. -/
theorem folderKept_put_iff {row : RegisteredGroup} (h : r'.groups = r.groups.put row) :
    FolderKept r r' ↔ ∀ old ∈ r.groups.get? row.jid, old.folder = row.folder := by
  unfold FolderKept
  simp only [h, Table.get?_put]
  constructor
  · intro hkept old hold
    obtain ⟨new, hget, hfolder⟩ := hkept old (Table.mem_rows_of_get? hold)
    rw [if_pos (Table.key_of_get? hold)] at hget
    obtain rfl := Option.some.inj hget
    exact hfolder.symm
  · intro hold group hgroup
    have hget := Table.mem_rows.mp hgroup
    split
    · rename_i hjid
      rw [hjid] at hget
      exact ⟨row, rfl, (hold group hget).symm⟩
    · exact ⟨group, hget, rfl⟩

/-! ## The requests that keep the folders -/

/-- The message names no web workspace, once there is the home of its user, and is accepted: its
group id becomes the jid and the folder of a row. -/
def RegistersId (user : AuthUser) (request : SendMessageRequest) (r : Registry) : Prop :=
  isBlank request.content = false ∧ request.slotId = "main" ∧ request.groupId ≠ "" ∧
    request.groupId ≠ homeFolder user ∧
    ∀ group ∈ r.groups.rows, group.folder = request.groupId →
      startsWith group.jid "web:" = true → group.jid = homeJid user

/-- The home row of the user, if any, has the folder of a home. -/
def HomeInPlace (user : AuthUser) (r : Registry) : Prop :=
  ∀ home ∈ r.groups.get? (homeJid user), home.folder = homeFolder user

/-- A message that registers its id leaves the row with that jid in its folder. -/
def IdInPlace (user : AuthUser) (request : SendMessageRequest) (r : Registry) : Prop :=
  (∀ old ∈ r.groups.get? request.groupId, old.folder = request.groupId) ∧
    (request.groupId ≠ homeJid user → HomeInPlace user r)

/-- A creation finds no row with the jid of the workspace. -/
def JidFree (user : AuthUser) (folder : String) (r : Registry) : Prop :=
  "write" ∈ groupPermissions user.role → validateWorkspaceFolder folder = .ok () →
    (∀ group ∈ r.groups.rows, group.folder ≠ folder) → r.groups.get? ("web:" ++ folder) = none

/-- The request upserts no row under another folder than it has. -/
def FolderSafe (r : Registry) : Action → Prop
  | .sendMessage user request _ =>
    (RegistersId user request r → IdInPlace user request r) ∧
      (¬ RegistersId user request r → HomeInPlace user r)
  | .createGroup user folder _ => JidFree user folder r
  | .listGroups user => HomeInPlace user r
  | _ => True

instance (user : AuthUser) (r : Registry) : Decidable (HomeInPlace user r) :=
  inferInstanceAs (Decidable (∀ home ∈ r.groups.get? (homeJid user), _))

instance (user : AuthUser) (request : SendMessageRequest) (r : Registry) :
    Decidable (RegistersId user request r) :=
  inferInstanceAs (Decidable (_ ∧ _ ∧ _ ∧ _ ∧ ∀ group ∈ r.groups.rows, _))

instance (user : AuthUser) (request : SendMessageRequest) (r : Registry) :
    Decidable (IdInPlace user request r) :=
  inferInstanceAs (Decidable ((∀ old ∈ r.groups.get? request.groupId, _) ∧ (_ → _)))

instance (user : AuthUser) (folder : String) (r : Registry) : Decidable (JidFree user folder r) :=
  inferInstanceAs (Decidable (_ → _ → (∀ group ∈ r.groups.rows, _) → _))

instance (r : Registry) : DecidablePred (FolderSafe r)
  | .sendMessage user request _ =>
    inferInstanceAs (Decidable ((RegistersId user request r → IdInPlace user request r) ∧
      (¬ RegistersId user request r → HomeInPlace user r)))
  | .createGroup user folder _ => inferInstanceAs (Decidable (JidFree user folder r))
  | .listGroups user => inferInstanceAs (Decidable (HomeInPlace user r))
  | .receiveMessage .. | .updateGroup .. | .bindGroupImEndpoint .. | .unbindGroupImEndpoint ..
  | .addGroupMember .. | .removeGroupMember .. | .createGroupSlot .. | .setClock .. =>
    .isTrue trivial

theorem folderKept_home_iff : FolderKept r (r.ensureHomeWorkspace user).2 ↔ HomeInPlace user r := by
  obtain ⟨hjid, -, hfolder⟩ := ensureHomeWorkspace_row user r
  rw [folderKept_put_iff (ensureHomeWorkspace_groups user r).groups, hjid, hfolder]
  exact Iff.rfl

/-! ## Messages by HTTP -/

/-- After the home row was seen to, no web row has the folder `g`, just if `g` is not the folder
of the home, and only the home row had it. -/
theorem webWorkspace_home_eq_none {g : String} :
    (r.ensureHomeWorkspace user).2.webWorkspace g = none ↔ g ≠ homeFolder user ∧
      ∀ group ∈ r.groups.rows, group.folder = g → startsWith group.jid "web:" = true →
        group.jid = homeJid user := by
  obtain ⟨hjid, -, hfolder⟩ := ensureHomeWorkspace_row user r
  have hhome : startsWith (r.ensureHomeWorkspace user).1.jid "web:" = true := by
    rw [hjid]
    exact homeJid_web user
  rw [webWorkspace_eq_none]
  simp only [mem_rows_home]
  constructor
  · intro hnone
    constructor
    · intro hg
      have hfalse := hnone _ (Or.inl rfl) (hfolder.trans hg.symm)
      rw [hhome] at hfalse
      cases hfalse
    · intro group hgroup hgroupFolder hweb
      by_contra hne
      have hfalse := hnone group (Or.inr ⟨hne, hgroup⟩) hgroupFolder
      rw [hweb] at hfalse
      cases hfalse
  · rintro ⟨hg, hall⟩ group (rfl | ⟨hne, hgroup⟩) hgroupFolder
    · exact absurd (hgroupFolder.symm.trans hfolder) hg
    · by_contra hweb
      exact hne (hall group hgroup hgroupFolder (by simpa using hweb))

theorem registersId_iff : RegistersId user request r ↔
    Accepted user request (r.ensureHomeWorkspace user).2 ∧
      (r.ensureHomeWorkspace user).2.webWorkspace request.groupId = none := by
  rw [RegistersId, ← webWorkspace_home_eq_none]
  constructor
  · rintro ⟨hblank, hslot, hgroupId, hnone⟩
    exact ⟨by simp [Accepted, hnone, hblank, hslot, hgroupId], hnone⟩
  · rintro ⟨haccepted, hnone⟩
    rw [Accepted, hnone] at haccepted
    exact ⟨haccepted.1, haccepted.2.1, haccepted.2.2, hnone⟩

/-- A message to a web workspace puts the row of the workspace, in its folder. -/
theorem folderKept_target_of_web {row : RegisteredGroup}
    (hweb : r.webWorkspace request.groupId ≠ none) (hjid : row.jid = chatJidOf request r)
    (hfolder : row.folder = request.groupId) (h : r'.groups = r.groups.put row) :
    FolderKept r r' := by
  obtain ⟨workspace, hworkspace⟩ := Option.ne_none_iff_exists'.mp hweb
  obtain ⟨hget, hfolder', -⟩ := webWorkspace_spec hworkspace
  rw [folderKept_put_iff h, hjid, chatJidOf, hworkspace]
  intro old hold
  obtain rfl := Option.some.inj (hget.symm.trans hold)
  exact hfolder'.trans hfolder.symm

/-- The rows where the home row and a row under the id itself are put. -/
theorem folderKept_id_iff {row : RegisteredGroup} (hjid : row.jid = request.groupId)
    (hfolder : row.folder = request.groupId)
    (h : r'.groups = (r.ensureHomeWorkspace user).2.groups.put row) :
    FolderKept r r' ↔ IdInPlace user request r := by
  obtain ⟨hhomeJid, -, hhomeFolder⟩ := ensureHomeWorkspace_row user r
  have hget : ∀ jid, r'.groups.get? jid = if jid = request.groupId then some row else
      if jid = homeJid user then some (r.ensureHomeWorkspace user).1 else r.groups.get? jid := by
    intro jid
    rw [h, (ensureHomeWorkspace_groups user r).groups]
    simp [hjid, hhomeJid]
  constructor
  · intro hkept
    constructor
    · intro old hold
      obtain ⟨new, hnew, hsame⟩ := hkept old (Table.mem_rows_of_get? hold)
      rw [hget, if_pos (Table.key_of_get? hold)] at hnew
      obtain rfl := Option.some.inj hnew
      exact hsame.symm.trans hfolder
    · intro hne home hhome
      obtain ⟨new, hnew, hsame⟩ := hkept home (Table.mem_rows_of_get? hhome)
      have hkey : home.jid = homeJid user := Table.key_of_get? hhome
      rw [hget, hkey, if_neg (Ne.symm hne), if_pos rfl] at hnew
      obtain rfl := Option.some.inj hnew
      exact hsame.symm.trans hhomeFolder
  · rintro ⟨hid, hhome⟩ group hgroup
    have hold := Table.mem_rows.mp hgroup
    rw [hget]
    split
    · rename_i heq
      rw [heq] at hold
      exact ⟨row, rfl, hfolder.trans (hid group hold).symm⟩
    · rename_i hne
      split
      · rename_i heq
        rw [heq] at hne hold
        exact ⟨_, rfl, hhomeFolder.trans (hhome (Ne.symm hne) group hold).symm⟩
      · exact ⟨group, hold, rfl⟩

theorem folderKept_sendMessage_iff (runId : String) :
    FolderKept r (r.sendMessage user request runId).2 ↔
      (RegistersId user request r → IdInPlace user request r) ∧
        (¬ RegistersId user request r → HomeInPlace user r) := by
  rcases sendMessage_spec user request runId r with
    ⟨hacc, submitted, row, -, -, hjid, -, hfolder, hsame⟩ | ⟨hacc, -, hsame⟩
  · by_cases hweb : (r.ensureHomeWorkspace user).2.webWorkspace request.groupId = none
    · have hregisters : RegistersId user request r := registersId_iff.mpr ⟨hacc, hweb⟩
      rw [chatJidOf, hweb] at hjid
      rw [folderKept_id_iff hjid hfolder hsame.groups]
      simp [hregisters]
    · have hregisters : ¬ RegistersId user request r := fun h => hweb (registersId_iff.mp h).2
      have htarget := folderKept_target_of_web hweb hjid hfolder hsame.groups
      simp only [hregisters, false_imp_iff, not_false_eq_true, true_imp_iff, true_and]
      rw [← folderKept_home_iff]
      refine ⟨fun hkept group hgroup => ?_, fun h => h.trans htarget⟩
      -- The row of the workspace is put after the home row, in the folder it has then.
      obtain ⟨group', hget', hfolder'⟩ := hkept group hgroup
      obtain ⟨middle, hmiddle⟩ : ∃ middle,
          (r.ensureHomeWorkspace user).2.groups.get? group.jid = some middle := by
        rw [(ensureHomeWorkspace_groups user r).groups, Table.get?_put]
        split
        · exact ⟨_, rfl⟩
        · exact ⟨group, Table.mem_rows.mp hgroup⟩
      obtain ⟨last, hlast, hsameFolder⟩ := htarget middle (Table.mem_rows_of_get? hmiddle)
      have hkey : middle.jid = group.jid := Table.key_of_get? hmiddle
      rw [hkey] at hlast
      obtain rfl := Option.some.inj (hlast.symm.trans hget')
      exact ⟨middle, hmiddle, hsameFolder.symm.trans hfolder'⟩
  · have hregisters : ¬ RegistersId user request r := fun h => hacc (registersId_iff.mp h).1
    simp only [hregisters, false_imp_iff, not_false_eq_true, true_imp_iff, true_and]
    rw [← folderKept_home_iff]
    unfold FolderKept
    rw [hsame.groups]

/-! ## The other requests -/

variable {cfg : AppConfig}

theorem folderKept_put_of_get? {row : RegisteredGroup} {jid : String} {old : RegisteredGroup}
    (h : r'.groups = r.groups.put row) (hold : r.groups.get? jid = some old)
    (hjid : row.jid = jid) (hfolder : row.folder = old.folder) : FolderKept r r' := by
  rw [folderKept_put_iff h, hjid, hold]
  intro other hother
  obtain rfl := Option.some.inj hother
  exact hfolder.symm

theorem getGroupByFolder_eq_none {folder : String} :
    r.getGroupByFolder folder = none ↔ ∀ group ∈ r.groups.rows, group.folder ≠ folder := by
  rw [getGroupByFolder, earliest_eq_none, List.filter_eq_nil_iff]
  simp

/-- A creation puts one row, if the folder is valid and free. -/
theorem createWorkspace_groups (folder name createdBy : String) (r : Registry) :
    if validateWorkspaceFolder folder = .ok () ∧ ∀ group ∈ r.groups.rows, group.folder ≠ folder then
      (r.createWorkspace folder name createdBy).2.groups =
        r.groups.put (r.ensureRegisteredGroup ("web:" ++ folder) name folder (some createdBy)
          (some false) none).1
    else (r.createWorkspace folder name createdBy).2 = r := by
  unfold createWorkspace
  cases hvalid : validateWorkspaceFolder folder with
  | error error => simp
  | ok =>
    cases hfree : r.getGroupByFolder folder with
    | some group =>
      have htaken : ¬ ∀ group ∈ r.groups.rows, group.folder ≠ folder := fun h => by
        rw [getGroupByFolder_eq_none.mpr h] at hfree
        cases hfree
      rw [if_neg fun h => htaken h.2]
    | none =>
      rw [if_pos ⟨rfl, getGroupByFolder_eq_none.mp hfree⟩]
      have hgroups := (ensureRegisteredGroup_groups ("web:" ++ folder) name folder (some createdBy)
        (some false) none r).groups
      have hmember := addMember_groups folder createdBy "owner" (some createdBy)
        (r.ensureRegisteredGroup ("web:" ++ folder) name folder (some createdBy) (some false)
          none).2
      revert hmember
      simp only
      generalize hadded : addMember folder createdBy "owner" (some createdBy) _ = added
      intro hmember
      obtain ⟨result, r₁⟩ := added
      cases result with
      | error error => exact hmember.trans hgroups
      | ok member => exact hmember.trans hgroups

theorem folderKept_createGroup_iff {folder name : String} :
    FolderKept r (r.createGroup user folder name).2 ↔ JidFree user folder r := by
  unfold createGroup requirePermission JidFree
  by_cases hwrite : "write" ∈ groupPermissions user.role
  · simp only [hwrite, if_true, true_imp_iff]
    show FolderKept r (r.createWorkspace folder name user.id).2 ↔ _
    have hgroups := createWorkspace_groups folder name user.id r
    split at hgroups
    · rename_i hcreates
      obtain ⟨hjid, -, hfolder⟩ := ensureRegisteredGroup_row ("web:" ++ folder) name folder
        (some user.id) (some false) none r
      rw [folderKept_put_iff hgroups, hjid, hfolder]
      simp only [hcreates.1, true_imp_iff]
      rw [imp_iff_right hcreates.2, Option.eq_none_iff_forall_ne_some]
      refine forall_congr' fun old => ⟨fun h hold => ?_, fun h hold => absurd hold (h)⟩
      exact hcreates.2 old (Table.mem_rows_of_get? hold) (h hold)
    · rename_i hrefuses
      rw [hgroups]
      exact iff_of_true (.refl r) fun hvalid hfree => absurd ⟨hvalid, hfree⟩ hrefuses
  · simp [hwrite, FolderKept.refl]

theorem requireAccessibleWorkspace_spec (user : AuthUser) (groupId : String) (r : Registry) :
    SameGroups r (r.requireAccessibleWorkspace user groupId).2 ∧
      ∀ workspace, (r.requireAccessibleWorkspace user groupId).1 = .ok workspace →
        r.groups.get? workspace.jid = some workspace := by
  obtain ⟨hfst, hsame⟩ := getWebWorkspaceByFolder_spec groupId r
  unfold requireAccessibleWorkspace
  revert hfst hsame
  generalize r.getWebWorkspaceByFolder groupId = found
  obtain ⟨result, r₁⟩ := found
  intro hfst hsame
  cases result with
  | none => exact ⟨hsame, fun workspace h => by cases h⟩
  | some workspace =>
    have hget := (webWorkspace_spec hfst.symm).1
    simp only
    split
    · exact ⟨hsame, fun workspace' h => by cases h⟩
    · refine ⟨hsame, fun workspace' h => ?_⟩
      obtain rfl := Except.ok.inj h
      exact hget

/-- What a route does with its workspace, from any registry with the same groups. -/
theorem of_workspace {α : Type} {groupId : String} {P : Except RouteError α × Registry → Prop}
    {route : RegisteredGroup → Registry → Except RouteError α × Registry}
    (herror : ∀ error r', SameGroups r r' → P (.error error, r'))
    (hroute : ∀ workspace r', SameGroups r r' → r'.groups.get? workspace.jid = some workspace →
      P (route workspace r')) :
    P (match r.requireAccessibleWorkspace user groupId with
      | (.error error, r) => ((.error error, r) : Except RouteError α × Registry)
      | (.ok workspace, r) => route workspace r) := by
  obtain ⟨hsame, hworkspace⟩ := requireAccessibleWorkspace_spec user groupId r
  revert hsame hworkspace
  generalize r.requireAccessibleWorkspace user groupId = required
  obtain ⟨result, r₁⟩ := required
  intro hsame hworkspace
  cases result with
  | error error => exact herror error r₁ hsame
  | ok workspace =>
    refine hroute workspace r₁ hsame ?_
    rw [hsame.groups]
    exact hworkspace workspace rfl

theorem folderKept_renameWorkspace {workspace : RegisteredGroup} (name : String)
    (h : r.groups.get? workspace.jid = some workspace) :
    FolderKept r (r.renameWorkspace workspace name).2 := by
  unfold renameWorkspace
  split
  · exact .refl r
  · split
    · exact .refl r
    · exact folderKept_put_of_get? rfl h rfl rfl

theorem folderKept_updateGroup (groupId name : String) :
    FolderKept r (r.updateGroup user groupId name).2 := by
  unfold updateGroup
  split
  · exact .refl r
  · refine of_workspace (P := fun result => FolderKept r result.2) ?_ ?_
    · exact fun error r' hsame => folderKept_of_groups hsame.groups
    · intro workspace r' hsame hget
      refine (folderKept_of_groups hsame.groups).trans ?_
      have hrename := folderKept_renameWorkspace name hget
      split
      · exact hrename
      · split
        · exact .refl r'
        · exact hrename

/-! ### Requests that write no name and no folder -/

/-- The rows are the same, but for one that keeps its name and its folder. -/
def Retargets (r r' : Registry) : Prop :=
  r'.groups = r.groups ∨ ∃ old row, r.groups.get? row.jid = some old ∧ row.name = old.name ∧
    row.folder = old.folder ∧ r'.groups = r.groups.put row

theorem Retargets.after (h : Retargets r' r'') (hgroups : r'.groups = r.groups) :
    Retargets r r'' := by
  unfold Retargets at h ⊢
  rwa [hgroups] at h

theorem folderKept_of_retargets (h : Retargets r r') : FolderKept r r' := by
  rcases h with hgroups | ⟨old, row, hold, -, hfolder, hput⟩
  · exact folderKept_of_groups hgroups
  · exact folderKept_put_of_get? hput hold rfl hfolder

theorem retargets_of_workspace {α : Type} {groupId : String}
    {route : RegisteredGroup → Registry → Except RouteError α × Registry}
    (h : ∀ workspace r, Retargets r (route workspace r).2) :
    Retargets r (match r.requireAccessibleWorkspace user groupId with
      | (.error error, r) => ((.error error, r) : Except RouteError α × Registry)
      | (.ok workspace, r) => route workspace r).2 :=
  of_workspace (P := fun result => Retargets r result.2) (fun _ _ hsame => .inl hsame.groups)
    fun workspace r' hsame _ => (h workspace r').after hsame.groups

theorem retargets_bindImEndpointToWorkspace (workspace : RegisteredGroup) (imJid : String) :
    Retargets r (r.bindImEndpointToWorkspace workspace imJid).2 := by
  unfold bindImEndpointToWorkspace
  split
  · exact .inl rfl
  · rename_i endpoint hget
    have hjid : endpoint.jid = imJid := Table.key_of_get? hget
    split
    · exact .inl rfl
    · split
      · exact .inl rfl
      · split
        · exact .inl rfl
        · exact .inr ⟨endpoint, { endpoint with targetWorkspaceJid := some workspace.jid },
            hjid ▸ hget, rfl, rfl, rfl⟩

theorem retargets_unbindImEndpointFromWorkspace (workspace : RegisteredGroup) (imJid : String) :
    Retargets r (r.unbindImEndpointFromWorkspace workspace imJid).2 := by
  unfold unbindImEndpointFromWorkspace
  split
  · exact .inl rfl
  · rename_i endpoint hget
    have hjid : endpoint.jid = imJid := Table.key_of_get? hget
    split
    · exact .inl rfl
    · split
      · exact .inl rfl
      · exact .inr ⟨endpoint, { endpoint with targetWorkspaceJid := none }, hjid ▸ hget, rfl, rfl,
          rfl⟩

theorem removeMember_groups (groupFolder userId : String) (r : Registry) :
    (r.removeMember groupFolder userId).2.groups = r.groups := by
  unfold removeMember
  split
  · rfl
  · split <;> rfl

theorem finishRemoval_snd (result : Except RegistryError Bool × Registry) :
    (finishRemoval result).2 = result.2 := by
  obtain ⟨result, r⟩ := result
  cases result with
  | error error => rfl
  | ok removed => cases removed <;> rfl

theorem retargets_addGroupMember (groupId userId role : String) :
    Retargets r (addGroupMember cfg user groupId userId role r).2 := by
  unfold addGroupMember
  split
  · exact .inl rfl
  · refine retargets_of_workspace fun workspace r => .inl ?_
    split
    · rfl
    · split
      · rfl
      · split
        · rfl
        · split
          · rfl
          · exact addMember_groups _ _ _ _ r

theorem retargets_removeGroupMember (groupId userId : String) :
    Retargets r (r.removeGroupMember user groupId userId).2 := by
  unfold removeGroupMember
  refine retargets_of_workspace fun workspace r => .inl ?_
  have hremove : (finishRemoval (r.removeMember workspace.folder userId)).2.groups = r.groups := by
    rw [finishRemoval_snd, removeMember_groups]
  split
  · rfl
  · split
    · split
      · rfl
      · split
        · rfl
        · exact hremove
    · split
      · rfl
      · exact hremove

theorem createSlot_groups (workspaceFolder slotId title : String) (createdBy : Option String)
    (r : Registry) : (r.createSlot workspaceFolder slotId title createdBy).2.groups = r.groups := by
  unfold createSlot
  split
  · rfl
  · split
    · rfl
    · split <;> rfl

/-- The request is one of those that write no name and no folder. -/
def KeepsRows : Action → Prop
  | .bindGroupImEndpoint _ _ _ | .unbindGroupImEndpoint _ _ _ | .addGroupMember _ _ _ _
  | .removeGroupMember _ _ _ | .createGroupSlot _ _ _ _ | .setClock _ => True
  | _ => False

theorem retargets_perform {a : Action} (ha : KeepsRows a) : Retargets r (perform cfg r a) := by
  cases a with
  | bindGroupImEndpoint user groupId imJid =>
    show Retargets r (r.bindGroupImEndpoint user groupId imJid).2
    unfold bindGroupImEndpoint
    split
    · exact .inl rfl
    · exact retargets_of_workspace fun workspace _ =>
        retargets_bindImEndpointToWorkspace workspace imJid
  | unbindGroupImEndpoint user groupId imJid =>
    show Retargets r (r.unbindGroupImEndpoint user groupId imJid).2
    unfold unbindGroupImEndpoint
    split
    · exact .inl rfl
    · exact retargets_of_workspace fun workspace _ =>
        retargets_unbindImEndpointFromWorkspace workspace imJid
  | addGroupMember user groupId userId role => exact retargets_addGroupMember groupId userId role
  | removeGroupMember user groupId userId => exact retargets_removeGroupMember groupId userId
  | createGroupSlot user groupId slotId title =>
    exact retargets_of_workspace fun workspace r => .inl (createSlot_groups _ _ _ _ r)
  | setClock now => exact .inl rfl
  | sendMessage | receiveMessage | createGroup | updateGroup | listGroups => exact ha.elim

/-- The webhook of a known chat leaves its row as it is. -/
theorem folderKept_receiveMessage (message : InboundMessage) (runId : String) :
    FolderKept r (receiveMessage cfg message runId r).2 := by
  unfold receiveMessage
  split
  · split <;> exact .refl r
  · show FolderKept r (r.ensureImEndpoint message.chatJid message.chatJid _).2
    unfold ensureImEndpoint
    split
    · exact folderKept_of_groups (sameGroups_ensureMainSlot _ _ _).groups
    · rename_i hnone
      rw [folderKept_put_iff (ensureRegisteredGroup_groups _ _ _ _ _ _ r).groups,
        (ensureRegisteredGroup_row _ _ _ _ _ _ r).1]
      intro old hold
      exact absurd (hold.symm.trans hnone) (Option.some_ne_none old)

/-- **Requests.** A request keeps every folder if and only if it is safe. -/
theorem folderKept_iff (cfg : AppConfig) (r : Registry) (a : Action) :
    FolderKept r (perform cfg r a) ↔ FolderSafe r a := by
  cases a with
  | sendMessage user request runId => exact folderKept_sendMessage_iff runId
  | receiveMessage message runId =>
    exact iff_of_true (folderKept_receiveMessage message runId) trivial
  | createGroup user groupId name => exact folderKept_createGroup_iff
  | updateGroup user groupId name => exact iff_of_true (folderKept_updateGroup groupId name) trivial
  | listGroups user => exact folderKept_home_iff
  | bindGroupImEndpoint | unbindGroupImEndpoint | addGroupMember | removeGroupMember
  | createGroupSlot | setClock =>
    exact iff_of_true (folderKept_of_retargets (retargets_perform trivial)) trivial

/-- **The folder of a chat.** In a history of requests the folder of every row is fixed, from the
request that makes the row on, if and only if every request is safe. -/
theorem foldersKept_iff_safe {l : List Action} (h : Run (step cfg) (fun _ _ => True) r l r') :
    (∀ l₁ l₂ l₃ u v, l = l₁ ++ l₂ ++ l₃ → Run (step cfg) (fun _ _ => True) r l₁ u →
      Run (step cfg) (fun _ _ => True) u l₂ v → FolderKept u v) ↔
      Run (step cfg) (fun r a => True ∧ FolderSafe r a) r l r' := by
  refine h.related_iff (I := fun _ => True) trivial (fun _ _ _ => trivial) FolderKept.refl
    FolderKept.trans fun {t u a} _ _ hstep => ?_
  obtain rfl := Option.some.inj hstep
  exact folderKept_iff cfg t a

/-- The digest of the chat below. -/
def chatConfig : AppConfig where
  sha1Hexdigest _ := "ba3f11d2309e61bc18f71ffeaf35033b9fff276e"
  userExists _ := true

/-- A chat writes by Telegram. -/
def chatMessage : InboundMessage :=
  { channel := .telegram, chatId := "7", senderId := "9", content := "hello" }

/-- The user that creates the workspace `notes`. -/
def creator : AuthUser := { id := "u", username := "u", role := "owner" }

/-- A chat writes, is bound to a workspace and writes again; the workspace is renamed and written
to, and its owner lists the groups twice. -/
def notesRequests : List Action :=
  [.createGroup creator "notes" "Notes", .receiveMessage chatMessage "run₁",
    .bindGroupImEndpoint creator "notes" "telegram:7", .receiveMessage chatMessage "run₂",
    .updateGroup creator "notes" "My notes", .sendMessage creator (messageTo "notes") "run₃",
    .listGroups creator, .listGroups creator]

theorem foldersKept_iff_safe_notesRequests :
    ∃ r', Run (step chatConfig) (fun _ _ => True) {} notesRequests r' ∧
      r'.groups.rows.map RegisteredGroup.folder = ["notes", "chat-ba3f11d2309e", "main"] ∧
      ∀ l₁ l₂ l₃ u v, notesRequests = l₁ ++ l₂ ++ l₃ →
        Run (step chatConfig) (fun _ _ => True) {} l₁ u →
          Run (step chatConfig) (fun _ _ => True) u l₂ v → FolderKept u v := by
  have hrun : Run (step chatConfig) (fun r a => True ∧ FolderSafe r a) {} notesRequests _ :=
    .of_execute (by decide +kernel)
  have hrun' : Run (step chatConfig) (fun _ _ => True) {} notesRequests _ :=
    hrun.mono fun _ _ _ => trivial
  exact ⟨_, hrun', by decide +kernel, (foldersKept_iff_safe hrun').mpr hrun⟩

/-- **A moved chat.** A chat has written by Telegram; then a user writes to its jid by HTTP, and
the row of the chat gets the folder `telegram:7`. -/
theorem exists_moved_chat : ∃ u v,
    Run (step chatConfig) (fun _ _ => True) {} [.receiveMessage chatMessage "run"] u ∧
      Run (step chatConfig) (fun _ _ => True) u
        [.sendMessage stranger (messageTo "telegram:7") "run'"] v ∧
      (u.groups.get? "telegram:7").map RegisteredGroup.folder = some "chat-ba3f11d2309e" ∧
      (v.groups.get? "telegram:7").map RegisteredGroup.folder = some "telegram:7" ∧
      ¬ FolderKept u v := by
  have hu : ((perform chatConfig {} (.receiveMessage chatMessage "run")).groups.get?
      "telegram:7").map RegisteredGroup.folder = some "chat-ba3f11d2309e" := by decide
  have hv : ((perform chatConfig (perform chatConfig {} (.receiveMessage chatMessage "run"))
      (.sendMessage stranger (messageTo "telegram:7") "run'")).groups.get? "telegram:7").map
        RegisteredGroup.folder = some "telegram:7" := by decide
  refine ⟨_, _, .single trivial rfl, .single trivial rfl, hu, hv, fun hkept => ?_⟩
  have hfolders := (hkept.folder hu).symm.trans hv
  exact absurd (Option.some.inj hfolders) (by decide)

end Registry

end Portex
