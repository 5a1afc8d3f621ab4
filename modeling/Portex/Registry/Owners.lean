import Portex.Registry.Creation

/-!
# The owners of workspaces

Over the group routes alone, every workspace has one owner: the user that created it. The routes,
the registry and the upsert of members each refuse a part of what would change that.

## Main definitions

* `IsOwner`: the member rows with role `owner`
* `SoleOwner`: the creator of a workspace is its only owner
* `Governed`: the invariant of the group routes
* `GroupRequest`: the requests of the group routes

## Main results

* `Governed.step`: every request of the group routes keeps the invariant, and the owners
* `soleOwner_of_run`: the owners of every run
-/

namespace Portex

open Foundation

namespace Registry

variable {cfg : AppConfig} {r r' : Registry}

/-- The row is one of an owner of the folder. -/
def IsOwner (folder : String) (member : GroupMember) (r : Registry) : Prop :=
  member ∈ r.members.rows ∧ member.groupFolder = folder ∧ member.role = "owner"

/-- The workspace has exactly one owner row, and it is that of its creator. -/
def SoleOwner (group : RegisteredGroup) (r : Registry) : Prop :=
  ∃ owner, group.createdBy = some owner.userId ∧
    ∀ member, IsOwner group.folder member r ↔ member = owner

/-- No owner is added to a workspace, none is removed, and the workspace keeps its creator. -/
def KeepsOwners (r r' : Registry) : Prop :=
  ∀ group ∈ r.groups.rows, (∃ group', r'.groups.get? group.jid = some group' ∧
      group'.folder = group.folder ∧ group'.createdBy = group.createdBy) ∧
    ∀ member, IsOwner group.folder member r' ↔ IsOwner group.folder member r

theorem KeepsOwners.refl (r : Registry) : KeepsOwners r r := fun group hgroup =>
  ⟨⟨group, Table.mem_rows.mp hgroup, rfl, rfl⟩, fun _ => .rfl⟩

/-- What the group routes keep: they make canonical workspaces only, each with one owner, and
members of workspaces only. -/
structure Governed (r : Registry) : Prop where
  canonical : ∀ group ∈ r.groups.rows, group.jid = "web:" ++ group.folder ∧ group.isHome = false
  sole : ∀ group ∈ r.groups.rows, SoleOwner group r
  placed : ∀ member ∈ r.members.rows, ∃ group ∈ r.groups.rows, group.folder = member.groupFolder

theorem governed_empty : Governed {} where
  canonical _ h := by cases h
  sole _ h := by cases h
  placed _ h := by cases h

/-- Slots and the clock do not matter. -/
theorem Governed.congr (h : Governed r) (hgroups : r'.groups = r.groups)
    (hmembers : r'.members = r.members) : Governed r' ∧ KeepsOwners r r' := by
  have howner : ∀ folder member, IsOwner folder member r' ↔ IsOwner folder member r := by
    intro folder member
    unfold IsOwner
    rw [hmembers]
  refine ⟨⟨?_, fun group hgroup => ?_, ?_⟩, fun group hgroup => ⟨⟨group, ?_, rfl, rfl⟩, ?_⟩⟩
  · rw [hgroups]
    exact h.canonical
  · rw [hgroups] at hgroup
    obtain ⟨owner, hcreated, hsole⟩ := h.sole group hgroup
    exact ⟨owner, hcreated, fun member => (howner _ _).trans (hsole member)⟩
  · rw [hgroups, hmembers]
    exact h.placed
  · rw [hgroups]
    exact Table.mem_rows.mp hgroup
  · exact howner group.folder

/-! ## Creation -/

/-- The rows of a folder that no workspace has. -/
theorem Governed.not_member (h : Governed r) {folder : String}
    (hfree : ∀ group ∈ r.groups.rows, group.folder ≠ folder) :
    ∀ member ∈ r.members.rows, member.groupFolder ≠ folder := by
  intro member hmember heq
  obtain ⟨group, hgroup, hfolder⟩ := h.placed member hmember
  exact hfree group hgroup (hfolder.trans heq)

/-- The jid of a workspace is free where its folder is. -/
theorem Governed.jid_free (h : Governed r) {folder : String}
    (hfree : ∀ group ∈ r.groups.rows, group.folder ≠ folder) :
    r.groups.get? ("web:" ++ folder) = none := by
  by_contra htaken
  obtain ⟨group, hgroup⟩ := Option.ne_none_iff_exists'.mp htaken
  have hrow := Table.mem_rows_of_get? hgroup
  have hjid : "web:" ++ group.folder = "web:" ++ folder :=
    (h.canonical group hrow).1.symm.trans (Table.key_of_get? hgroup)
  exact hfree group hrow (String.append_right_inj _ |>.mp hjid)

/-- A workspace that is put with its owner. -/
theorem Governed.put (h : Governed r) (group : RegisteredGroup) (owner : GroupMember)
    (hfree : ∀ group' ∈ r.groups.rows, group'.folder ≠ group.folder)
    (hjid : group.jid = "web:" ++ group.folder) (hhome : group.isHome = false)
    (hcreated : group.createdBy = some owner.userId) (hfolder : owner.groupFolder = group.folder)
    (hrole : owner.role = "owner") (hgroups : r'.groups = r.groups.put group)
    (hmembers : r'.members = r.members.put owner) : Governed r' ∧ KeepsOwners r r' := by
  have hrows : ∀ group', group' ∈ r'.groups.rows ↔ group' = group ∨ group' ∈ r.groups.rows := by
    intro group'
    rw [hgroups, Table.mem_rows_put]
    refine or_congr_right (and_iff_right_of_imp fun hgroup' hsame => ?_)
    have hfolders := hsame
    rw [(h.canonical group' hgroup').1, hjid] at hfolders
    exact hfree group' hgroup' (String.append_right_inj _ |>.mp hfolders)
  have hmember : ∀ member, member ∈ r'.members.rows ↔ member = owner ∨ member ∈ r.members.rows := by
    intro member
    rw [hmembers, Table.mem_rows_put]
    refine or_congr_right (and_iff_right_of_imp fun hrow hkey => ?_)
    exact h.not_member hfree member hrow ((Prod.mk.inj hkey).1.trans hfolder)
  -- The owners of the other workspaces are those they had.
  have hothers : ∀ group' ∈ r.groups.rows, ∀ member,
      IsOwner group'.folder member r' ↔ IsOwner group'.folder member r := by
    intro group' hgroup' member
    unfold IsOwner
    rw [hmember]
    refine and_congr_left fun hof => or_iff_right ?_
    rintro rfl
    exact hfree group' hgroup' (hof.1.symm.trans hfolder)
  refine ⟨⟨fun group' hgroup' => ?_, fun group' hgroup' => ?_, fun member hrow => ?_⟩,
    fun group' hgroup' => ⟨⟨group', ?_, rfl, rfl⟩, hothers group' hgroup'⟩⟩
  · rcases (hrows group').mp hgroup' with rfl | hold
    · exact ⟨hjid, hhome⟩
    · exact h.canonical group' hold
  · rcases (hrows group').mp hgroup' with rfl | hold
    · refine ⟨owner, hcreated, fun member => ⟨fun howner => ?_, ?_⟩⟩
      · refine ((hmember member).mp howner.1).resolve_right fun hrow => ?_
        exact h.not_member hfree member hrow howner.2.1
      · rintro rfl
        exact ⟨(hmember member).mpr (.inl rfl), hfolder, hrole⟩
    · obtain ⟨sole, hsole, hall⟩ := h.sole group' hold
      exact ⟨sole, hsole, fun member => (hothers group' hold member).trans (hall member)⟩
  · rcases (hmember member).mp hrow with rfl | hold
    · exact ⟨group, (hrows group).mpr (.inl rfl), hfolder.symm⟩
    · obtain ⟨group', hgroup', hof⟩ := h.placed member hold
      exact ⟨group', (hrows group').mpr (.inr hgroup'), hof⟩
  · exact Table.mem_rows.mp ((hrows group').mpr (.inr hgroup'))

theorem addMember_of_none {groupFolder userId role : String} (addedBy : Option String)
    (hrole : ¬ role ∉ validGroupMemberRoles) (h : r.getMember groupFolder userId = none) :
    r.addMember groupFolder userId role addedBy =
      (.ok { groupFolder, userId, role, joinedAt := r.now, addedBy },
        { r with members :=
            r.members.put { groupFolder, userId, role, joinedAt := r.now, addedBy } }) := by
  unfold addMember
  rw [if_neg hrole, h]

theorem Governed.createWorkspace (h : Governed r) (folder name userId : String) :
    Governed (r.createWorkspace folder name userId).2 ∧
      KeepsOwners r (r.createWorkspace folder name userId).2 := by
  cases hvalid : validateWorkspaceFolder folder with
  | error error =>
    have hsame : (r.createWorkspace folder name userId).2 = r := by
      simp [Registry.createWorkspace, hvalid]
    rw [hsame]
    exact ⟨h, .refl r⟩
  | ok =>
    by_cases hfree : ∀ group ∈ r.groups.rows, group.folder ≠ folder
    · have hnone : r.getMember folder userId = none := by
        by_contra htaken
        obtain ⟨member, hmember⟩ := Option.ne_none_iff_exists'.mp htaken
        have hkey : member.key = (folder, userId) := Table.key_of_get? hmember
        exact h.not_member hfree member (Table.mem_rows_of_get? hmember) (Prod.mk.inj hkey).1
      have hnew : (r.ensureRegisteredGroup ("web:" ++ folder) name folder (some userId)
          (some false) none).1 =
          { jid := "web:" ++ folder, name, folder, addedAt := r.now, createdBy := some userId } := by
        have hjid : r.getRegisteredGroup ("web:" ++ folder) = none := h.jid_free hfree
        simp [ensureRegisteredGroup, hjid]
      rw [← getMember_ensureRegisteredGroup ("web:" ++ folder) name folder (some userId)
        (some false) none r] at hnone
      rw [createWorkspace_of_free name userId hvalid hfree,
        addMember_of_none (some userId) owner_valid hnone]
      have hupserted := ensureRegisteredGroup_groups ("web:" ++ folder) name folder (some userId)
        (some false) none r
      simp only [hnew] at hupserted
      generalize (r.ensureRegisteredGroup ("web:" ++ folder) name folder (some userId)
        (some false) none).2 = upserted at hupserted
      exact h.put
        { jid := "web:" ++ folder, name, folder, addedAt := r.now, createdBy := some userId }
        { groupFolder := folder, userId, role := "owner", joinedAt := upserted.now,
          addedBy := some userId }
        hfree rfl rfl rfl rfl rfl hupserted.groups (by rw [hupserted.members])
    · have hsame : (r.createWorkspace folder name userId).2 = r := by
        obtain ⟨taken, htaken⟩ : ∃ taken, r.getGroupByFolder folder = some taken :=
          Option.ne_none_iff_exists'.mp fun hnone => hfree (getGroupByFolder_eq_none.mp hnone)
        simp [Registry.createWorkspace, hvalid, htaken]
      rw [hsame]
      exact ⟨h, .refl r⟩

/-! ## Renaming -/

/-- The row of a workspace changes in nothing that matters for its owners. -/
theorem Governed.update (h : Governed r) {group : RegisteredGroup} (group' : RegisteredGroup)
    (hrow : r.groups.get? group.jid = some group) (hjid : group'.jid = group.jid)
    (hfolder : group'.folder = group.folder) (hcreated : group'.createdBy = group.createdBy)
    (hhome : group'.isHome = group.isHome) (hgroups : r'.groups = r.groups.put group')
    (hmembers : r'.members = r.members) : Governed r' ∧ KeepsOwners r r' := by
  have howner : ∀ folder member, IsOwner folder member r' ↔ IsOwner folder member r := by
    intro folder member
    unfold IsOwner
    rw [hmembers]
  have hmem : group ∈ r.groups.rows := Table.mem_rows_of_get? hrow
  -- A row is an old one, or the new one that stands for `group`.
  have hrows : ∀ other ∈ r'.groups.rows, other = group' ∨ other ∈ r.groups.rows := by
    intro other hother
    rw [hgroups, Table.mem_rows_put] at hother
    exact hother.imp_right And.right
  have hget : ∀ other ∈ r.groups.rows, ∃ kept, r'.groups.get? other.jid = some kept ∧
      kept.folder = other.folder ∧ kept.createdBy = other.createdBy := by
    intro other hother
    rw [hgroups, Table.get?_put]
    split
    · rename_i heq
      have hsame : r.groups.get? group.jid = some other := by
        rw [← hjid, ← heq]
        exact Table.mem_rows.mp hother
      obtain rfl := Option.some.inj (hrow.symm.trans hsame)
      exact ⟨group', rfl, hfolder, hcreated⟩
    · exact ⟨other, Table.mem_rows.mp hother, rfl, rfl⟩
  refine ⟨⟨fun other hother => ?_, fun other hother => ?_, fun member hmember => ?_⟩,
    fun other hother => ⟨hget other hother, fun member => howner other.folder member⟩⟩
  · rcases hrows other hother with rfl | hold
    · rw [hjid, hfolder, hhome]
      exact h.canonical group hmem
    · exact h.canonical other hold
  · have hsole (kept : RegisteredGroup) (hkept : kept ∈ r.groups.rows)
        (hf : other.folder = kept.folder) (hc : other.createdBy = kept.createdBy) :
        SoleOwner other r' := by
      obtain ⟨owner, hcreator, hall⟩ := h.sole kept hkept
      rw [← hf] at hall
      exact ⟨owner, hc.trans hcreator, fun member => (howner _ _).trans (hall member)⟩
    rcases hrows other hother with rfl | hold
    · exact hsole group hmem hfolder hcreated
    · exact hsole other hold rfl rfl
  · rw [hmembers] at hmember
    obtain ⟨placed, hplaced, hof⟩ := h.placed member hmember
    obtain ⟨kept, hkept, hf, -⟩ := hget placed hplaced
    exact ⟨kept, Table.mem_rows_of_get? hkept, hf.trans hof⟩

theorem KeepsOwners.trans {r'' : Registry} (h : KeepsOwners r r') (k : KeepsOwners r' r'') :
    KeepsOwners r r'' := by
  intro group hgroup
  obtain ⟨⟨group', hget', hfolder', hcreated'⟩, howners⟩ := h group hgroup
  obtain ⟨⟨group'', hget'', hfolder'', hcreated''⟩, howners'⟩ :=
    k group' (Table.mem_rows_of_get? hget')
  have hjid : group'.jid = group.jid := Table.key_of_get? hget'
  rw [hfolder'] at howners'
  exact ⟨⟨group'', hjid ▸ hget'', hfolder''.trans hfolder', hcreated''.trans hcreated'⟩,
    fun member => (howners' member).trans (howners member)⟩

/-- What a handler that looks its workspace up first keeps, if the rest of it does. -/
theorem Governed.through (h : Governed r) {user : AuthUser} {groupId : String}
    {workspace : Except RouteError RegisteredGroup} {looked : Registry}
    (hlooked : r.requireAccessibleWorkspace user groupId = (workspace, looked))
    (hrest : Governed looked → (∀ group, workspace = .ok group →
        looked.groups.get? group.jid = some group) → Governed r' ∧ KeepsOwners looked r') :
    Governed r' ∧ KeepsOwners r r' := by
  obtain ⟨hsame, hfound⟩ := requireAccessibleWorkspace_spec user groupId r
  rw [hlooked] at hsame hfound
  obtain ⟨hgoverned, hkept⟩ := h.congr hsame.groups hsame.members
  obtain ⟨hafter, hkept'⟩ := hrest hgoverned fun group hgroup => by
    rw [hsame.groups]
    exact hfound group hgroup
  exact ⟨hafter, hkept.trans hkept'⟩

theorem Governed.renameWorkspace (h : Governed r) {group : RegisteredGroup}
    (hrow : r.groups.get? group.jid = some group) (name : String) :
    Governed (r.renameWorkspace group name).2 ∧
      KeepsOwners r (r.renameWorkspace group name).2 := by
  unfold Registry.renameWorkspace
  split
  · exact ⟨h, .refl r⟩
  · split
    · exact ⟨h, .refl r⟩
    · exact h.update { group with name } hrow rfl rfl rfl rfl rfl rfl

theorem Governed.updateGroup (h : Governed r) (user : AuthUser) (groupId name : String) :
    Governed (r.updateGroup user groupId name).2 ∧
      KeepsOwners r (r.updateGroup user groupId name).2 := by
  unfold Registry.updateGroup
  split
  · exact ⟨h, .refl r⟩
  · split
    · rename_i hlooked
      exact h.through hlooked fun hgoverned _ => ⟨hgoverned, .refl _⟩
    · rename_i hlooked
      refine h.through hlooked fun hgoverned hfound => ?_
      split
      · exact hgoverned.renameWorkspace (hfound _ rfl) name
      · split
        · exact ⟨hgoverned, .refl _⟩
        · exact hgoverned.renameWorkspace (hfound _ rfl) name

/-! ## Members -/

/-- The rows of the members change, but not those of the owners. -/
theorem Governed.remember (h : Governed r) (hgroups : r'.groups = r.groups)
    (howner : ∀ folder member, IsOwner folder member r' ↔ IsOwner folder member r)
    (hplaced : ∀ member ∈ r'.members.rows, ∃ group ∈ r.groups.rows,
      group.folder = member.groupFolder) : Governed r' ∧ KeepsOwners r r' := by
  refine ⟨⟨?_, fun group hgroup => ?_, ?_⟩, fun group hgroup => ⟨⟨group, ?_, rfl, rfl⟩, ?_⟩⟩
  · rw [hgroups]
    exact h.canonical
  · rw [hgroups] at hgroup
    obtain ⟨owner, hcreated, hsole⟩ := h.sole group hgroup
    exact ⟨owner, hcreated, fun member => (howner _ _).trans (hsole member)⟩
  · rw [hgroups]
    exact hplaced
  · rw [hgroups]
    exact Table.mem_rows.mp hgroup
  · exact howner group.folder

/-- The upsert of a member neither makes nor unmakes an owner, where the route has checked the
role. -/
theorem Governed.addMember (h : Governed r) {folder userId role : String}
    (addedBy : Option String) (hfolder : ∃ group ∈ r.groups.rows, group.folder = folder)
    (hrole : r.ensureOwnerRoleChangeSupported folder userId role = .ok ()) :
    Governed (r.addMember folder userId role addedBy).2 ∧
      KeepsOwners r (r.addMember folder userId role addedBy).2 := by
  have hput {member : GroupMember} (hkey : member.key = (folder, userId))
      (hsame : ∀ existing, r.getMember folder userId = some existing →
        (member.role = "owner" ∨ existing.role = "owner") → member = existing)
      (hnew : r.getMember folder userId = none → member.role ≠ "owner") :
      Governed { r with members := r.members.put member } ∧
        KeepsOwners r { r with members := r.members.put member } := by
    refine h.remember rfl (fun folder' other => ?_) fun other hother => ?_
    · unfold IsOwner
      simp only [Table.mem_rows_put]
      constructor
      · rintro ⟨rfl | ⟨-, hrow⟩, hof, howner⟩
        · cases hexisting : r.getMember folder userId with
          | none => exact absurd howner (hnew hexisting)
          | some existing =>
            rw [hsame existing hexisting (.inl howner)]
            rw [hsame existing hexisting (.inl howner)] at hof howner
            exact ⟨Table.mem_rows_of_get? hexisting, hof, howner⟩
        · exact ⟨hrow, hof, howner⟩
      · rintro ⟨hrow, hof, howner⟩
        refine ⟨?_, hof, howner⟩
        by_cases hown : other.key = member.key
        · have hexisting : r.getMember folder userId = some other := by
            have hget := Table.mem_rows.mp hrow
            rwa [hown, hkey] at hget
          exact .inl (hsame other hexisting (.inr howner)).symm
        · exact .inr ⟨hown, hrow⟩
    · rcases Table.mem_rows_put.mp hother with rfl | ⟨-, hrow⟩
      · obtain ⟨group, hgroup, hof⟩ := hfolder
        exact ⟨group, hgroup, hof.trans (Prod.mk.inj hkey).1.symm⟩
      · exact h.placed other hrow
  -- What the route has checked: the user is an owner exactly where that is the requested role.
  have hchecked : (role = "owner") =
      ((r.getMember folder userId).any (fun member => member.role = "owner") = true) := by
    unfold ensureOwnerRoleChangeSupported at hrole
    simp only at hrole
    split at hrole
    · assumption
    · cases hrole
  unfold Registry.addMember
  split
  · exact ⟨h, .refl r⟩
  · split
    · rename_i existing hexisting
      split
      · exact ⟨h, .refl r⟩
      · have hkey : existing.key = (folder, userId) := Table.key_of_get? hexisting
        refine hput hkey (fun other hother howner => ?_) fun hnone => ?_
        · obtain rfl := Option.some.inj (hexisting.symm.trans hother)
          have hiff : role = "owner" ↔ existing.role = "owner" := by
            rw [hchecked, hexisting]
            simp
          have howned : role = existing.role := by
            rcases howner with howner | howner
            · exact howner.trans (hiff.mp howner).symm
            · exact (hiff.mpr howner).trans howner.symm
          rw [howned]
        · rw [hexisting] at hnone
          cases hnone
    · rename_i hnone
      refine hput rfl (fun other hother _ => ?_) fun _ => ?_
      · rw [hnone] at hother
        cases hother
      · intro howner
        have hnot := hchecked ▸ howner
        rw [hnone] at hnot
        cases hnot

theorem Governed.removeMember (h : Governed r) (folder userId : String) :
    Governed (r.removeMember folder userId).2 ∧
      KeepsOwners r (r.removeMember folder userId).2 := by
  unfold Registry.removeMember
  split
  · exact ⟨h, .refl r⟩
  · rename_i member hmember
    split
    · exact ⟨h, .refl r⟩
    · rename_i hrole
      have hrows : ∀ other, other ∈ (r.members.erase (folder, userId)).rows ↔
          other.key ≠ (folder, userId) ∧ other ∈ r.members.rows := by
        intro other
        rw [Table.mem_rows, Table.mem_rows, Table.get?_erase]
        split
        · rename_i hkey
          simp [hkey]
        · rename_i hkey
          simp [hkey]
      refine h.remember rfl (fun folder' other => ?_) fun other hother =>
        h.placed other ((hrows other).mp hother).2
      unfold IsOwner
      rw [hrows]
      refine and_congr_left fun hof => and_iff_right_of_imp fun hrow hkey => hrole ?_
      have hsame : r.getMember folder userId = some other := by
        have hget := Table.mem_rows.mp hrow
        rwa [hkey] at hget
      obtain rfl := Option.some.inj (hmember.symm.trans hsame)
      exact hof.2

theorem Governed.addGroupMember (h : Governed r) (user : AuthUser) (groupId userId role : String) :
    Governed (addGroupMember cfg user groupId userId role r).2 ∧
      KeepsOwners r (addGroupMember cfg user groupId userId role r).2 := by
  unfold Registry.addGroupMember
  split
  · exact ⟨h, .refl r⟩
  · split
    · rename_i hlooked
      exact h.through hlooked fun hgoverned _ => ⟨hgoverned, .refl _⟩
    · rename_i workspace looked hlooked
      refine h.through hlooked fun hgoverned hfound => ?_
      split
      · exact ⟨hgoverned, .refl _⟩
      · split
        · exact ⟨hgoverned, .refl _⟩
        · split
          · exact ⟨hgoverned, .refl _⟩
          · split
            · exact ⟨hgoverned, .refl _⟩
            · rename_i hrole
              exact hgoverned.addMember (some user.id)
                ⟨workspace, Table.mem_rows_of_get? (hfound workspace rfl), rfl⟩ hrole

theorem Governed.removeGroupMember (h : Governed r) (user : AuthUser) (groupId userId : String) :
    Governed (r.removeGroupMember user groupId userId).2 ∧
      KeepsOwners r (r.removeGroupMember user groupId userId).2 := by
  unfold Registry.removeGroupMember
  split
  · rename_i hlooked
    exact h.through hlooked fun hgoverned _ => ⟨hgoverned, .refl _⟩
  · rename_i workspace looked hlooked
    refine h.through hlooked fun hgoverned _ => ?_
    split
    · exact ⟨hgoverned, .refl _⟩
    · split
      · split
        · exact ⟨hgoverned, .refl _⟩
        · split
          · exact ⟨hgoverned, .refl _⟩
          · rw [finishRemoval_snd]
            exact hgoverned.removeMember workspace.folder userId
      · split
        · exact ⟨hgoverned, .refl _⟩
        · rw [finishRemoval_snd]
          exact hgoverned.removeMember workspace.folder userId

/-! ## Requests -/

/-- The requests that create, rename and staff workspaces; time passes between them. -/
def GroupRequest : Action → Prop
  | .createGroup _ _ _ | .updateGroup _ _ _ | .addGroupMember _ _ _ _ | .removeGroupMember _ _ _
  | .setClock _ => True
  | _ => False

instance : DecidablePred GroupRequest
  | .createGroup _ _ _ | .updateGroup _ _ _ | .addGroupMember _ _ _ _ | .removeGroupMember _ _ _
  | .setClock _ => inferInstanceAs (Decidable True)
  | .sendMessage _ _ _ | .receiveMessage _ _ | .bindGroupImEndpoint _ _ _
  | .unbindGroupImEndpoint _ _ _ | .createGroupSlot _ _ _ _ | .listGroups _ =>
    inferInstanceAs (Decidable False)

/-- **Every request of the group routes** keeps the owners. -/
theorem Governed.step (h : Governed r) {a : Action} (ha : GroupRequest a)
    (hstep : step cfg r a = some r') : Governed r' ∧ KeepsOwners r r' := by
  obtain rfl := Option.some.inj hstep
  cases a with
  | createGroup user groupId name =>
    unfold perform createGroup
    simp only
    split
    · exact ⟨h, .refl r⟩
    · exact h.createWorkspace groupId name user.id
  | updateGroup user groupId name => exact h.updateGroup user groupId name
  | addGroupMember user groupId userId role => exact h.addGroupMember user groupId userId role
  | removeGroupMember user groupId userId => exact h.removeGroupMember user groupId userId
  | setClock now => exact h.congr rfl rfl
  | sendMessage | receiveMessage | bindGroupImEndpoint | unbindGroupImEndpoint | createGroupSlot
  | listGroups => exact ha.elim

/-- **Owners.** In every run of the group routes from an empty registry, each workspace has exactly
one owner row, that of its creator, and no request adds an owner to a workspace or removes one. -/
theorem soleOwner_of_run {l : List Action}
    (h : Run (step cfg) (fun _ a => GroupRequest a) {} l r) :
    (∀ group ∈ r.groups.rows, SoleOwner group r) ∧
      ∀ a, GroupRequest a → KeepsOwners r (perform cfg r a) := by
  have hgoverned : Governed r := h.invariant governed_empty fun hu ha hstep => (hu.step ha hstep).1
  exact ⟨hgoverned.sole, fun a ha => (hgoverned.step ha rfl).2⟩

/-- A workspace that is created and staffed: the new member is refused the role of an owner, and the
owner cannot leave. -/
theorem soleOwner_staffed : ∃ r, Run (step chatConfig) (fun _ a => GroupRequest a) {}
    [.createGroup creator "notes" "Notes", .addGroupMember creator "notes" "v" "owner",
      .addGroupMember creator "notes" "v" "admin", .removeGroupMember creator "notes" "u"] r ∧
    (∀ group ∈ r.groups.rows, SoleOwner group r) ∧
      r.members.rows.map GroupMember.role = ["owner", "admin"] := by
  have h : Run (step chatConfig) (fun _ a => GroupRequest a) {}
    [.createGroup creator "notes" "Notes", .addGroupMember creator "notes" "v" "owner",
      .addGroupMember creator "notes" "v" "admin", .removeGroupMember creator "notes" "u"] _ :=
    .of_execute (by decide +kernel)
  exact ⟨_, h, (soleOwner_of_run h).1, by decide +kernel⟩

end Registry

end Portex
