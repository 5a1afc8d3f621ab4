import Portex.Registry.Folder

/-!
# The creation of a workspace

`create_workspace` looks for a row with the folder, and then upserts the row with the jid
`web:<folder>` and adds its owner. A row with that jid and another folder is taken over, and a
membership that is left from before makes the last write fail after the first was committed.

## Main definitions

* `AllOrNothing`: a creation makes its workspace, or changes nothing
* `Creatable`: what a creation does not look for is not there

## Main results

* `allOrNothing_iff_creatable`: the creations that are all or nothing
* `exists_takeover`: a workspace is created over the row of another user
-/

namespace Portex

open Foundation

namespace Registry

variable {r : Registry}

/-- A creation that succeeds finds neither the jid nor the folder taken, and makes the user the
creator of the row and the owner of the folder; one that raises changes no row. -/
def AllOrNothing (folder name userId : String) (r : Registry) : Prop :=
  let result := r.createWorkspace folder name userId
  (∀ workspace, result.1 = .ok workspace →
      r.groups.get? ("web:" ++ folder) = none ∧ (∀ group ∈ r.groups.rows, group.folder ≠ folder) ∧
        result.2.groups.get? ("web:" ++ folder) = some workspace ∧
          workspace.createdBy = some userId ∧
            (result.2.getMember folder userId).map GroupMember.role = some "owner") ∧
    ∀ error, result.1 = .error error →
      (∀ jid, result.2.groups.get? jid = r.groups.get? jid) ∧
        ∀ key, result.2.members.get? key = r.members.get? key

/-- Where the folder is valid and no row has it, no row has the jid of the workspace, and the user
is no member of the folder but an owner. -/
def Creatable (folder userId : String) (r : Registry) : Prop :=
  validateWorkspaceFolder folder = .ok () → (∀ group ∈ r.groups.rows, group.folder ≠ folder) →
    r.groups.get? ("web:" ++ folder) = none ∧
      ∀ member ∈ r.getMember folder userId, member.role = "owner"

theorem owner_valid : ¬ "owner" ∉ validGroupMemberRoles := by decide

/-- An owner is added unless the user is a member in another role. -/
theorem addMember_owner {folder userId : String} (addedBy : Option String)
    (h : ∀ member ∈ r.getMember folder userId, member.role = "owner") :
    (∃ member, (r.addMember folder userId "owner" addedBy).1 = .ok member) ∧
      ((r.addMember folder userId "owner" addedBy).2.getMember folder userId).map GroupMember.role =
        some "owner" := by
  unfold addMember
  rw [if_neg owner_valid]
  cases hmember : r.getMember folder userId with
  | none =>
    refine ⟨⟨_, rfl⟩, ?_⟩
    simp [getMember, GroupMember.key]
  | some existing =>
    have hkey : existing.key = (folder, userId) := Table.key_of_get? hmember
    have hrole := h existing hmember
    simp only [hrole, ne_eq, not_true, and_false, false_and, or_false, if_false]
    refine ⟨⟨_, rfl⟩, ?_⟩
    simp only [GroupMember.key] at hkey
    simp [getMember, GroupMember.key, hkey]

theorem addMember_owner_error {folder userId : String} {existing : GroupMember}
    (addedBy : Option String) (hmember : r.getMember folder userId = some existing)
    (hrole : existing.role ≠ "owner") :
    ∃ error, (r.addMember folder userId "owner" addedBy).1 = .error error := by
  unfold addMember
  rw [if_neg owner_valid, hmember]
  simp [hrole]

theorem getMember_ensureRegisteredGroup (jid name folder : String) (createdBy : Option String)
    (isHome : Option Bool) (target : Option (Option String)) (r : Registry)
    (groupFolder userId : String) :
    (r.ensureRegisteredGroup jid name folder createdBy isHome target).2.getMember groupFolder
      userId = r.getMember groupFolder userId := by
  unfold getMember
  rw [(ensureRegisteredGroup_groups jid name folder createdBy isHome target r).members]

/-- The creation of a valid folder that no row has. -/
theorem createWorkspace_of_free {folder : String} (name userId : String)
    (hvalid : validateWorkspaceFolder folder = .ok ())
    (hfree : ∀ group ∈ r.groups.rows, group.folder ≠ folder) :
    let upserted := r.ensureRegisteredGroup ("web:" ++ folder) name folder (some userId)
      (some false) none
    let added := upserted.2.addMember folder userId "owner" (some userId)
    r.createWorkspace folder name userId = (added.1.map fun _ => upserted.1, added.2) := by
  intro upserted added
  unfold createWorkspace
  simp only [hvalid, getGroupByFolder_eq_none.mpr hfree, added, upserted]
  generalize addMember folder userId "owner" (some userId) _ = added
  obtain ⟨result, r₁⟩ := added
  cases result with
  | error error => rfl
  | ok member => rfl

theorem allOrNothing_of_refused {folder name userId : String} (error : RegistryError)
    (h : r.createWorkspace folder name userId = (.error error, r)) :
    AllOrNothing folder name userId r := by
  simp [AllOrNothing, h]

/-- The row of a creation that fails at the membership was committed before. -/
theorem not_allOrNothing_of_error {folder userId : String} (name : String)
    (hvalid : validateWorkspaceFolder folder = .ok ())
    (hfree : ∀ group ∈ r.groups.rows, group.folder ≠ folder) {existing : GroupMember}
    (hmember : r.getMember folder userId = some existing) (hrole : existing.role ≠ "owner") :
    ¬ AllOrNothing folder name userId r := by
  intro h
  have hrow := ensureRegisteredGroup_row ("web:" ++ folder) name folder (some userId) (some false)
    none r
  have hgroups := (ensureRegisteredGroup_groups ("web:" ++ folder) name folder (some userId)
    (some false) none r).groups
  have hmember' := hmember
  rw [← getMember_ensureRegisteredGroup ("web:" ++ folder) name folder (some userId) (some false)
    none r] at hmember'
  obtain ⟨error, herror⟩ := addMember_owner_error (some userId) hmember' hrole
  have hcreate := createWorkspace_of_free name userId hvalid hfree
  simp only [herror] at hcreate
  have hkept := (h.2 error (by rw [hcreate]; rfl)).1 ("web:" ++ folder)
  rw [hcreate] at hkept
  simp only [addMember_groups, hgroups, Table.get?_put, hrow.1, if_true] at hkept
  exact hfree _ (Table.mem_rows_of_get? hkept.symm) hrow.2.2

/-- A creation that does not fail at the membership puts its row and adds its owner. -/
theorem createWorkspace_ok {folder userId : String} (name : String)
    (hvalid : validateWorkspaceFolder folder = .ok ())
    (hfree : ∀ group ∈ r.groups.rows, group.folder ≠ folder)
    (hmember : ∀ member ∈ r.getMember folder userId, member.role = "owner") :
    let row := (r.ensureRegisteredGroup ("web:" ++ folder) name folder (some userId) (some false)
      none).1
    let result := r.createWorkspace folder name userId
    result.1 = .ok row ∧ result.2.groups = r.groups.put row ∧
      (result.2.getMember folder userId).map GroupMember.role = some "owner" := by
  intro row result
  have hgroups := (ensureRegisteredGroup_groups ("web:" ++ folder) name folder (some userId)
    (some false) none r).groups
  rw [← getMember_ensureRegisteredGroup ("web:" ++ folder) name folder (some userId) (some false)
    none r] at hmember
  obtain ⟨⟨member, hok⟩, howner⟩ := addMember_owner (some userId) hmember
  have hcreate : result = _ := createWorkspace_of_free name userId hvalid hfree
  refine ⟨?_, ?_, ?_⟩
  · rw [hcreate, hok]
    rfl
  · rw [hcreate]
    exact (addMember_groups _ _ _ _ _).trans hgroups
  · rw [hcreate]
    exact howner

/-- **The creation of a workspace.** A creation is all or nothing if and only if what it does not
look for is not there. -/
theorem allOrNothing_iff_creatable (folder name userId : String) (r : Registry) :
    AllOrNothing folder name userId r ↔ Creatable folder userId r := by
  cases hvalid : validateWorkspaceFolder folder with
  | error error =>
    refine iff_of_true (allOrNothing_of_refused error ?_) fun h => ?_
    · simp [createWorkspace, hvalid]
    · rw [hvalid] at h
      cases h
  | ok =>
    by_cases hfree : ∀ group ∈ r.groups.rows, group.folder ≠ folder
    · by_cases hmember : ∀ member ∈ r.getMember folder userId, member.role = "owner"
      · obtain ⟨hok, hgroups, howner⟩ := createWorkspace_ok name hvalid hfree hmember
        have hrow := ensureRegisteredGroup_row ("web:" ++ folder) name folder (some userId)
          (some false) none r
        refine ⟨fun h _ _ => ⟨(h.1 _ hok).1, hmember⟩, fun h => ⟨fun workspace hworkspace => ?_,
          fun error herror => ?_⟩⟩
        · have hnone := (h hvalid hfree).1
          obtain rfl := Except.ok.inj (hok.symm.trans hworkspace)
          refine ⟨hnone, hfree, ?_, ?_, howner⟩
          · rw [hgroups, Table.get?_put, if_pos hrow.1.symm]
          · simp [ensureRegisteredGroup, getRegisteredGroup, hnone]
        · rw [hok] at herror
          cases herror
      · simp only [not_forall] at hmember
        obtain ⟨existing, hexisting, hrole⟩ := hmember
        exact iff_of_false (not_allOrNothing_of_error name hvalid hfree hexisting hrole)
          fun h => hrole ((h hvalid hfree).2 existing hexisting)
    · refine iff_of_true (allOrNothing_of_refused (.conflict "workspace already exists") ?_)
        fun _ h => absurd h hfree
      obtain ⟨taken, htaken⟩ : ∃ taken, r.getGroupByFolder folder = some taken :=
        Option.ne_none_iff_exists'.mp fun h => hfree (getGroupByFolder_eq_none.mp h)
      simp [createWorkspace, hvalid, htaken]

/-- **A workspace taken over.** A stranger has written to the jid `web:notes`; then `notes` is
created, on the row that the stranger keeps as its creator. -/
theorem exists_takeover : ∃ r,
    Run (step chatConfig) (fun _ _ => True) {}
        [.sendMessage stranger (messageTo "web:notes") "run"] r ∧
      (r.createWorkspace "notes" "Notes" creator.id).1.toOption.map RegisteredGroup.createdBy =
        some (some stranger.id) ∧
      ¬ AllOrNothing "notes" "Notes" creator.id r := by
  refine ⟨_, .single trivial rfl, by decide, fun h => ?_⟩
  have htaken : ((perform chatConfig {} (.sendMessage stranger (messageTo "web:notes")
    "run")).groups.get? "web:notes").isSome = true := by decide
  have hnone := (h.1 _ rfl).1
  exact absurd (hnone ▸ htaken) (by decide)

end Registry

end Portex
