import Portex.Registry.Creation

/-!
# The name of a renamed workspace

`rename_workspace` gives a web workspace its name. The webhooks of the IM channels leave the row of
a known chat as it is; a message by HTTP registers its target again, under the name of its folder,
and the name that was given is gone.

## Main definitions

* `nameOf`: the stored name
* `NoRename`: a request renames no further
* `NameSafe`: a request upserts the row of the workspace under the name that it has

## Main results

* `nameOf_perform_iff`: what a request does to the name
* `renamed_iff`: the histories in which a name stays
* `exists_forgotten`: a workspace loses its name with the next message
-/

namespace Portex

open Foundation

namespace Registry

variable {r r' : Registry} {cfg : AppConfig} {user : AuthUser} {jid n : String}

/-- The name of the row. -/
def nameOf (jid : String) (r : Registry) : Option String :=
  (r.groups.get? jid).map RegisteredGroup.name

/-- The request does not rename the workspace. -/
def NoRename (jid : String) (r : Registry) : Action → Prop
  | .updateGroup user groupId name =>
    ∀ workspace, (r.updateGroup user groupId name).1 = .ok workspace → workspace.jid ≠ jid
  | _ => True

/-- The home of the user is not the workspace, or has its name. -/
def HomeNamed (jid n : String) (user : AuthUser) : Prop := homeJid user = jid → homeName user = n

/-- The message is accepted, and its target is the workspace. -/
def Targets (jid : String) (user : AuthUser) (request : SendMessageRequest) (r : Registry) : Prop :=
  Accepted user request (r.ensureHomeWorkspace user).2 ∧
    chatJidOf request (r.ensureHomeWorkspace user).2 = jid

/-- A workspace is created, and its jid is that of the workspace. -/
def Recreates (jid : String) (user : AuthUser) (folder : String) (r : Registry) : Prop :=
  "write" ∈ groupPermissions user.role ∧ validateWorkspaceFolder folder = .ok () ∧
    (∀ group ∈ r.groups.rows, group.folder ≠ folder) ∧ "web:" ++ folder = jid

/-- The request upserts the row under the name `n`, or not at all. -/
def NameSafe (jid n : String) (r : Registry) : Action → Prop
  | .sendMessage user request _ =>
    (Targets jid user request r → request.groupId = n) ∧
      (¬ Targets jid user request r → HomeNamed jid n user)
  | .createGroup user folder name => Recreates jid user folder r → name = n
  | .listGroups user => HomeNamed jid n user
  | _ => True

instance (jid : String) (r : Registry) : DecidablePred (NoRename jid r)
  | .updateGroup user groupId name =>
    match h : (r.updateGroup user groupId name).1 with
    | .ok workspace => decidable_of_iff (workspace.jid ≠ jid)
        ⟨fun hne _ hok => Except.ok.inj (h.symm.trans hok) ▸ hne, fun hall => hall workspace h⟩
    | .error _ => .isTrue fun _ hok => nomatch h.symm.trans hok
  | .sendMessage .. | .receiveMessage .. | .createGroup .. | .listGroups ..
  | .bindGroupImEndpoint .. | .unbindGroupImEndpoint .. | .addGroupMember ..
  | .removeGroupMember .. | .createGroupSlot .. | .setClock .. => .isTrue trivial

instance (jid n : String) (user : AuthUser) : Decidable (HomeNamed jid n user) :=
  inferInstanceAs (Decidable (_ → _))

instance (jid : String) (user : AuthUser) (request : SendMessageRequest) (r : Registry) :
    Decidable (Targets jid user request r) := inferInstanceAs (Decidable (_ ∧ _))

instance (jid : String) (user : AuthUser) (folder : String) (r : Registry) :
    Decidable (Recreates jid user folder r) :=
  inferInstanceAs (Decidable (_ ∧ _ ∧ (∀ group ∈ r.groups.rows, _) ∧ _))

instance (jid n : String) (r : Registry) : DecidablePred (NameSafe jid n r)
  | .sendMessage user request _ =>
    inferInstanceAs (Decidable ((Targets jid user request r → request.groupId = n) ∧
      (¬ Targets jid user request r → HomeNamed jid n user)))
  | .createGroup user folder name =>
    inferInstanceAs (Decidable (Recreates jid user folder r → name = n))
  | .listGroups user => inferInstanceAs (Decidable (HomeNamed jid n user))
  | .receiveMessage .. | .updateGroup .. | .bindGroupImEndpoint .. | .unbindGroupImEndpoint ..
  | .addGroupMember .. | .removeGroupMember .. | .createGroupSlot .. | .setClock .. =>
    .isTrue trivial

/-! ## Rows -/

theorem nameOf_of_groups (h : r'.groups = r.groups) : nameOf jid r' = nameOf jid r := by
  rw [nameOf, h, nameOf]

theorem nameOf_put {row : RegisteredGroup} (h : r'.groups = r.groups.put row) :
    nameOf jid r' = if jid = row.jid then some row.name else nameOf jid r := by
  unfold nameOf
  rw [h, Table.get?_put]
  split <;> rfl

/-- A row is put with the name that it has. -/
theorem nameOf_put_of_name {row old : RegisteredGroup} (h : r'.groups = r.groups.put row)
    (hold : r.groups.get? row.jid = some old) (hname : row.name = old.name) :
    nameOf jid r' = nameOf jid r := by
  rw [nameOf_put h]
  split
  · rename_i hjid
    rw [hjid, nameOf, hold, hname]
    rfl
  · rfl

theorem nameOf_home : nameOf jid (r.ensureHomeWorkspace user).2 =
    if jid = homeJid user then some (homeName user) else nameOf jid r := by
  obtain ⟨hjid, hname, -⟩ := ensureHomeWorkspace_row user r
  rw [nameOf_put (ensureHomeWorkspace_groups user r).groups, hjid, hname]

theorem nameOf_home_iff (hname : nameOf jid r = some n) :
    nameOf jid (r.ensureHomeWorkspace user).2 = some n ↔ HomeNamed jid n user := by
  rw [nameOf_home, HomeNamed]
  by_cases hjid : jid = homeJid user
  · simp [hjid]
  · simp [hjid, Ne.symm hjid, hname]

/-! ## Requests -/

theorem nameOf_sendMessage_iff (hname : nameOf jid r = some n) (request : SendMessageRequest)
    (runId : String) : nameOf jid (r.sendMessage user request runId).2 = some n ↔
      (Targets jid user request r → request.groupId = n) ∧
        (¬ Targets jid user request r → HomeNamed jid n user) := by
  rcases sendMessage_spec user request runId r with
    ⟨hacc, submitted, row, -, -, hjid, hrow, -, hsame⟩ | ⟨hacc, -, hsame⟩
  · rw [nameOf_put hsame.groups, hjid, hrow]
    by_cases htarget : chatJidOf request (r.ensureHomeWorkspace user).2 = jid
    · have htargets : Targets jid user request r := ⟨hacc, htarget⟩
      simp [htarget, htargets]
    · have htargets : ¬ Targets jid user request r := fun h => htarget h.2
      rw [if_neg (Ne.symm htarget), nameOf_home_iff hname]
      simp [htargets]
  · have htargets : ¬ Targets jid user request r := fun h => hacc h.1
    rw [nameOf_of_groups hsame.groups, nameOf_home_iff hname]
    simp [htargets]

theorem nameOf_createGroup_iff (hname : nameOf jid r = some n) (folder name : String) :
    nameOf jid (r.createGroup user folder name).2 = some n ↔
      (Recreates jid user folder r → name = n) := by
  unfold createGroup requirePermission Recreates
  by_cases hwrite : "write" ∈ groupPermissions user.role
  · simp only [hwrite, if_true, true_and]
    show nameOf jid (r.createWorkspace folder name user.id).2 = some n ↔ _
    have hgroups := createWorkspace_groups folder name user.id r
    split at hgroups
    · rename_i hcreates
      obtain ⟨hjid, hrow, -⟩ := ensureRegisteredGroup_row ("web:" ++ folder) name folder
        (some user.id) (some false) none r
      rw [nameOf_put hgroups, hjid, hrow]
      by_cases hsame : jid = "web:" ++ folder
      · rw [if_pos hsame, Option.some.injEq]
        exact ⟨fun h _ => h, fun h => h ⟨hcreates.1, hcreates.2, hsame.symm⟩⟩
      · rw [if_neg hsame]
        exact iff_of_true hname fun h => absurd h.2.2.symm hsame
    · rename_i hrefuses
      rw [hgroups]
      simp only [hname, true_iff]
      rintro ⟨hvalid, hfree, -⟩
      exact absurd ⟨hvalid, hfree⟩ hrefuses
  · simp [hwrite, hname]

/-- A rename changes the name of the row that it answers with. -/
theorem nameOf_renameWorkspace {workspace : RegisteredGroup} (name : String)
    (hother : ∀ group, (mapResult (r.renameWorkspace workspace name)).1 = .ok group →
      group.jid ≠ jid) :
    nameOf jid (mapResult (r.renameWorkspace workspace name)).2 = nameOf jid r := by
  unfold renameWorkspace at hother ⊢
  split at hother
  · rw [if_pos ‹_›]
    rfl
  · rw [if_neg ‹_›]
    split at hother
    · rw [if_pos ‹_›]
      rfl
    · rw [if_neg ‹_›]
      have hne : workspace.jid ≠ jid := hother { workspace with name } rfl
      have hput : ({ r with groups := r.groups.put { workspace with name } } : Registry).groups =
          r.groups.put { workspace with name } := rfl
      exact (nameOf_put hput).trans (if_neg (Ne.symm hne))

theorem nameOf_updateGroup {groupId name : String}
    (hother : ∀ workspace, (r.updateGroup user groupId name).1 = .ok workspace →
      workspace.jid ≠ jid) :
    nameOf jid (r.updateGroup user groupId name).2 = nameOf jid r := by
  revert hother
  unfold updateGroup
  split
  · intro _
    rfl
  · refine of_workspace (P := fun result => (∀ workspace : RegisteredGroup,
      result.1 = .ok workspace → workspace.jid ≠ jid) → nameOf jid result.2 = nameOf jid r) ?_ ?_
    · intro error r' hsame _
      exact nameOf_of_groups hsame.groups
    · intro workspace r' hsame _ hother
      rw [← nameOf_of_groups hsame.groups]
      split at hother
      · rw [if_pos ‹_›]
        exact nameOf_renameWorkspace name hother
      · rw [if_neg ‹_›]
        split at hother
        · rw [if_pos ‹_›]
        · rw [if_neg ‹_›]
          exact nameOf_renameWorkspace name hother

theorem nameOf_of_retargets (h : Retargets r r') : nameOf jid r' = nameOf jid r := by
  rcases h with hgroups | ⟨old, row, hold, hname, -, hput⟩
  · exact nameOf_of_groups hgroups
  · exact nameOf_put_of_name hput hold hname

/-- The webhook of a known chat leaves its row as it is. -/
theorem nameOf_receiveMessage (hname : nameOf jid r = some n) (message : InboundMessage)
    (runId : String) : nameOf jid (receiveMessage cfg message runId r).2 = some n := by
  unfold receiveMessage
  split
  · split <;> exact hname
  · show nameOf jid (r.ensureImEndpoint message.chatJid message.chatJid _).2 = some n
    unfold ensureImEndpoint
    split
    · exact (nameOf_of_groups (sameGroups_ensureMainSlot _ _ _).groups).trans hname
    · rename_i hnone
      have hne : jid ≠ message.chatJid := by
        rintro rfl
        have hmissing : r.groups.get? message.chatJid = none := hnone
        rw [nameOf, hmissing] at hname
        cases hname
      rw [nameOf_put (ensureRegisteredGroup_groups _ _ _ _ _ _ r).groups,
        (ensureRegisteredGroup_row _ _ _ _ _ _ r).1, if_neg hne, hname]

/-- **Requests.** A request that does not rename the workspace keeps its name if and only if it is
safe. -/
theorem nameOf_perform_iff {a : Action} (hname : nameOf jid r = some n) (ha : NoRename jid r a) :
    nameOf jid (perform cfg r a) = some n ↔ NameSafe jid n r a := by
  cases a with
  | sendMessage user request runId => exact nameOf_sendMessage_iff hname request runId
  | receiveMessage message runId =>
    exact iff_of_true (nameOf_receiveMessage hname message runId) trivial
  | createGroup user folder name => exact nameOf_createGroup_iff hname folder name
  | updateGroup user groupId name =>
    exact iff_of_true ((nameOf_updateGroup ha).trans hname) trivial
  | listGroups user => exact nameOf_home_iff hname
  | bindGroupImEndpoint | unbindGroupImEndpoint | addGroupMember | removeGroupMember
  | createGroupSlot | setClock =>
    refine iff_of_true ((nameOf_of_retargets (retargets_perform ?_)).trans hname) trivial
    exact trivial

/-- The workspace has the name that it is given. -/
theorem nameOf_renamed {row : RegisteredGroup} (hhome : row.isHome = false)
    (hweb : startsWith row.jid "web:" = true) :
    nameOf row.jid (r.renameWorkspace row n).2 = some n := by
  have hput : (r.renameWorkspace row n).2.groups = r.groups.put { row with name := n } := by
    simp [renameWorkspace, hhome, hweb]
  rw [nameOf_put hput, if_pos rfl]

/-- **The name of a workspace.** After a workspace was renamed, and while it is not renamed again,
its name stays in a history of requests if and only if every request is safe. -/
theorem renamed_iff {row : RegisteredGroup} {l : List Action} (hhome : row.isHome = false)
    (hweb : startsWith row.jid "web:" = true)
    (h : Run (step cfg) (NoRename row.jid) (r.renameWorkspace row n).2 l r') :
    (∀ l₁ l₂ u, l = l₁ ++ l₂ → Run (step cfg) (NoRename row.jid) (r.renameWorkspace row n).2 l₁ u →
      nameOf row.jid u = some n) ↔
      Run (step cfg) (fun r a => NoRename row.jid r a ∧ NameSafe row.jid n r a)
        (r.renameWorkspace row n).2 l r' := by
  refine h.always_iff (I := fun _ => True) trivial (nameOf_renamed hhome hweb)
    (fun _ _ _ => trivial) fun {t u a} _ hname ha hstep => ?_
  obtain rfl := Option.some.inj hstep
  exact nameOf_perform_iff hname ha

/-! ### A workspace and its name -/

def notesRow : RegisteredGroup :=
  { jid := "web:notes", name := "Notes", folder := "notes", addedAt := 0, createdBy := some "u" }

def notesRegistry : Registry where
  groups := Table.put ∅ notesRow

/-- The workspace is written to, by HTTP and from a chat that is bound to it, while another one is
created and renamed. -/
def writtenRequests : List Action :=
  [.sendMessage creator (messageTo "notes") "run₁", .receiveMessage chatMessage "run₂",
    .bindGroupImEndpoint creator "notes" "telegram:7", .receiveMessage chatMessage "run₃",
    .createGroup creator "drafts" "Drafts", .updateGroup creator "drafts" "My drafts",
    .sendMessage creator (messageTo "notes") "run₄", .listGroups creator]

theorem renamed_iff_written : ∃ r', Run (step chatConfig) (NoRename "web:notes")
      (notesRegistry.renameWorkspace notesRow "notes").2 writtenRequests r' ∧
    nameOf "web:drafts" r' = some "My drafts" ∧
    ∀ l₁ l₂ u, writtenRequests = l₁ ++ l₂ →
      Run (step chatConfig) (NoRename "web:notes")
        (notesRegistry.renameWorkspace notesRow "notes").2 l₁ u →
      nameOf "web:notes" u = some "notes" := by
  have hrun : Run (step chatConfig) (fun r a => NoRename "web:notes" r a ∧
      NameSafe "web:notes" "notes" r a) (notesRegistry.renameWorkspace notesRow "notes").2
      writtenRequests _ := .of_execute (by decide +kernel)
  have hallowed := hrun.mono fun _ _ h => h.1
  exact ⟨_, hallowed, by decide +kernel,
    (renamed_iff (show notesRow.isHome = false from rfl) (by decide) hallowed).mpr hrun⟩

/-- **A forgotten name**: a workspace is created and renamed, and a message to it gives it the name
of its folder. -/
theorem exists_forgotten : ∃ u v w : Registry,
    u = perform chatConfig {} (.createGroup creator "notes" "Notes") ∧
      v = perform chatConfig u (.updateGroup creator "notes" "My notes") ∧
      Run (step chatConfig) (NoRename "web:notes") v
        [.sendMessage creator (messageTo "notes") "run"] w ∧
      nameOf "web:notes" v = some "My notes" ∧ nameOf "web:notes" w = some "notes" := by
  refine ⟨_, _, _, rfl, rfl, .single trivial rfl, ?_, ?_⟩
  · decide
  · decide

end Registry

end Portex
