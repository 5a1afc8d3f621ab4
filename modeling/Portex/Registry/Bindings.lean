import Portex.Registry.Slots
import Portex.Registry.Creation

/-!
# The bindings of the IM endpoints

A chat writes into the folder of its row, or into that of the workspace its row is bound to. The
group settings list the endpoints with the workspaces they are bound to.

## Main definitions

* `listImEndpointBindings`, `listGroupImBindings`: the listing
* `Wired`: what is bound is an IM endpoint, and bound to a web workspace
* `Accurate`: a listing says where messages go
* `Binds`, `Releases`: who may bind an endpoint, and who may release it

## Main results

* `target_perform`: what changes a binding
* `bindings_of_run`: the listing is accurate in every run
* `authority_of_run`: every binding was made by an owner that may access the workspace, and only
  such an owner of the former workspace makes way for another one
-/

namespace Portex

open Foundation

inductive BindingState
  | unbound | bound | orphaned
  deriving DecidableEq

structure GroupIMBindingStatus where
  imJid : String
  name : String
  channel : ImChannel
  fallbackGroupId : String
  bindingState : BindingState := .unbound
  targetGroupId : Option String := none
  targetGroupName : Option String := none
  boundToCurrentGroup : Bool := false
  deriving DecidableEq

/-- The folder that the listing says messages of the endpoint go to. -/
def GroupIMBindingStatus.destination (binding : GroupIMBindingStatus) : String :=
  binding.targetGroupId.getD binding.fallbackGroupId

/-- `_channel_from_jid`. -/
def channelFromJid (jid : String) : Option ImChannel :=
  if startsWith jid "telegram:" then some .telegram
  else if startsWith jid "feishu:" then some .feishu
  else none

namespace Registry

/-- The status of one endpoint. -/
def bindingStatus (group endpoint : RegisteredGroup) (channel : ImChannel) (r : Registry) :
    GroupIMBindingStatus :=
  let unbound : GroupIMBindingStatus :=
    { imJid := endpoint.jid, name := endpoint.name, channel, fallbackGroupId := endpoint.folder }
  match endpoint.targetWorkspaceJid with
  | none => unbound
  | some targetJid =>
    if targetJid = "" then unbound
    else
      match r.getRegisteredGroup targetJid with
      | none => { unbound with bindingState := .orphaned }
      | some target =>
        if ¬ startsWith target.jid "web:" then { unbound with bindingState := .orphaned }
        else
          { unbound with
            bindingState := .bound
            targetGroupId := some target.folder
            targetGroupName := some target.name
            boundToCurrentGroup := target.jid == group.jid }

def listImEndpointBindings (group : RegisteredGroup) (r : Registry) : List GroupIMBindingStatus :=
  (sortedBy RegisteredGroup.rank r.groups.rows).filterMap fun endpoint =>
    (channelFromJid endpoint.jid).map fun channel => r.bindingStatus group endpoint channel

def listGroupImBindings (user : AuthUser) (groupId : String) (r : Registry) :
    Except RouteError (List GroupIMBindingStatus) × Registry :=
  match requireOwnerBindingRole user with
  | .error error => (.error error, r)
  | .ok () =>
    match r.requireAccessibleWorkspace user groupId with
    | (.error error, r) => (.error error, r)
    | (.ok workspace, r) => (.ok (r.listImEndpointBindings workspace), r)

variable {r r' r'' : Registry} {cfg : AppConfig} {user : AuthUser} {jid : String}

/-- The jid that a row is bound to. -/
def targetOf (jid : String) (r : Registry) : Option String :=
  (r.groups.get? jid).bind RegisteredGroup.targetWorkspaceJid

/-! ## What changes a binding -/

/-- The rows stay, bound as they were; new ones are not bound. -/
structure KeepsTargets (r r' : Registry) : Prop where
  rows : ∀ jid group, r.groups.get? jid = some group → ∃ group', r'.groups.get? jid = some group'
  targets : ∀ jid, targetOf jid r' = targetOf jid r

theorem KeepsTargets.refl (r : Registry) : KeepsTargets r r :=
  ⟨fun _ group hget => ⟨group, hget⟩, fun _ => rfl⟩

theorem KeepsTargets.trans (h : KeepsTargets r r') (k : KeepsTargets r' r'') :
    KeepsTargets r r'' where
  rows jid group hget := by
    obtain ⟨group', hget'⟩ := h.rows jid group hget
    exact k.rows jid group' hget'
  targets jid := (k.targets jid).trans (h.targets jid)

theorem keepsTargets_of_groups (h : r'.groups = r.groups) : KeepsTargets r r' where
  rows jid group hget := ⟨group, by rw [h]; exact hget⟩
  targets jid := by
    unfold targetOf
    rw [h]

/-- A row is put that is bound as it was, or is new and not bound. -/
theorem keepsTargets_put {row : RegisteredGroup} (h : r'.groups = r.groups.put row)
    (htarget : row.targetWorkspaceJid = targetOf row.jid r) : KeepsTargets r r' where
  rows jid group hget := by
    rw [h, Table.get?_put]
    split
    · exact ⟨row, rfl⟩
    · exact ⟨group, hget⟩
  targets jid := by
    unfold targetOf
    rw [h, Table.get?_put]
    split
    · rename_i heq
      rw [heq]
      exact htarget
    · rfl

theorem targetOf_of_get? {row : RegisteredGroup} (h : r.groups.get? row.jid = some row) :
    targetOf row.jid r = row.targetWorkspaceJid := by
  rw [targetOf, h, Option.bind_some]

theorem keepsTargets_ensureRegisteredGroup (jid name folder : String) (createdBy : Option String)
    (isHome : Option Bool) (r : Registry) :
    KeepsTargets r (r.ensureRegisteredGroup jid name folder createdBy isHome none).2 := by
  have hput := (ensureRegisteredGroup_groups jid name folder createdBy isHome none r).groups
  apply keepsTargets_put hput
  rw [(ensureRegisteredGroup_row jid name folder createdBy isHome none r).1, targetOf]
  unfold ensureRegisteredGroup
  split
  · rename_i existing hexisting
    have hget : r.groups.get? jid = some existing := hexisting
    rw [hget]
    rfl
  · rename_i hnone
    have hget : r.groups.get? jid = none := hnone
    rw [hget]
    rfl

theorem keepsTargets_sendMessage (user : AuthUser) (request : SendMessageRequest) (runId : String)
    (r : Registry) : KeepsTargets r (r.sendMessage user request runId).2 := by
  have hhome : KeepsTargets r (r.ensureHomeWorkspace user).2 :=
    keepsTargets_ensureRegisteredGroup _ _ _ _ _ r
  have hresolve := hhome.trans (keepsTargets_of_groups
    (resolveHttpMessageTarget_spec user request.groupId request.slotId r).1.groups)
  unfold sendMessage
  split
  · rename_i hresult
    rwa [hresult] at hresolve
  · rename_i hresult
    rw [hresult] at hresolve
    split
    · exact hresolve
    · split
      · exact hresolve
      · exact hresolve.trans (keepsTargets_ensureRegisteredGroup _ _ _ _ _ _)

theorem keepsTargets_receiveMessage (message : InboundMessage) (runId : String) (r : Registry) :
    KeepsTargets r (receiveMessage cfg message runId r).2 := by
  unfold receiveMessage
  split
  · split
    · exact .refl r
    · exact .refl r
  · show KeepsTargets r (r.ensureImEndpoint message.chatJid message.chatJid _).2
    unfold ensureImEndpoint
    split
    · exact keepsTargets_of_groups (sameGroups_ensureMainSlot _ _ _).groups
    · exact keepsTargets_ensureRegisteredGroup _ _ _ _ _ r

theorem keepsTargets_createWorkspace (folder name createdBy : String) (r : Registry) :
    KeepsTargets r (r.createWorkspace folder name createdBy).2 := by
  have hgroups := createWorkspace_groups folder name createdBy r
  split at hgroups
  · have hensure := keepsTargets_ensureRegisteredGroup ("web:" ++ folder) name folder
      (some createdBy) (some false) r
    have hput := (ensureRegisteredGroup_groups ("web:" ++ folder) name folder (some createdBy)
      (some false) none r).groups
    exact hensure.trans (keepsTargets_of_groups (hgroups.trans hput.symm))
  · rw [hgroups]
    exact .refl r

theorem keepsTargets_renameWorkspace {workspace : RegisteredGroup} (name : String)
    (h : r.groups.get? workspace.jid = some workspace) :
    KeepsTargets r (r.renameWorkspace workspace name).2 := by
  unfold renameWorkspace
  split
  · exact .refl r
  · split
    · exact .refl r
    · apply keepsTargets_put rfl
      exact (targetOf_of_get? h).symm

theorem keepsTargets_updateGroup (groupId name : String) :
    KeepsTargets r (r.updateGroup user groupId name).2 := by
  unfold updateGroup
  split
  · exact .refl r
  · refine of_workspace (P := fun result => KeepsTargets r result.2) ?_ ?_
    · exact fun error r' hsame => keepsTargets_of_groups hsame.groups
    · intro workspace r' hsame hget
      refine (keepsTargets_of_groups hsame.groups).trans ?_
      have hrename := keepsTargets_renameWorkspace name hget
      split
      · exact hrename
      · split
        · exact .refl r'
        · exact hrename

/-- A route keeps the bindings if it does from its workspace on. -/
theorem keepsTargets_of_workspace {α : Type} {groupId : String}
    {route : RegisteredGroup → Registry → Except RouteError α × Registry}
    (h : ∀ workspace r', (route workspace r').2.groups = r'.groups) :
    KeepsTargets r (match r.requireAccessibleWorkspace user groupId with
      | (.error error, r) => ((.error error, r) : Except RouteError α × Registry)
      | (.ok workspace, r) => route workspace r).2 := by
  refine of_workspace (P := fun result => KeepsTargets r result.2) ?_ ?_
  · exact fun error r' hsame => keepsTargets_of_groups hsame.groups
  · exact fun workspace r' hsame _ =>
      keepsTargets_of_groups ((h workspace r').trans hsame.groups)

theorem keepsTargets_addGroupMember (groupId userId role : String) :
    KeepsTargets r (addGroupMember cfg user groupId userId role r).2 := by
  unfold addGroupMember
  split
  · exact .refl r
  · apply keepsTargets_of_workspace
    intro workspace r'
    split
    · rfl
    · split
      · rfl
      · split
        · rfl
        · split
          · rfl
          · exact addMember_groups _ _ _ _ r'

theorem keepsTargets_removeGroupMember (groupId userId : String) :
    KeepsTargets r (r.removeGroupMember user groupId userId).2 := by
  unfold removeGroupMember
  apply keepsTargets_of_workspace
  intro workspace r'
  have hremove :
      (finishRemoval (r'.removeMember workspace.folder userId)).2.groups = r'.groups := by
    rw [finishRemoval_snd, removeMember_groups]
  split
  · rfl
  · split
    · split
      · rfl
      · split
        · rfl
        · exact hremove
    · split
      · rfl
      · exact hremove

/-! ### Binding and releasing -/

/-- What is bound is an IM endpoint, and bound to a web row. -/
def Wired (r : Registry) : Prop :=
  ∀ jid target, targetOf jid r = some target → isImJid jid = true ∧
    startsWith target "web:" = true ∧ ∃ workspace, r.groups.get? target = some workspace

/-- An owner that may access the workspace binds an endpoint that is free. -/
def Binds (user : AuthUser) (groupId jid target : String) (r : Registry) : Prop :=
  user.role = "owner" ∧ targetOf jid r = none ∧ ∃ workspace,
    r.webWorkspace groupId = some workspace ∧ workspace.jid = target ∧
      r.userCanAccessGroup user workspace = true

/-- An owner that may access the workspace releases an endpoint that is bound to it. -/
def Releases (user : AuthUser) (groupId jid target : String) (r : Registry) : Prop :=
  user.role = "owner" ∧ targetOf jid r = some target ∧ ∃ workspace,
    r.webWorkspace groupId = some workspace ∧ workspace.jid = target ∧
      r.userCanAccessGroup user workspace = true

/-- One endpoint is bound otherwise than before. -/
structure Retargeted (jid : String) (target : Option String) (r r' : Registry) : Prop where
  rows : ∀ jid group, r.groups.get? jid = some group → ∃ group', r'.groups.get? jid = some group'
  target : targetOf jid r' = target
  others : ∀ other, other ≠ jid → targetOf other r' = targetOf other r

theorem retargeted_put (row : RegisteredGroup) (h : r'.groups = r.groups.put row) :
    Retargeted row.jid row.targetWorkspaceJid r r' where
  rows jid group hget := by
    rw [h, Table.get?_put]
    split
    · exact ⟨row, rfl⟩
    · exact ⟨group, hget⟩
  target := by
    rw [targetOf, h, Table.get?_put_self, Option.bind_some]
  others other hne := by
    rw [targetOf, targetOf, h, Table.get?_put_of_ne hne]

theorem requireAccessibleWorkspace_ok {groupId : String} {workspace : RegisteredGroup}
    (h : r.requireAccessibleWorkspace user groupId = (.ok workspace, r')) :
    SameGroups r r' ∧ r.webWorkspace groupId = some workspace ∧
      r.userCanAccessGroup user workspace = true := by
  obtain ⟨hfst, hsame⟩ := getWebWorkspaceByFolder_spec groupId r
  unfold requireAccessibleWorkspace at h
  split at h
  · cases h
  · rename_i found r₁ hfound
    rw [hfound] at hfst hsame
    split at h
    · cases h
    · rename_i haccess
      obtain ⟨hworkspace, rfl⟩ := Prod.mk.inj h
      obtain rfl := Except.ok.inj hworkspace
      rw [userCanAccessGroup_congr hsame, not_not] at haccess
      exact ⟨hsame, hfst.symm, haccess⟩

/-- An endpoint that is bound has a web workspace. -/
theorem Wired.boundWorkspace_ne_none (h : Wired r) {endpoint : RegisteredGroup} {target : String}
    (hget : r.groups.get? endpoint.jid = some endpoint)
    (htarget : endpoint.targetWorkspaceJid = some target) :
    ∃ workspace, r.groups.get? target = some workspace ∧
      r.boundWorkspace endpoint = some workspace := by
  obtain ⟨-, hweb, workspace, hworkspace⟩ :=
    h endpoint.jid target ((targetOf_of_get? hget).trans htarget)
  refine ⟨workspace, hworkspace, ?_⟩
  have hne : target ≠ "" := by
    rintro rfl
    exact absurd hweb (by decide)
  have hjid : workspace.jid = target := Table.key_of_get? hworkspace
  simp [boundWorkspace, htarget, hne, getRegisteredGroup, hworkspace, hjid, hweb]

/-- **Binding** binds a free endpoint, or changes nothing. -/
theorem bindGroupImEndpoint_cases (hwired : Wired r) (groupId imJid : String) :
    KeepsTargets r (r.bindGroupImEndpoint user groupId imJid).2 ∨ ∃ target,
      isImJid imJid = true ∧ Binds user groupId imJid target r ∧
        Retargeted imJid (some target) r (r.bindGroupImEndpoint user groupId imJid).2 := by
  unfold bindGroupImEndpoint requireOwnerBindingRole
  by_cases hrole : user.role = "owner"
  · rw [if_pos hrole]
    obtain ⟨hsame, -⟩ := requireAccessibleWorkspace_spec user groupId r
    simp only
    split
    · rename_i hresult
      rw [hresult] at hsame
      exact .inl (keepsTargets_of_groups hsame.groups)
    · rename_i workspace r₁ hresult
      obtain ⟨hsame, hworkspace, haccess⟩ := requireAccessibleWorkspace_ok hresult
      have hkeeps := keepsTargets_of_groups hsame.groups
      show KeepsTargets r (r₁.bindImEndpointToWorkspace workspace imJid).2 ∨ ∃ target, _ ∧ _ ∧
        Retargeted imJid (some target) r (r₁.bindImEndpointToWorkspace workspace imJid).2
      unfold bindImEndpointToWorkspace getRegisteredGroup
      rw [hsame.groups]
      split
      · exact .inl hkeeps
      · rename_i endpoint hget
        obtain rfl : endpoint.jid = imJid := Table.key_of_get? hget
        split
        · exact .inl hkeeps
        · rename_i him
          split
          · exact .inl hkeeps
          · split
            · exact .inl hkeeps
            · rename_i hunbound
              have hfree : endpoint.targetWorkspaceJid = none := by
                by_contra hne
                obtain ⟨target, htarget⟩ := Option.ne_none_iff_exists'.mp hne
                obtain ⟨bound, -, hbound⟩ := hwired.boundWorkspace_ne_none hget htarget
                have hbound' : r₁.boundWorkspace endpoint = some bound := by
                  rw [← hbound]
                  simp only [boundWorkspace, getRegisteredGroup, hsame.groups]
                rw [hbound'] at hunbound
                exact hunbound rfl
              have hbinds : Binds user groupId endpoint.jid workspace.jid r :=
                ⟨hrole, (targetOf_of_get? hget).trans hfree, workspace, hworkspace, rfl, haccess⟩
              refine .inr ⟨workspace.jid, not_not.mp him, hbinds, ?_⟩
              exact retargeted_put { endpoint with targetWorkspaceJid := some workspace.jid } rfl
  · rw [if_neg hrole]
    exact .inl (.refl r)

/-- **Releasing** releases an endpoint from its own workspace, or changes nothing. -/
theorem unbindGroupImEndpoint_cases (groupId imJid : String) :
    KeepsTargets r (r.unbindGroupImEndpoint user groupId imJid).2 ∨ ∃ target,
      Releases user groupId imJid target r ∧
        Retargeted imJid none r (r.unbindGroupImEndpoint user groupId imJid).2 := by
  unfold unbindGroupImEndpoint requireOwnerBindingRole
  by_cases hrole : user.role = "owner"
  · rw [if_pos hrole]
    obtain ⟨hsame, -⟩ := requireAccessibleWorkspace_spec user groupId r
    simp only
    split
    · rename_i hresult
      rw [hresult] at hsame
      exact .inl (keepsTargets_of_groups hsame.groups)
    · rename_i workspace r₁ hresult
      obtain ⟨hsame, hworkspace, haccess⟩ := requireAccessibleWorkspace_ok hresult
      have hkeeps := keepsTargets_of_groups hsame.groups
      show KeepsTargets r (r₁.unbindImEndpointFromWorkspace workspace imJid).2 ∨ ∃ target, _ ∧
        Retargeted imJid none r (r₁.unbindImEndpointFromWorkspace workspace imJid).2
      unfold unbindImEndpointFromWorkspace getRegisteredGroup
      rw [hsame.groups]
      split
      · exact .inl hkeeps
      · rename_i endpoint hget
        obtain rfl : endpoint.jid = imJid := Table.key_of_get? hget
        split
        · exact .inl hkeeps
        · split
          · exact .inl hkeeps
          · rename_i hbound
            refine .inr ⟨workspace.jid, ⟨hrole, (targetOf_of_get? hget).trans (not_not.mp hbound),
              workspace, hworkspace, rfl, haccess⟩, ?_⟩
            exact retargeted_put { endpoint with targetWorkspaceJid := none } rfl
  · rw [if_neg hrole]
    exact .inl (.refl r)

/-- **One request** binds one free endpoint, or releases one, or keeps all bindings. -/
theorem perform_cases (cfg : AppConfig) (hwired : Wired r) (a : Action) :
    KeepsTargets r (perform cfg r a) ∨
      (∃ user groupId jid target, a = .bindGroupImEndpoint user groupId jid ∧
        isImJid jid = true ∧ Binds user groupId jid target r ∧
          Retargeted jid (some target) r (perform cfg r a)) ∨
      ∃ user groupId jid target, a = .unbindGroupImEndpoint user groupId jid ∧
        Releases user groupId jid target r ∧ Retargeted jid none r (perform cfg r a) := by
  cases a with
  | sendMessage user request runId => exact .inl (keepsTargets_sendMessage user request runId r)
  | receiveMessage message runId => exact .inl (keepsTargets_receiveMessage message runId r)
  | createGroup user groupId name =>
    left
    show KeepsTargets r (r.createGroup user groupId name).2
    unfold createGroup
    split
    · exact .refl r
    · exact keepsTargets_createWorkspace groupId name user.id r
  | updateGroup user groupId name => exact .inl (keepsTargets_updateGroup groupId name)
  | bindGroupImEndpoint user groupId imJid =>
    rcases bindGroupImEndpoint_cases hwired groupId imJid with hkeeps | ⟨target, hbinds⟩
    · exact .inl hkeeps
    · exact .inr (.inl ⟨user, groupId, imJid, target, rfl, hbinds⟩)
  | unbindGroupImEndpoint user groupId imJid =>
    rcases unbindGroupImEndpoint_cases groupId imJid with hkeeps | ⟨target, hreleases⟩
    · exact .inl hkeeps
    · exact .inr (.inr ⟨user, groupId, imJid, target, rfl, hreleases⟩)
  | addGroupMember user groupId userId role =>
    exact .inl (keepsTargets_addGroupMember groupId userId role)
  | removeGroupMember user groupId userId =>
    exact .inl (keepsTargets_removeGroupMember groupId userId)
  | createGroupSlot user groupId slotId title =>
    exact .inl (keepsTargets_of_workspace fun workspace r' => createSlot_groups _ _ _ _ r')
  | listGroups user => exact .inl (keepsTargets_ensureRegisteredGroup _ _ _ _ _ r)
  | setClock now => exact .inl (keepsTargets_of_groups rfl)

theorem Wired.perform (h : Wired r) (cfg : AppConfig) (a : Action) : Wired (perform cfg r a) := by
  intro other target htarget
  -- The row that was bound is bound in what follows, and so is what it is bound to.
  have hold {jid target : String} (hrows : ∀ jid group, r.groups.get? jid = some group →
      ∃ group', (Registry.perform cfg r a).groups.get? jid = some group')
      (hbound : targetOf jid r = some target) : isImJid jid = true ∧
        startsWith target "web:" = true ∧
          ∃ workspace, (Registry.perform cfg r a).groups.get? target = some workspace := by
    obtain ⟨him, hweb, workspace, hget⟩ := h jid target hbound
    exact ⟨him, hweb, hrows target workspace hget⟩
  rcases perform_cases cfg h a with hkeeps |
    ⟨user, groupId, jid, bound, -, him, hbinds, hretargeted⟩ |
    ⟨user, groupId, jid, bound, -, -, hretargeted⟩
  · rw [hkeeps.targets] at htarget
    exact hold hkeeps.rows htarget
  · by_cases hother : other = jid
    · subst hother
      obtain rfl := Option.some.inj (hretargeted.target.symm.trans htarget)
      obtain ⟨-, -, workspace, hworkspace, rfl, -⟩ := hbinds
      obtain ⟨hget, -, hweb, -⟩ := webWorkspace_spec hworkspace
      exact ⟨him, hweb, hretargeted.rows _ workspace hget⟩
    · rw [hretargeted.others other hother] at htarget
      exact hold hretargeted.rows htarget
  · by_cases hother : other = jid
    · subst hother
      rw [hretargeted.target] at htarget
      cases htarget
    · rw [hretargeted.others other hother] at htarget
      exact hold hretargeted.rows htarget

theorem wired_of_run {l : List Action} (hr : Wired r)
    (h : Run (step cfg) (fun _ _ => True) r l r') : Wired r' := by
  refine h.invariant hr fun {t u a} ht _ hstep => ?_
  obtain rfl := Option.some.inj hstep
  exact ht.perform cfg a

theorem wired_empty : Wired {} := fun jid target htarget => by cases htarget

/-- What one request changes of the binding of one endpoint. -/
theorem Wired.target_perform (h : Wired r) (cfg : AppConfig) (a : Action) (jid : String) :
    targetOf jid (Registry.perform cfg r a) = targetOf jid r ∨
      (∃ user groupId target, a = .bindGroupImEndpoint user groupId jid ∧
        Binds user groupId jid target r ∧
          targetOf jid (Registry.perform cfg r a) = some target) ∨
      ∃ user groupId target, a = .unbindGroupImEndpoint user groupId jid ∧
        Releases user groupId jid target r ∧ targetOf jid (Registry.perform cfg r a) = none := by
  rcases perform_cases cfg h a with hkeeps | ⟨user, groupId, other, target, ha, -, hbinds, hafter⟩ |
    ⟨user, groupId, other, target, ha, hreleases, hafter⟩
  · exact .inl (hkeeps.targets jid)
  · by_cases hother : jid = other
    · subst hother
      exact .inr (.inl ⟨user, groupId, target, ha, hbinds, hafter.target⟩)
    · exact .inl (hafter.others jid hother)
  · by_cases hother : jid = other
    · subst hother
      exact .inr (.inr ⟨user, groupId, target, ha, hreleases, hafter.target⟩)
    · exact .inl (hafter.others jid hother)

/-- **Authority.** In every run, an endpoint that is bound was bound by an owner that may access
the workspace, when it was free, and has been bound to it since. It goes on being bound to it until
an owner that may access the same workspace releases it. -/
theorem authority_of_run {l m : List Action} (h : Run (step cfg) (fun _ _ => True) {} l r)
    (k : Run (step cfg) (fun _ _ => True) r m r') {target : String}
    (htarget : targetOf jid r = some target) :
    (∃ l₁ user groupId l₂ v, l = l₁ ++ .bindGroupImEndpoint user groupId jid :: l₂ ∧
        Run (step cfg) (fun _ _ => True) {} l₁ v ∧ Binds user groupId jid target v ∧
          Run (step cfg) (fun s _ => targetOf jid s = some target)
            (perform cfg v (.bindGroupImEndpoint user groupId jid)) l₂ r) ∧
      (targetOf jid r' = some target ∨ ∃ m₁ user groupId m₂ v,
        m = m₁ ++ .unbindGroupImEndpoint user groupId jid :: m₂ ∧
          Run (step cfg) (fun _ _ => True) r m₁ v ∧ Releases user groupId jid target v) := by
  constructor
  · obtain ⟨l₁, a, l₂, v, w, rfl, hv, -, hstep, hbefore, hafter, hrest⟩ :=
      h.exists_last_cause (P := fun s => targetOf jid s = some target) (by rintro ⟨⟩) htarget
    obtain rfl := Option.some.inj hstep
    rcases (wired_of_run wired_empty hv).target_perform cfg a jid with
      hsame | ⟨user, groupId, bound, rfl, hbinds, hbound⟩ | ⟨_, _, _, rfl, -, hreleased⟩
    · rw [hsame] at hafter
      exact absurd hafter hbefore
    · obtain rfl := Option.some.inj (hbound.symm.trans hafter)
      exact ⟨l₁, user, groupId, l₂, v, rfl, hv, hbinds, hrest.mono fun _ _ h => h.2⟩
    · rw [hreleased] at hafter
      cases hafter
  · by_cases hkept : targetOf jid r' = some target
    · exact .inl hkept
    · right
      obtain ⟨m₁, a, m₂, v, w, rfl, hv, -, hstep, hbefore, hafter⟩ :=
        k.exists_cause (P := fun s => targetOf jid s ≠ some target) (not_not.mpr htarget) hkept
      obtain rfl := Option.some.inj hstep
      have hbound := not_not.mp hbefore
      rcases (wired_of_run (wired_of_run wired_empty h) hv).target_perform cfg a jid with
        hsame | ⟨_, _, _, rfl, hbinds, -⟩ | ⟨user, groupId, released, rfl, hreleases, -⟩
      · exact absurd (hsame.trans hbound) hafter
      · -- Only what is free is bound.
        rw [hbinds.2.1] at hbound
        cases hbound
      · obtain rfl := Option.some.inj (hreleases.2.1.symm.trans hbound)
        exact ⟨m₁, user, groupId, m₂, v, rfl, hv, hreleases⟩

/-- A chat has written, and the owner binds it to the home workspace. -/
def chatBound : Registry :=
  perform chatConfig (perform chatConfig (perform chatConfig {} (.receiveMessage chatMessage "run"))
    (.listGroups creator)) (.bindGroupImEndpoint creator "main" "telegram:7")

theorem run_chatBound : Run (step chatConfig) (fun _ _ => True) {}
    [.receiveMessage chatMessage "run", .listGroups creator,
      .bindGroupImEndpoint creator "main" "telegram:7"] chatBound :=
  .snoc (.snoc (.single trivial rfl) trivial rfl) trivial rfl

theorem authority_of_run_chatBound : ∃ user v, Binds user "main" "telegram:7" "web:main" v ∧
    targetOf "telegram:7" chatBound = some "web:main" := by
  have htarget : targetOf "telegram:7" chatBound = some "web:main" := by decide
  obtain ⟨⟨l₁, user, groupId, l₂, v, hl, -, hbinds, -⟩, -⟩ :=
    authority_of_run run_chatBound .nil htarget
  have hmem : Action.bindGroupImEndpoint user groupId "telegram:7" ∈
      [Action.receiveMessage chatMessage "run", .listGroups creator,
        .bindGroupImEndpoint creator "main" "telegram:7"] := by
    rw [hl]
    exact List.mem_append_right _ List.mem_cons_self
  have hgroupId : groupId = "main" := by
    simp only [List.mem_cons, reduceCtorEq, Action.bindGroupImEndpoint.injEq, List.not_mem_nil,
      or_false, false_or] at hmem
    exact hmem.2.1
  rw [hgroupId] at hbinds
  exact ⟨user, v, hbinds, htarget⟩

/-! ## The listing -/

/-- A listing of the IM endpoints, for one workspace: it has each once, none is orphaned, and each
is listed with the folder its messages go to. -/
structure Accurate (group : RegisteredGroup) (bindings : List GroupIMBindingStatus)
    (r : Registry) : Prop where
  nodup : (bindings.map GroupIMBindingStatus.imJid).Nodup
  listed : ∀ jid, jid ∈ bindings.map GroupIMBindingStatus.imJid ↔
    isImJid jid = true ∧ ∃ endpoint, r.groups.get? jid = some endpoint
  bound : ∀ binding ∈ bindings, (binding.bindingState = .bound ∧ targetOf binding.imJid r ≠ none) ∨
    (binding.bindingState = .unbound ∧ targetOf binding.imJid r = none)
  routed : ∀ binding ∈ bindings, ∃ row, r.resolveImWorkspace binding.imJid = some row ∧
    row.folder = binding.destination ∧ (binding.boundToCurrentGroup = true ↔ row.jid = group.jid)

theorem isSome_channelFromJid (jid : String) : (channelFromJid jid).isSome = isImJid jid := by
  unfold channelFromJid isImJid
  split
  · rename_i htelegram
    simp [htelegram]
  · rename_i htelegram
    split
    · rename_i hfeishu
      simp [hfeishu]
    · rename_i hfeishu
      simp [htelegram, hfeishu]

@[simp] theorem bindingStatus_imJid (group endpoint : RegisteredGroup) (channel : ImChannel)
    (r : Registry) : (r.bindingStatus group endpoint channel).imJid = endpoint.jid := by
  unfold bindingStatus
  simp only
  split
  · rfl
  · split
    · rfl
    · split
      · rfl
      · split <;> rfl

theorem mem_listImEndpointBindings {group : RegisteredGroup} {binding : GroupIMBindingStatus} :
    binding ∈ r.listImEndpointBindings group ↔ ∃ endpoint channel,
      r.groups.get? endpoint.jid = some endpoint ∧ channelFromJid endpoint.jid = some channel ∧
        binding = r.bindingStatus group endpoint channel := by
  rw [listImEndpointBindings, List.mem_filterMap]
  constructor
  · rintro ⟨endpoint, hmem, hstatus⟩
    obtain ⟨channel, hchannel, rfl⟩ := Option.map_eq_some_iff.mp hstatus
    exact ⟨endpoint, channel, Table.mem_rows.mp (mem_sortedBy.mp hmem), hchannel, rfl⟩
  · rintro ⟨endpoint, channel, hget, hchannel, rfl⟩
    exact ⟨endpoint, mem_sortedBy.mpr (Table.mem_rows.mpr hget), by rw [hchannel]; rfl⟩

theorem nodup_imJid (group : RegisteredGroup) (r : Registry) :
    ((r.listImEndpointBindings group).map GroupIMBindingStatus.imJid).Nodup := by
  have hjids : ((sortedBy RegisteredGroup.rank r.groups.rows).map RegisteredGroup.jid).Nodup :=
    ((sortedBy_perm _ _).map _).nodup_iff.mpr r.groups.nodup_map_key
  refine hjids.sublist ?_
  rw [listImEndpointBindings]
  -- The listing leaves out rows, and has the others under their jids.
  induction sortedBy RegisteredGroup.rank r.groups.rows with
  | nil => exact .slnil
  | cons endpoint endpoints ih =>
    cases hchannel : channelFromJid endpoint.jid with
    | none =>
      rw [List.filterMap_cons_none (by rw [hchannel]; rfl)]
      exact ih.cons _
    | some channel =>
      rw [List.filterMap_cons_some (by rw [hchannel]; rfl), List.map_cons, bindingStatus_imJid]
      exact ih.cons_cons _

/-- An endpoint that is not bound is listed with its own folder, and served in it. -/
theorem bindingStatus_of_free {group endpoint : RegisteredGroup} {channel : ImChannel}
    (hget : r.groups.get? endpoint.jid = some endpoint)
    (hfree : endpoint.targetWorkspaceJid = none) :
    let binding := r.bindingStatus group endpoint channel
    binding.bindingState = .unbound ∧ binding.destination = endpoint.folder ∧
      binding.boundToCurrentGroup = false ∧ r.resolveImWorkspace endpoint.jid = some endpoint := by
  have hgroup : r.getRegisteredGroup endpoint.jid = some endpoint := hget
  simp [bindingStatus, hfree, GroupIMBindingStatus.destination, resolveImWorkspace, hgroup]

/-- One that is bound is listed with the folder of its workspace, and served in that. -/
theorem Wired.bindingStatus_of_bound (h : Wired r) {group endpoint : RegisteredGroup}
    {channel : ImChannel} {target : String} (hget : r.groups.get? endpoint.jid = some endpoint)
    (htarget : endpoint.targetWorkspaceJid = some target) :
    ∃ workspace, let binding := r.bindingStatus group endpoint channel
      r.groups.get? target = some workspace ∧ binding.bindingState = .bound ∧
        binding.destination = workspace.folder ∧
          (binding.boundToCurrentGroup = true ↔ workspace.jid = group.jid) ∧
            r.resolveImWorkspace endpoint.jid = some workspace := by
  obtain ⟨-, hweb, workspace, hworkspace⟩ :=
    h endpoint.jid target ((targetOf_of_get? hget).trans htarget)
  have hne : target ≠ "" := by
    rintro rfl
    exact absurd hweb (by decide)
  have hjid : workspace.jid = target := Table.key_of_get? hworkspace
  have hgroup : r.getRegisteredGroup endpoint.jid = some endpoint := hget
  have hbound : r.getRegisteredGroup target = some workspace := hworkspace
  refine ⟨workspace, hworkspace, ?_⟩
  simp [bindingStatus, htarget, hne, hbound, hjid, hweb, GroupIMBindingStatus.destination,
    resolveImWorkspace, hgroup]

theorem not_web_of_isImJid (h : isImJid jid = true) : startsWith jid "web:" = false := by
  unfold isImJid startsWith at h
  unfold startsWith
  -- The first letters are different.
  cases hjid : jid.toList with
  | nil => rfl
  | cons ch rest =>
    rw [hjid] at h
    by_cases hch : ch = 'w'
    · subst hch
      simp [List.isPrefixOf] at h
    · simp [List.isPrefixOf, Ne.symm hch]

theorem Wired.accurate (h : Wired r) {group : RegisteredGroup}
    (hgroup : startsWith group.jid "web:" = true) :
    Accurate group (r.listImEndpointBindings group) r where
  nodup := nodup_imJid group r
  listed jid := by
    rw [List.mem_map, ← isSome_channelFromJid, Option.isSome_iff_exists]
    constructor
    · rintro ⟨binding, hmem, rfl⟩
      obtain ⟨endpoint, channel, hget, hchannel, rfl⟩ := mem_listImEndpointBindings.mp hmem
      rw [bindingStatus_imJid]
      exact ⟨⟨channel, hchannel⟩, endpoint, hget⟩
    · rintro ⟨⟨channel, hchannel⟩, endpoint, hget⟩
      obtain rfl : endpoint.jid = jid := Table.key_of_get? hget
      exact ⟨_, mem_listImEndpointBindings.mpr ⟨endpoint, channel, hget, hchannel, rfl⟩,
        bindingStatus_imJid _ _ _ _⟩
  bound binding hmem := by
    obtain ⟨endpoint, channel, hget, hchannel, rfl⟩ := mem_listImEndpointBindings.mp hmem
    rw [bindingStatus_imJid, targetOf_of_get? hget]
    cases htarget : endpoint.targetWorkspaceJid with
    | none => exact .inr ⟨(bindingStatus_of_free hget htarget).1, rfl⟩
    | some target =>
      obtain ⟨_, -, hstate, -⟩ := h.bindingStatus_of_bound hget htarget
      exact .inl ⟨hstate, by simp⟩
  routed binding hmem := by
    obtain ⟨endpoint, channel, hget, hchannel, rfl⟩ := mem_listImEndpointBindings.mp hmem
    rw [bindingStatus_imJid]
    cases htarget : endpoint.targetWorkspaceJid with
    | none =>
      obtain ⟨-, hdestination, hcurrent, hresolve⟩ := bindingStatus_of_free hget htarget
      refine ⟨endpoint, hresolve, hdestination.symm, ?_⟩
      -- The row of an IM endpoint is no web row.
      have hne : endpoint.jid ≠ group.jid := by
        intro heq
        have him : isImJid endpoint.jid = true := by rw [← isSome_channelFromJid, hchannel]; rfl
        rw [← heq, not_web_of_isImJid him] at hgroup
        cases hgroup
      simp [hcurrent, hne]
    | some target =>
      obtain ⟨workspace, -, -, hdestination, hcurrent, hresolve⟩ :=
        h.bindingStatus_of_bound hget htarget
      exact ⟨workspace, hresolve, hdestination.symm, hcurrent⟩

theorem isImJid_chatJid (message : InboundMessage) : isImJid message.chatJid = true := by
  unfold isImJid InboundMessage.chatJid
  cases message.channel with
  | feishu => rw [startsWith_append, Bool.or_true]
  | telegram => rw [startsWith_append, Bool.true_or]

theorem resolveImWorkspace_congr (h : r'.groups = r.groups) (jid : String) :
    r'.resolveImWorkspace jid = r.resolveImWorkspace jid := by
  simp only [resolveImWorkspace, getRegisteredGroup, h]

/-- A new endpoint serves its messages itself. -/
theorem resolveImWorkspace_new {name folder : String} (hnone : r.getRegisteredGroup jid = none) :
    let registered := r.ensureRegisteredGroup jid name folder none none none
    registered.2.resolveImWorkspace jid =
      some { jid, name, folder, addedAt := r.now } := by
  have hrow : (r.ensureRegisteredGroup jid name folder none none none).1 =
      { jid, name, folder, addedAt := r.now } := by
    rw [ensureRegisteredGroup, hnone]
    rfl
  have hgroups := (ensureRegisteredGroup_groups jid name folder none none none r).groups
  simp only
  rw [resolveImWorkspace_congr hgroups, hrow]
  simp [resolveImWorkspace, getRegisteredGroup]

/-- The folder a message is submitted in. -/
theorem receiveMessage_ok (cfg : AppConfig) (r : Registry) {message : InboundMessage}
    (runId : String) (hblank : isBlank message.content = false) :
    ∃ submitted, (receiveMessage cfg message runId r).1 = .ok (some submitted) ∧
      submitted.groupFolder = ((r.resolveImWorkspace message.chatJid).map
        RegisteredGroup.folder).getD (buildGroupFolder cfg message.chatJid) := by
  have hresolve : (((r.ensureImEndpoint message.chatJid message.chatJid
      (buildGroupFolder cfg message.chatJid)).2.resolveImWorkspace message.chatJid).map
        RegisteredGroup.folder).getD (buildGroupFolder cfg message.chatJid) =
      ((r.resolveImWorkspace message.chatJid).map RegisteredGroup.folder).getD
        (buildGroupFolder cfg message.chatJid) := by
    unfold ensureImEndpoint
    split
    · rename_i existing _
      have hsame := (sameGroups_ensureMainSlot existing.folder existing.createdBy r).groups
      exact congrArg (fun found => (Option.map RegisteredGroup.folder found).getD _)
        (resolveImWorkspace_congr hsame message.chatJid)
    · -- A new row has the folder that was made for the chat.
      rename_i hnone
      have hold : r.resolveImWorkspace message.chatJid = none := by
        rw [resolveImWorkspace, hnone]
      rw [resolveImWorkspace_new hnone, hold]
      rfl
  unfold receiveMessage
  rw [hblank, ← hresolve]
  exact ⟨_, rfl, rfl⟩

theorem Wired.destination_eq (h : Wired r) {group : RegisteredGroup}
    (hgroup : startsWith group.jid "web:" = true) {jid : String} (him : isImJid jid = true)
    (fallback : String) :
    ((r.resolveImWorkspace jid).map RegisteredGroup.folder).getD fallback =
      (((r.listImEndpointBindings group).find? fun binding => binding.imJid = jid).map
        GroupIMBindingStatus.destination).getD fallback := by
  have haccurate := h.accurate hgroup
  cases hfind : (r.listImEndpointBindings group).find? fun binding => binding.imJid = jid with
  | none =>
    have hunlisted : jid ∉ (r.listImEndpointBindings group).map GroupIMBindingStatus.imJid := by
      rw [List.mem_map]
      rintro ⟨binding, hmem, heq⟩
      have hnot := List.find?_eq_none.mp hfind binding hmem
      exact hnot (by simpa using heq)
    rw [haccurate.listed] at hunlisted
    have hnone : r.getRegisteredGroup jid = none := by
      by_contra hne
      exact hunlisted ⟨him, Option.ne_none_iff_exists'.mp hne⟩
    rw [resolveImWorkspace, hnone]
    rfl
  | some binding =>
    have hjid : binding.imJid = jid := by simpa using List.find?_some hfind
    obtain ⟨row, hresolve, hfolder, -⟩ := haccurate.routed binding (List.mem_of_find?_eq_some hfind)
    rw [← hjid, hresolve, Option.map_some, Option.getD_some, hfolder]
    rfl

/-- **The listing** of an owner is accurate in every run: it has every IM endpoint once, and the
next message of any chat is submitted in the folder that it says. -/
theorem bindings_of_run {l : List Action} (h : Run (step cfg) (fun _ _ => True) {} l r)
    (hrole : user.role = "owner") {groupId : String} {workspace : RegisteredGroup}
    (hworkspace : r.webWorkspace groupId = some workspace)
    (haccess : r.userCanAccessGroup user workspace = true) :
    ∃ bindings, r.listGroupImBindings user groupId = (.ok bindings, r) ∧
      Accurate workspace bindings r ∧
        ∀ message runId, isBlank message.content = false →
          ∃ submitted, (receiveMessage cfg message runId r).1 = .ok (some submitted) ∧
            submitted.groupFolder =
              ((bindings.find? fun binding => binding.imJid = message.chatJid).map
                GroupIMBindingStatus.destination).getD (buildGroupFolder cfg message.chatJid) := by
  have hsettled : Settled r := settled_empty.advance (keepsSlots_of_run h)
  have hwired : Wired r := wired_of_run wired_empty h
  have hweb := (webWorkspace_spec hworkspace).2.2.1
  refine ⟨r.listImEndpointBindings workspace, ?_, hwired.accurate hweb,
    fun message runId hblank => ?_⟩
  · simp [listGroupImBindings, requireOwnerBindingRole, hrole, requireAccessibleWorkspace,
      hsettled.getWebWorkspaceByFolder_eq, hworkspace, haccess]
  · obtain ⟨submitted, hsubmitted, hfolder⟩ := receiveMessage_ok cfg r runId hblank
    refine ⟨submitted, hsubmitted, ?_⟩
    rw [hfolder, hwired.destination_eq hweb (isImJid_chatJid message)]

theorem bindings_of_run_chatBound : ∃ bindings,
    chatBound.listGroupImBindings creator "main" = (.ok bindings, chatBound) ∧
      (bindings.map GroupIMBindingStatus.imJid).Nodup := by
  obtain ⟨workspace, hworkspace⟩ : ∃ workspace, chatBound.webWorkspace "main" = some workspace :=
    Option.isSome_iff_exists.mp (by decide)
  have haccess : (chatBound.webWorkspace "main").all
      (chatBound.userCanAccessGroup creator) = true := by decide
  rw [hworkspace] at haccess
  obtain ⟨bindings, hlisted, haccurate, -⟩ :=
    bindings_of_run run_chatBound rfl hworkspace haccess
  exact ⟨bindings, hlisted, haccurate.nodup⟩

end Registry

end Portex
