import Portex.Registry.State

/-!
# The services of the group registry

`GroupRegistryService`, `GroupMemberService` and `ConversationSlotService`, each method as a
function of the database. A method that raises may have committed before, so it answers with the
database also then.

## Main definitions

* `ensureRegisteredGroup`, `ensureHomeWorkspace`, `ensureImEndpoint`, `createWorkspace`,
  `renameWorkspace`, `bindImEndpointToWorkspace`, `unbindImEndpointFromWorkspace`: the writes
* `getWebWorkspaceByFolder`, `resolveImWorkspace`: the lookups
* `userCanAccessGroup`, `userCanManageMembers`: the access rules
* `addMember`, `removeMember`: the memberships
-/

namespace Portex

open Foundation

inductive RegistryError
  /-- `GroupRegistryConflictError`. -/
  | conflict (detail : String)
  /-- `ValueError`. -/
  | value (detail : String)
  /-- `LookupError`. -/
  | lookup (detail : String)
  deriving DecidableEq

/-- The user a request is authenticated as. -/
structure AuthUser where
  id : String
  username : String
  role : String
  deriving DecidableEq

/-- The order of `(added_at, jid)`; strings are compared by their characters. -/
def RegisteredGroup.precedes (group group' : RegisteredGroup) : Bool :=
  group.addedAt < group'.addedAt ||
    (group.addedAt == group'.addedAt && group.jid.toList < group'.jid.toList)

namespace Registry

/-! ## Slots -/

def getSlot (workspaceFolder slotId : String) (r : Registry) : Option ConversationSlot :=
  r.slots.get? (workspaceFolder, slotId)

def ensureMainSlot (workspaceFolder : String) (createdBy : Option String) (r : Registry) :
    Registry :=
  match r.getSlot workspaceFolder "main" with
  | some existing =>
    if existing.createdBy = none ∧ createdBy ≠ none then
      { r with slots := r.slots.put ({ existing with createdBy }) }
    else r
  | none =>
    let slot : ConversationSlot :=
      { workspaceFolder, slotId := "main", title := "Main", createdBy, createdAt := r.now }
    { r with slots := r.slots.put slot }

def createSlot (workspaceFolder slotId title : String) (createdBy : Option String) (r : Registry) :
    Except RegistryError ConversationSlot × Registry :=
  if slotId = "main" then (.error (.value "slot_id 'main' is reserved"), r)
  else if ¬ isSlug slotId then (.error (.value "invalid slot_id"), r)
  else
    match r.getSlot workspaceFolder slotId with
    | some existing => (.ok existing, r)
    | none =>
      let slot : ConversationSlot :=
        { workspaceFolder, slotId, title, createdBy, createdAt := r.now }
      (.ok slot, { r with slots := r.slots.put slot })

def ensureMainSlotForWorkspace (group : RegisteredGroup) (r : Registry) : Registry :=
  r.ensureMainSlot group.folder group.createdBy

/-! ## Members -/

/-- `VALID_GROUP_MEMBER_ROLES`. -/
def validGroupMemberRoles : List String := ["owner", "admin", "member"]

def getMember (groupFolder userId : String) (r : Registry) : Option GroupMember :=
  r.members.get? (groupFolder, userId)

def addMember (groupFolder userId role : String) (addedBy : Option String) (r : Registry) :
    Except RegistryError GroupMember × Registry :=
  if role ∉ validGroupMemberRoles then
    (.error (.value ("invalid group member role: " ++ role)), r)
  else
    match r.getMember groupFolder userId with
    | some existing =>
      if role = "owner" ∧ existing.role ≠ "owner" ∨ role ≠ "owner" ∧ existing.role = "owner" then
        (.error (.value "owner role changes are not supported"), r)
      else
        let member : GroupMember := { existing with role }
        (.ok member, { r with members := r.members.put member })
    | none =>
      let member : GroupMember := { groupFolder, userId, role, joinedAt := r.now, addedBy }
      (.ok member, { r with members := r.members.put member })

def removeMember (groupFolder userId : String) (r : Registry) :
    Except RegistryError Bool × Registry :=
  match r.getMember groupFolder userId with
  | none => (.ok false, r)
  | some member =>
    if member.role = "owner" then (.error (.value "group owner cannot be removed"), r)
    else (.ok true, { r with members := r.members.erase (groupFolder, userId) })

/-! ## Groups -/

def getRegisteredGroup (jid : String) (r : Registry) : Option RegisteredGroup := r.groups.get? jid

/-- The upsert: `isHome` and `targetWorkspaceJid` are optional arguments. -/
def ensureRegisteredGroup (jid name folder : String) (createdBy : Option String)
    (isHome : Option Bool) (targetWorkspaceJid : Option (Option String)) (r : Registry) :
    RegisteredGroup × Registry :=
  match r.getRegisteredGroup jid with
  | some existing =>
    let group : RegisteredGroup := { existing with
      name, folder
      createdBy := if existing.createdBy = none then createdBy else existing.createdBy
      isHome := if isHome = some true then true else existing.isHome
      targetWorkspaceJid := targetWorkspaceJid.getD existing.targetWorkspaceJid }
    (group, ensureMainSlotForWorkspace group { r with groups := r.groups.put group })
  | none =>
    let group : RegisteredGroup :=
      { jid, name, folder, addedAt := r.now, createdBy, isHome := isHome.getD false,
        targetWorkspaceJid := targetWorkspaceJid.getD none }
    (group, ensureMainSlotForWorkspace group { r with groups := r.groups.put group })

def ensureImEndpoint (jid name folder : String) (r : Registry) : RegisteredGroup × Registry :=
  match r.getRegisteredGroup jid with
  | some existing => (existing, r.ensureMainSlotForWorkspace existing)
  | none => r.ensureRegisteredGroup jid name folder none none none

/-- The jid of the home workspace of a user. -/
def homeJid (user : AuthUser) : String :=
  if user.role = "owner" then "web:main" else "web:home-" ++ user.id

def homeName (user : AuthUser) : String :=
  if user.role = "owner" then "Main" else user.username ++ " Home"

def homeFolder (user : AuthUser) : String :=
  if user.role = "owner" then "main" else "home-" ++ user.id

def ensureHomeWorkspace (user : AuthUser) (r : Registry) : RegisteredGroup × Registry :=
  r.ensureRegisteredGroup (homeJid user) (homeName user) (homeFolder user) (some user.id)
    (some true) none

/-- The first of some rows in the order of `(added_at, jid)`. -/
def earliest : List RegisteredGroup → Option RegisteredGroup
  | [] => none
  | group :: groups =>
    match earliest groups with
    | none => some group
    | some group' => if group'.precedes group then some group' else some group

def validateWorkspaceFolder (folder : String) : Except RegistryError Unit :=
  if folder = "main" ∨ startsWith folder "home-" then .error (.value "reserved workspace folder")
  else if ¬ isSlug folder then .error (.value "invalid workspace folder")
  else .ok ()

/-- `_get_group_by_folder`. -/
def getGroupByFolder (folder : String) (r : Registry) : Option RegisteredGroup :=
  earliest (r.groups.rows.filter fun group => group.folder = folder)

def createWorkspace (folder name createdBy : String) (r : Registry) :
    Except RegistryError RegisteredGroup × Registry :=
  match validateWorkspaceFolder folder with
  | .error error => (.error error, r)
  | .ok () =>
    match r.getGroupByFolder folder with
    | some _ => (.error (.conflict "workspace already exists"), r)
    | none =>
      let (workspace, r) := r.ensureRegisteredGroup ("web:" ++ folder) name folder (some createdBy)
        (some false) none
      match r.addMember folder createdBy "owner" (some createdBy) with
      | (.error error, r) => (.error error, r)
      | (.ok _, r) => (.ok workspace, r)

def renameWorkspace (group : RegisteredGroup) (name : String) (r : Registry) :
    Except RegistryError RegisteredGroup × Registry :=
  if group.isHome then (.error (.value "home workspaces cannot be renamed"), r)
  else if ¬ startsWith group.jid "web:" then
    (.error (.value "only canonical web workspaces can be renamed"), r)
  else
    let group := { group with name }
    (.ok group, { r with groups := r.groups.put group })

/-- The web row that a folder names: the first of them. -/
def webWorkspace (folder : String) (r : Registry) : Option RegisteredGroup :=
  earliest (r.groups.rows.filter fun group => group.folder = folder && startsWith group.jid "web:")

def getWebWorkspaceByFolder (folder : String) (r : Registry) :
    Option RegisteredGroup × Registry :=
  match r.webWorkspace folder with
  | none => (none, r)
  | some workspace => (some workspace, r.ensureMainSlotForWorkspace workspace)

def resolveImWorkspace (jid : String) (r : Registry) : Option RegisteredGroup :=
  match r.getRegisteredGroup jid with
  | none => none
  | some endpoint =>
    match endpoint.targetWorkspaceJid with
    | none => some endpoint
    | some target =>
      if target = "" then some endpoint
      else
        match r.getRegisteredGroup target with
        | none => some endpoint
        | some bound => if startsWith bound.jid "web:" then some bound else some endpoint

/-- `_channel_from_jid(jid) is not None`. -/
def isImJid (jid : String) : Bool := startsWith jid "telegram:" || startsWith jid "feishu:"

/-- The web workspace that an endpoint is bound to. -/
def boundWorkspace (endpoint : RegisteredGroup) (r : Registry) : Option RegisteredGroup :=
  match endpoint.targetWorkspaceJid with
  | none => none
  | some target =>
    if target = "" then none
    else (r.getRegisteredGroup target).filter fun bound => startsWith bound.jid "web:"

def bindImEndpointToWorkspace (group : RegisteredGroup) (imJid : String) (r : Registry) :
    Except RegistryError RegisteredGroup × Registry :=
  match r.getRegisteredGroup imJid with
  | none => (.error (.lookup "IM endpoint not found"), r)
  | some endpoint =>
    if ¬ isImJid endpoint.jid then (.error (.value "group is not an IM endpoint"), r)
    else if endpoint.targetWorkspaceJid = some group.jid then (.ok endpoint, r)
    else if (r.boundWorkspace endpoint).isSome then
      (.error (.conflict "IM endpoint is already bound elsewhere"), r)
    else
      let endpoint := { endpoint with targetWorkspaceJid := some group.jid }
      (.ok endpoint, { r with groups := r.groups.put endpoint })

def unbindImEndpointFromWorkspace (group : RegisteredGroup) (imJid : String) (r : Registry) :
    Except RegistryError RegisteredGroup × Registry :=
  match r.getRegisteredGroup imJid with
  | none => (.error (.lookup "IM endpoint not found"), r)
  | some endpoint =>
    if ¬ isImJid endpoint.jid then (.error (.value "group is not an IM endpoint"), r)
    else if endpoint.targetWorkspaceJid ≠ some group.jid then
      (.error (.value "IM endpoint is not bound to this workspace"), r)
    else
      let endpoint := { endpoint with targetWorkspaceJid := none }
      (.ok endpoint, { r with groups := r.groups.put endpoint })

/-! ## Access -/

/-- `user_can_access_group` on home and web rows. -/
def userCanAccessWebGroup (user : AuthUser) (group : RegisteredGroup) (r : Registry) : Bool :=
  if group.isHome then
    (group.jid == "web:main" && group.folder == "main" && user.role == "owner") ||
      group.createdBy == some user.id
  else group.createdBy == some user.id || (r.getMember group.folder user.id).isSome

/-- `user_can_access_group`. The recursive call is made on a web row. -/
def userCanAccessGroup (user : AuthUser) (group : RegisteredGroup) (r : Registry) : Bool :=
  if group.isHome || startsWith group.jid "web:" then r.userCanAccessWebGroup user group
  else
    match group.targetWorkspaceJid with
    | none => group.createdBy == some user.id
    | some target =>
      if target = "" then group.createdBy == some user.id
      else
        match r.resolveImWorkspace group.jid with
        | none => group.createdBy == some user.id
        | some bound =>
          if bound.jid ≠ group.jid then r.userCanAccessWebGroup user bound
          else group.createdBy == some user.id

def userCanManageMembers (user : AuthUser) (group : RegisteredGroup) : Bool :=
  !group.isHome && startsWith group.jid "web:" && group.createdBy == some user.id

end Registry

end Portex
