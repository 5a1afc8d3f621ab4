import Portex.Registry.Service
import Portex.Coordinator.State
import Portex.Foundation.Transition

/-!
# The routes over the group registry

The handlers of `app/routes/messages.py`, `app/routes/im.py` and `app/routes/groups.py` that read
or write the registry, one request at a time. A dispatched message ends here with the request that
is submitted to the coordinator.

## Main definitions

* `sendMessage`, `receiveMessage`: a message by HTTP and by an IM channel
* `createGroup`, `updateGroup`, `addGroupMember`, `removeGroupMember`, `bindGroupImEndpoint`,
  `unbindGroupImEndpoint`, `createGroupSlot`, `listGroups`: the group routes
* `Registry.Action`, `Registry.step`: one request
-/

namespace Portex

open Foundation

/-- What the application is built with. -/
structure AppConfig where
  /-- `sha1(text.encode("utf-8")).hexdigest()`. -/
  sha1Hexdigest : String → String
  /-- `auth_service.get_user_by_id(user_id) is not None`. -/
  userExists : String → Bool

inductive RouteError
  | http (statusCode : ℕ) (detail : String)
  /-- A validation error of `UnifiedMessage`, which no handler catches. -/
  | validation
  deriving DecidableEq

structure SendMessageRequest where
  groupId : String
  content : String
  slotId : String := "main"
  executionMode : Option String := none
  content_ne : content ≠ "" := by decide
  slotId_ne : slotId ≠ "" := by decide
  deriving DecidableEq

inductive ImChannel
  | feishu | telegram
  deriving DecidableEq

/-- What an IM channel delivers. -/
structure InboundMessage where
  channel : ImChannel
  chatId : String
  senderId : String
  content : String
  deriving DecidableEq

def InboundMessage.chatJid (message : InboundMessage) : String :=
  match message.channel with
  | .feishu => "feishu:" ++ message.chatId
  | .telegram => "telegram:" ++ message.chatId

/-- `PERMISSION_TEMPLATES`, for the resource `groups`. -/
def groupPermissions (role : String) : List String :=
  if role = "owner" then ["read", "write", "delete"]
  else if role = "admin" then ["read", "write"]
  else if role = "member" then ["read"]
  else []

namespace Registry

variable (cfg : AppConfig)

/-! ## Messages by HTTP -/

/-- `_resolve_http_message_target`: the chat jid and the folder of a message. -/
def resolveHttpMessageTarget (user : AuthUser) (groupId slotId : String) (r : Registry) :
    Except RouteError (String × String) × Registry :=
  let (_, r) := r.ensureHomeWorkspace user
  match r.getWebWorkspaceByFolder groupId with
  | (some workspace, r) =>
    if ¬ r.userCanAccessGroup user workspace then (.error (.http 404 "group not found"), r)
    else if slotId ≠ "main" ∧ r.getSlot workspace.folder slotId = none then
      (.error (.http 404 "slot not found"), r)
    else (.ok (workspace.jid, workspace.folder), r)
  | (none, r) =>
    if slotId ≠ "main" then (.error (.http 404 "slot not found"), r)
    else (.ok (groupId, groupId), r)

/-- `register_target` of a web message: the group is named after its folder. -/
def registerTarget (chatJid groupFolder senderId : String) (r : Registry) : Registry :=
  (r.ensureRegisteredGroup chatJid groupFolder groupFolder (some senderId) none none).2

/-- `POST /messages`, up to the submission of its run. -/
def sendMessage (user : AuthUser) (request : SendMessageRequest) (runId : String) (r : Registry) :
    Except RouteError ExecutionRequest × Registry :=
  match r.resolveHttpMessageTarget user request.groupId request.slotId with
  | (.error error, r) => (.error error, r)
  | (.ok (chatJid, groupFolder), r) =>
    if chatJid = "" then (.error .validation, r)
    else if isBlank request.content then (.error (.http 400 "message content cannot be empty"), r)
    else
      let submitted : ExecutionRequest :=
        { requestId := some runId, groupFolder, chatJid, userId := user.id,
          prompt := request.content, source := .web, slotId := request.slotId,
          requestedMode := request.executionMode }
      (.ok submitted, r.registerTarget chatJid groupFolder user.id)

/-! ## Messages by IM -/

/-- `_build_group_folder`. -/
def buildGroupFolder (chatJid : String) : String :=
  "chat-" ++ String.ofList ((cfg.sha1Hexdigest chatJid).toList.take 12)

/-- The webhook of an IM channel, up to the submission of the run. A blank text is ignored by the
Telegram route, and an error of the Feishu route. -/
def receiveMessage (message : InboundMessage) (runId : String) (r : Registry) :
    Except RouteError (Option ExecutionRequest) × Registry :=
  if isBlank message.content then
    match message.channel with
    | .telegram => (.ok none, r)
    | .feishu => (.error (.http 400 "message content cannot be empty"), r)
  else
    let folder := buildGroupFolder cfg message.chatJid
    let (_, r) := r.ensureImEndpoint message.chatJid message.chatJid folder
    let groupFolder := ((r.resolveImWorkspace message.chatJid).map RegisteredGroup.folder).getD folder
    let submitted : ExecutionRequest :=
      { requestId := some runId, groupFolder, chatJid := message.chatJid,
        userId := message.senderId, prompt := message.content, source := .im }
    (.ok (some submitted), r)

/-! ## Groups -/

/-- The status code a registry error is mapped to. -/
def mapRegistryError : RegistryError → RouteError
  | .conflict detail => .http 409 detail
  | .lookup detail => .http 404 detail
  | .value detail => .http 400 detail

def mapResult {α : Type} (result : Except RegistryError α × Registry) :
    Except RouteError α × Registry :=
  (result.1.mapError mapRegistryError, result.2)

/-- `require_permission("groups", permission)`. -/
def requirePermission (user : AuthUser) (permission : String) : Except RouteError Unit :=
  if permission ∈ groupPermissions user.role then .ok ()
  else .error (.http 403 "permission denied")

def requireAccessibleWorkspace (user : AuthUser) (groupId : String) (r : Registry) :
    Except RouteError RegisteredGroup × Registry :=
  match r.getWebWorkspaceByFolder groupId with
  | (none, r) => (.error (.http 404 "group not found"), r)
  | (some workspace, r) =>
    if ¬ r.userCanAccessGroup user workspace then (.error (.http 404 "group not found"), r)
    else (.ok workspace, r)

def listGroups (user : AuthUser) (r : Registry) : Registry := (r.ensureHomeWorkspace user).2

def createGroup (user : AuthUser) (groupId name : String) (r : Registry) :
    Except RouteError RegisteredGroup × Registry :=
  match requirePermission user "write" with
  | .error error => (.error error, r)
  | .ok () => mapResult (r.createWorkspace groupId name user.id)

def updateGroup (user : AuthUser) (groupId name : String) (r : Registry) :
    Except RouteError RegisteredGroup × Registry :=
  match requirePermission user "write" with
  | .error error => (.error error, r)
  | .ok () =>
    match r.requireAccessibleWorkspace user groupId with
    | (.error error, r) => (.error error, r)
    | (.ok workspace, r) =>
      if workspace.isHome then mapResult (r.renameWorkspace workspace name)
      else if ¬ userCanManageMembers user workspace then (.error (.http 403 "permission denied"), r)
      else mapResult (r.renameWorkspace workspace name)

def createGroupSlot (user : AuthUser) (groupId slotId title : String) (r : Registry) :
    Except RouteError ConversationSlot × Registry :=
  match r.requireAccessibleWorkspace user groupId with
  | (.error error, r) => (.error error, r)
  | (.ok workspace, r) => mapResult (r.createSlot workspace.folder slotId title (some user.id))

/-- `_require_owner_binding_role`. -/
def requireOwnerBindingRole (user : AuthUser) : Except RouteError Unit :=
  if user.role = "owner" then .ok () else .error (.http 403 "permission denied")

def bindGroupImEndpoint (user : AuthUser) (groupId imJid : String) (r : Registry) :
    Except RouteError RegisteredGroup × Registry :=
  match requireOwnerBindingRole user with
  | .error error => (.error error, r)
  | .ok () =>
    match r.requireAccessibleWorkspace user groupId with
    | (.error error, r) => (.error error, r)
    | (.ok workspace, r) => mapResult (r.bindImEndpointToWorkspace workspace imJid)

def unbindGroupImEndpoint (user : AuthUser) (groupId imJid : String) (r : Registry) :
    Except RouteError RegisteredGroup × Registry :=
  match requireOwnerBindingRole user with
  | .error error => (.error error, r)
  | .ok () =>
    match r.requireAccessibleWorkspace user groupId with
    | (.error error, r) => (.error error, r)
    | (.ok workspace, r) => mapResult (r.unbindImEndpointFromWorkspace workspace imJid)

/-- `_ensure_owner_role_change_supported`. -/
def ensureOwnerRoleChangeSupported (groupFolder userId requestedRole : String) (r : Registry) :
    Except RouteError Unit :=
  let isOwner := (r.getMember groupFolder userId).any fun member => member.role = "owner"
  if (requestedRole = "owner") = (isOwner = true) then .ok ()
  else .error (.http 400 "owner role changes are not supported")

def addGroupMember (user : AuthUser) (groupId userId role : String) (r : Registry) :
    Except RouteError GroupMember × Registry :=
  match requirePermission user "write" with
  | .error error => (.error error, r)
  | .ok () =>
    match r.requireAccessibleWorkspace user groupId with
    | (.error error, r) => (.error error, r)
    | (.ok workspace, r) =>
      if workspace.isHome then
        (.error (.http 400 "home workspaces do not support member management"), r)
      else if ¬ userCanManageMembers user workspace then (.error (.http 403 "permission denied"), r)
      else if ¬ cfg.userExists userId then (.error (.http 404 "user not found"), r)
      else
        match r.ensureOwnerRoleChangeSupported workspace.folder userId role with
        | .error error => (.error error, r)
        | .ok () => mapResult (r.addMember workspace.folder userId role (some user.id))

/-- The end of `remove_group_member`. -/
def finishRemoval (result : Except RegistryError Bool × Registry) :
    Except RouteError Unit × Registry :=
  match mapResult result with
  | (.error error, r) => (.error error, r)
  | (.ok removed, r) =>
    if removed then (.ok (), r) else (.error (.http 404 "group member not found"), r)

def removeGroupMember (user : AuthUser) (groupId userId : String) (r : Registry) :
    Except RouteError Unit × Registry :=
  match r.requireAccessibleWorkspace user groupId with
  | (.error error, r) => (.error error, r)
  | (.ok workspace, r) =>
    if workspace.isHome then
      (.error (.http 400 "home workspaces do not support member management"), r)
    else if userId = user.id then
      match r.getMember workspace.folder user.id with
      | none => (.error (.http 404 "group member not found"), r)
      | some member =>
        if member.role = "owner" then (.error (.http 400 "group owner cannot remove self"), r)
        else finishRemoval (r.removeMember workspace.folder userId)
    else if ¬ userCanManageMembers user workspace then (.error (.http 403 "permission denied"), r)
    else finishRemoval (r.removeMember workspace.folder userId)

/-! ## Requests -/

inductive Action
  | sendMessage (user : AuthUser) (request : SendMessageRequest) (runId : String)
  | receiveMessage (message : InboundMessage) (runId : String)
  | createGroup (user : AuthUser) (groupId name : String)
  | updateGroup (user : AuthUser) (groupId name : String)
  | bindGroupImEndpoint (user : AuthUser) (groupId imJid : String)
  | unbindGroupImEndpoint (user : AuthUser) (groupId imJid : String)
  | addGroupMember (user : AuthUser) (groupId userId role : String)
  | removeGroupMember (user : AuthUser) (groupId userId : String)
  | createGroupSlot (user : AuthUser) (groupId slotId title : String)
  /-- `GET /groups`, and the registration of a user, see to the home workspace. -/
  | listGroups (user : AuthUser)
  | setClock (now : ℕ)
  deriving DecidableEq

/-- The registry after a request. -/
def perform (r : Registry) : Action → Registry
  | .sendMessage user request runId => (r.sendMessage user request runId).2
  | .receiveMessage message runId => (receiveMessage cfg message runId r).2
  | .createGroup user groupId name => (r.createGroup user groupId name).2
  | .updateGroup user groupId name => (r.updateGroup user groupId name).2
  | .bindGroupImEndpoint user groupId imJid => (r.bindGroupImEndpoint user groupId imJid).2
  | .unbindGroupImEndpoint user groupId imJid => (r.unbindGroupImEndpoint user groupId imJid).2
  | .addGroupMember user groupId userId role => (addGroupMember cfg user groupId userId role r).2
  | .removeGroupMember user groupId userId => (r.removeGroupMember user groupId userId).2
  | .createGroupSlot user groupId slotId title => (r.createGroupSlot user groupId slotId title).2
  | .listGroups user => r.listGroups user
  | .setClock now => { r with now }

/-- Every request can be made in every state. -/
def step (r : Registry) (a : Action) : Option Registry := some (perform cfg r a)

end Registry

end Portex
