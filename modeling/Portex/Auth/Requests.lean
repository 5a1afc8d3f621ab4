import Portex.Auth.Accounts

/-!
# Requests about users

The routes of `app/routes/auth.py` and `app/routes/users.py`, and the dependencies that guard them.
What a request may do depends on the role of the user that its token names, as it is at that time.

## Main definitions

* `hasPermission`: the permission templates
* `getCurrentUser`, `requirePermission`: the guards
* `UserRequest`, `respond`: the requests, and what they are answered
* `RoleOrigin`: where the role of a user comes from

## Main results

* `role_origin`: every role is given by a user who may do so
* `no_escalation`: where no one may, no one ever will
-/

namespace Portex

open Foundation

namespace Auth

/-- `PERMISSION_TEMPLATES`. -/
def permissionTemplates (role : String) : List (String × List String) :=
  if role = "owner" then
    [("users", ["read", "write", "delete", "admin"]), ("groups", ["read", "write", "delete"]),
      ("messages", ["read", "write"]), ("tasks", ["read", "write", "execute"]),
      ("settings", ["read", "write"])]
  else if role = "admin" then
    [("users", ["read", "write"]), ("groups", ["read", "write"]), ("messages", ["read", "write"]),
      ("tasks", ["read", "write", "execute"]), ("settings", ["read"])]
  else if role = "member" then
    [("groups", ["read"]), ("messages", ["read", "write"]), ("tasks", ["read"])]
  else []

/-- `has_permission`. -/
def hasPermission (role resource action : String) : Bool :=
  action ∈ ((permissionTemplates role).lookup resource).getD []

structure HttpError where
  statusCode : ℕ
  detail : String
  headers : List (String × String) := []
  deriving DecidableEq

/-! ## Guards -/

/-- `_unauthorized_error`. -/
def unauthorizedError : HttpError where
  statusCode := 401
  detail := "invalid or missing token"
  headers := [("WWW-Authenticate", "Bearer")]

/-- The bearer token of a request: `none` where there is none, and else what `decode_access_token`
makes of it. -/
abbrev Credentials := Option (Option String)

namespace AuthService

/-- `get_current_user`. -/
def getCurrentUser (credentials : Credentials) (s : AuthService) : Except HttpError AuthUser :=
  match credentials with
  | none => .error unauthorizedError
  | some none => .error unauthorizedError
  | some (some userId) =>
    match s.usersById.get? userId with
    | none => .error unauthorizedError
    | some user => .ok user

/-- `require_permission`. -/
def requirePermission (resource action : String) (credentials : Credentials) (s : AuthService) :
    Except HttpError AuthUser :=
  match s.getCurrentUser credentials with
  | .error error => .error error
  | .ok user =>
    -- no template is that of a null
    if user.role.any fun role => hasPermission role resource action then .ok user
    else .error { statusCode := 403, detail := "permission denied" }

end AuthService

/-! ## Routes -/

/-- What `get_registration_policy` returns. -/
structure RegistrationPolicy where
  allowRegistration : Bool := true
  requireInviteCode : Bool := false
  deriving DecidableEq

structure RegisterRequest where
  username : String
  password : String
  inviteCode : Option String := none
  deriving DecidableEq

/-- What a registration draws. -/
structure RegisterDraws where
  salt : List UInt8
  userId : String
  readings : Readings

/-- The call of `register_user`, whose role is the default one. -/
def RegisterRequest.call (scrypt : Scrypt) (request : RegisterRequest) (draws : RegisterDraws) :
    Registration where
  username := request.username
  passwordHash := String.ofList (hashPassword scrypt request.password.toList draws.salt)
  inviteCode := request.inviteCode
  userId := draws.userId
  readings := draws.readings

/-- `CreateInviteCodeRequest`. -/
structure CreateInviteCodeRequest where
  code : Option String := none
  role : String := "member"
  permissionTemplate : Option String := none
  expiresAt : Option Datetime := none
  deriving DecidableEq

/-- The call of `create_invite_code`. -/
def CreateInviteCodeRequest.call (request : CreateInviteCodeRequest) (createdBy drawn : String) :
    InviteCreation where
  createdBy := createdBy
  role := request.role
  permissionTemplate := request.permissionTemplate
  expiresAt := request.expiresAt
  code := request.code
  drawn := drawn

inductive UserRequest
  | register (policy : RegistrationPolicy) (request : RegisterRequest) (draws : RegisterDraws)
  | login (username password : String)
  | getMe (credentials : Credentials)
  | listUsers (credentials : Credentials)
  | updateUser (credentials : Credentials) (userId : String) (changes : UserChanges)
  | listInviteCodes (credentials : Credentials)
  | createInviteCode (credentials : Credentials) (request : CreateInviteCodeRequest)
      (drawn : String)

inductive UserResponse
  | error (error : HttpError)
  /-- An exception that no route handles. -/
  | internalServerError
  | registered (userId : String)
  /-- An access token for a user. -/
  | token (userId : String)
  | user (user : AuthUser)
  | users (users : List AuthUser)
  | invite (invite : AuthInviteCode)
  | invites (invites : List AuthInviteCode)
  deriving DecidableEq

/-- The fields that `UserResponse` requires are no nulls. -/
def AuthUser.valid (user : AuthUser) : Bool :=
  user.role.isSome && user.status.isSome && user.mustChangePassword.isSome

/-- `_to_user_response`: a field that is not valid raises a `ValidationError`. -/
def toUserResponse (user : AuthUser) : UserResponse :=
  if user.valid then .user user else .internalServerError

namespace AuthService

variable (scrypt : Scrypt)

/-- `POST /auth/register`. -/
def register (policy : RegistrationPolicy) (request : RegisterRequest) (draws : RegisterDraws)
    (s : AuthService) : UserResponse × AuthService :=
  if !policy.allowRegistration then
    (.error { statusCode := 403, detail := "registration is disabled" }, s)
  else if policy.requireInviteCode && (request.inviteCode.getD "" == "") then
    (.error { statusCode := 400, detail := "invite code is required by registration policy" }, s)
  else
    match s.registerUser (request.call scrypt draws) with
    | (.error (.userAlreadyExists _), s) =>
      (.error { statusCode := 409, detail := "username already exists" }, s)
    | (.error (.inviteCodeUnavailable _), s) =>
      (.error { statusCode := 400
                detail := "invite code is invalid, expired, or already used" }, s)
    | (.ok user, s) => (.registered user.id, s)

/-- `POST /auth/login`. -/
def login (username password : String) (s : AuthService) : UserResponse :=
  match s.authenticateUser scrypt username password.toList with
  | none => .error { statusCode := 401, detail := "invalid username or password" }
  | some user => .token user.id

/-- `PATCH /admin/users/{user_id}`, of a user that may. -/
def patchUser (userId : String) (changes : UserChanges) (s : AuthService) :
    UserResponse × AuthService :=
  match s.updateUser userId changes with
  | (.ok user, s) => (toUserResponse user, s)
  | (.error (.userNotFound _), s) =>
    (.error { statusCode := 404, detail := "user not found" }, s)
  | (.error _, s) => (.internalServerError, s)

/-- `GET /admin/users`, of a user that may. -/
def getUsers (s : AuthService) : UserResponse :=
  if s.listUsers.all AuthUser.valid then .users s.listUsers else .internalServerError

/-- `POST /admin/invites`, of a user that may. -/
def postInviteCode (createdBy : String) (request : CreateInviteCodeRequest) (drawn : String)
    (s : AuthService) : UserResponse × AuthService :=
  match s.createInviteCode (request.call createdBy drawn) with
  | (.ok invite, s) => (.invite invite, s)
  | (.error (.inviteCodeAlreadyExists _), s) =>
    (.error { statusCode := 409, detail := "invite code already exists" }, s)
  | (.error _, s) => (.internalServerError, s)

/-- A route behind a guard, which is asked first. -/
def guarded (guard : Except HttpError AuthUser) (s : AuthService)
    (route : AuthUser → UserResponse × AuthService) : UserResponse × AuthService :=
  match guard with
  | .error error => (.error error, s)
  | .ok user => route user

/-- A request: its response, and the service after it. -/
def respond (s : AuthService) : UserRequest → UserResponse × AuthService
  | .register policy request draws => s.register scrypt policy request draws
  | .login username password => (s.login scrypt username password, s)
  | .getMe credentials =>
    guarded (s.getCurrentUser credentials) s fun user => (toUserResponse user, s)
  | .listUsers credentials =>
    guarded (s.requirePermission "users" "read" credentials) s fun _ => (s.getUsers, s)
  | .updateUser credentials userId changes =>
    guarded (s.requirePermission "users" "write" credentials) s fun _ => s.patchUser userId changes
  | .listInviteCodes credentials =>
    guarded (s.requirePermission "users" "read" credentials) s fun _ =>
      (.invites s.listInviteCodes, s)
  | .createInviteCode credentials request drawn =>
    guarded (s.requirePermission "users" "write" credentials) s fun currentUser =>
      s.postInviteCode currentUser.id request drawn

/-- The service after a request. -/
def afterRequest (s : AuthService) (request : UserRequest) : Option AuthService :=
  some (s.respond scrypt request).2

end AuthService

/-- The runs of the service that requests make. -/
abbrev RequestRun (scrypt : Scrypt) (s : AuthService) (requests : List UserRequest)
    (t : AuthService) : Prop :=
  Run (AuthService.afterRequest scrypt) (fun _ _ => True) s requests t

/-! ## What a request changes -/

/-- The user has the role. -/
def HasRole (s : AuthService) (userId role : String) : Prop :=
  ∃ user, s.usersById.get? userId = some user ∧ user.role = some role

/-- There is an invite for the role that nobody has used. -/
def Invites (s : AuthService) (code role : String) : Prop :=
  ∃ invite, s.inviteCodesByCode.get? code = some invite ∧ invite.role = role ∧
    invite.usedBy = none ∧ invite.usedAt = none

/-- The request comes from a user that may change users. -/
def MayWrite (s : AuthService) (credentials : Credentials) : Prop :=
  ∃ actor, s.requirePermission "users" "write" credentials = .ok actor

/-- A request gives a role to a user. -/
inductive GivesRole (s : AuthService) : UserRequest → String → String → Prop
  | uninvited {policy : RegistrationPolicy} {request : RegisterRequest} {draws : RegisterDraws}
      (none : request.inviteCode = none) :
      GivesRole s (.register policy request draws) draws.userId "member"
  | invited {policy : RegistrationPolicy} {request : RegisterRequest} {draws : RegisterDraws}
      {code role : String} (given : request.inviteCode = some code) (invite : Invites s code role) :
      GivesRole s (.register policy request draws) draws.userId role
  | updated {credentials : Credentials} {userId role : String} {changes : UserChanges}
      (may : MayWrite s credentials) (changed : changes.role = some (some role)) :
      GivesRole s (.updateUser credentials userId changes) userId role

/-- A request makes an invite with that code for a role. -/
inductive GivesInvite (s : AuthService) : UserRequest → String → String → Prop
  | created {credentials : Credentials} {request : CreateInviteCodeRequest} {drawn : String}
      {actor : AuthUser} (may : s.requirePermission "users" "write" credentials = .ok actor)
      (free : s.inviteCodesByCode.get? (request.call actor.id drawn).effectiveCode = none) :
      GivesInvite s (.createInviteCode credentials request drawn)
        (request.call actor.id drawn).effectiveCode request.role

variable {s t : AuthService} {scrypt : Scrypt} {userId role code : String}
  {request : UserRequest} {requests : List UserRequest}

/-! ### Registrations -/

/-- A user that is saved. -/
theorem hasRole_saveUser {user : AuthUser} (passwordHash : String)
    (h : HasRole (s.saveUser user passwordHash) userId role) :
    HasRole s userId role ∨ userId = user.id ∧ user.role = some role := by
  obtain ⟨found, hfound, hrole⟩ := h
  rw [AuthService.saveUser, Dict.get?_insert] at hfound
  split at hfound
  · rename_i hid
    obtain rfl := Option.some.inj hfound
    exact .inr ⟨hid, hrole⟩
  · exact .inl ⟨found, hfound, hrole⟩

theorem register_snd (scrypt : Scrypt) (policy : RegistrationPolicy) (request : RegisterRequest)
    (draws : RegisterDraws) (s : AuthService) :
    (s.register scrypt policy request draws).2 = s ∨
      (s.register scrypt policy request draws).2 =
        (s.registerUser (request.call scrypt draws)).2 := by
  unfold AuthService.register
  split
  · exact .inl rfl
  · split
    · exact .inl rfl
    · right
      generalize s.registerUser (request.call scrypt draws) = result
      obtain ⟨answer | user, after⟩ := result
      · cases answer with
        | userAlreadyExists | inviteCodeUnavailable => rfl
      · rfl

theorem hasRole_register {policy : RegistrationPolicy} {request : RegisterRequest}
    {draws : RegisterDraws}
    (h : HasRole (s.register scrypt policy request draws).2 userId role) :
    HasRole s userId role ∨ GivesRole s (.register policy request draws) userId role := by
  rcases register_snd scrypt policy request draws s with hsame | hafter
  · rw [hsame] at h
    exact .inl h
  · rw [hafter] at h
    have hregisters := AuthService.registerUser_registers (request.call scrypt draws) s
    generalize (s.registerUser (request.call scrypt draws)).2 = after at hregisters h
    generalize (s.registerUser (request.call scrypt draws)).1 = answer at hregisters
    cases hregisters with
    | refused error why => exact .inl h
    | uninvited free none =>
      rcases hasRole_saveUser _ h with hold | ⟨rfl, hrole⟩
      · exact .inl hold
      · obtain rfl := Option.some.inj hrole
        exact .inr (.uninvited none)
    | invited free given available still =>
      -- The use of the invite changes no user.
      rcases hasRole_saveUser (request.call scrypt draws).passwordHash h with hold | ⟨rfl, hrole⟩
      · exact .inl hold
      · exact .inr (.invited given ⟨_, available.found, Option.some.inj hrole, available.unused⟩)
    | lapsed error free given available lapsed =>
      -- The user stays, though the registration raised.
      rcases hasRole_saveUser _ h with hold | ⟨rfl, hrole⟩
      · exact .inl hold
      · exact .inr (.invited given ⟨_, available.found, Option.some.inj hrole, available.unused⟩)

theorem invites_register {policy : RegistrationPolicy} {request : RegisterRequest}
    {draws : RegisterDraws}
    (h : Invites (s.register scrypt policy request draws).2 code role) : Invites s code role := by
  rcases register_snd scrypt policy request draws s with hsame | hafter
  · rwa [hsame] at h
  · rw [hafter] at h
    have hregisters := AuthService.registerUser_registers (request.call scrypt draws) s
    generalize (s.registerUser (request.call scrypt draws)).2 = after at hregisters h
    generalize (s.registerUser (request.call scrypt draws)).1 = answer at hregisters
    cases hregisters with
    | refused | uninvited | lapsed => exact h
    | invited free given available still =>
      obtain ⟨invite, hinvite, hrole, husedBy, husedAt⟩ := h
      rw [Dict.get?_insert] at hinvite
      split at hinvite
      · -- The invite is used now.
        obtain rfl := Option.some.inj hinvite
        cases husedBy
      · exact ⟨invite, hinvite, hrole, husedBy, husedAt⟩

/-! ### Changes by users that may -/

theorem patchUser_snd (target : String) (changes : UserChanges) (s : AuthService) :
    (s.patchUser target changes).2 = (s.updateUser target changes).2 := by
  unfold AuthService.patchUser
  generalize s.updateUser target changes = result
  obtain ⟨answer | user, after⟩ := result
  · cases answer with
    | auth | userNotFound | key | inviteCodeAlreadyExists => rfl
  · rfl

/-- An update changes nothing, or the user that it is about. -/
theorem updateUser_cases (target : String) (changes : UserChanges) (s : AuthService) :
    (s.updateUser target changes).2 = s ∨ ∃ current, s.usersById.get? target = some current ∧
      (s.updateUser target changes).2.usersById =
        s.usersById.insert target (changes.apply current) ∧
      (s.updateUser target changes).2.inviteCodesByCode = s.inviteCodesByCode := by
  unfold AuthService.updateUser
  cases hcurrent : s.usersById.get? target with
  | none => exact .inl rfl
  | some current =>
    dsimp only
    split
    · exact .inl rfl
    · exact .inr ⟨current, rfl, rfl, rfl⟩

theorem hasRole_patchUser {target : String} {changes : UserChanges}
    (h : HasRole (s.patchUser target changes).2 userId role) :
    HasRole s userId role ∨ userId = target ∧ changes.role = some (some role) := by
  rw [patchUser_snd] at h
  rcases updateUser_cases target changes s with hsame | ⟨current, hcurrent, hids, -⟩
  · rw [hsame] at h
    exact .inl h
  · obtain ⟨user, huser, hrole⟩ := h
    rw [hids, Dict.get?_insert] at huser
    split at huser
    · rename_i hid
      obtain rfl := Option.some.inj huser
      rw [hid]
      -- The role is the one of the change, or the one from before.
      cases hchange : changes.role with
      | none =>
        simp only [UserChanges.apply, hchange, Option.getD_none] at hrole
        exact .inl ⟨current, hcurrent, hrole⟩
      | some change =>
        simp only [UserChanges.apply, hchange, Option.getD_some] at hrole
        exact .inr ⟨rfl, congrArg some hrole⟩
    · exact .inl ⟨user, huser, hrole⟩

theorem invites_patchUser {target : String} {changes : UserChanges}
    (h : Invites (s.patchUser target changes).2 code role) : Invites s code role := by
  rw [patchUser_snd] at h
  rcases updateUser_cases target changes s with hsame | ⟨current, -, -, hinvites⟩
  · rwa [hsame] at h
  · unfold Invites at h
    rwa [hinvites] at h

theorem postInviteCode_snd (createdBy : String) (request : CreateInviteCodeRequest)
    (drawn : String) (s : AuthService) : (s.postInviteCode createdBy request drawn).2 =
      (s.createInviteCode (request.call createdBy drawn)).2 := by
  unfold AuthService.postInviteCode
  generalize s.createInviteCode (request.call createdBy drawn) = result
  obtain ⟨answer | invite, after⟩ := result
  · cases answer with
    | auth | userNotFound | key | inviteCodeAlreadyExists => rfl
  · rfl

theorem invites_postInviteCode {createdBy drawn : String} {request : CreateInviteCodeRequest}
    (h : Invites (s.postInviteCode createdBy request drawn).2 code role) :
    Invites s code role ∨ code = (request.call createdBy drawn).effectiveCode ∧
      role = request.role ∧
        s.inviteCodesByCode.get? (request.call createdBy drawn).effectiveCode = none := by
  rw [postInviteCode_snd, AuthService.createInviteCode] at h
  split at h
  · exact .inl h
  · rename_i hfree
    obtain ⟨invite, hinvite, hrole, hunused⟩ := h
    rw [Dict.get?_insert] at hinvite
    split at hinvite
    · rename_i hcode
      obtain rfl := Option.some.inj hinvite
      exact .inr ⟨hcode, hrole.symm, Option.not_isSome_iff_eq_none.mp hfree⟩
    · exact .inl ⟨invite, hinvite, hrole, hunused⟩

theorem hasRole_postInviteCode {createdBy drawn : String} {request : CreateInviteCodeRequest}
    (h : HasRole (s.postInviteCode createdBy request drawn).2 userId role) :
    HasRole s userId role := by
  unfold HasRole at h
  rwa [postInviteCode_snd, (createInviteCode_users s _).2] at h

/-! ### Requests -/

/-- Behind a guard nothing happens, or what the route does. -/
theorem guarded_snd (guard : Except HttpError AuthUser) (s : AuthService)
    (route : AuthUser → UserResponse × AuthService) :
    (AuthService.guarded guard s route).2 = s ∨
      ∃ user, guard = .ok user ∧ (AuthService.guarded guard s route).2 = (route user).2 := by
  cases guard with
  | error error => exact .inl rfl
  | ok user => exact .inr ⟨user, rfl, rfl⟩

/-- What a request can do to the service. -/
inductive Changes (scrypt : Scrypt) (s : AuthService) : UserRequest → AuthService → Prop
  | nothing (request : UserRequest) : Changes scrypt s request s
  | registered (policy : RegistrationPolicy) (request : RegisterRequest) (draws : RegisterDraws) :
      Changes scrypt s (.register policy request draws)
        (s.register scrypt policy request draws).2
  | patched {credentials : Credentials} (may : MayWrite s credentials) (target : String)
      (changes : UserChanges) :
      Changes scrypt s (.updateUser credentials target changes) (s.patchUser target changes).2
  | invited {credentials : Credentials} {actor : AuthUser}
      (may : s.requirePermission "users" "write" credentials = .ok actor)
      (request : CreateInviteCodeRequest) (drawn : String) :
      Changes scrypt s (.createInviteCode credentials request drawn)
        (s.postInviteCode actor.id request drawn).2

theorem respond_changes (scrypt : Scrypt) (s : AuthService) (request : UserRequest) :
    Changes scrypt s request (s.respond scrypt request).2 := by
  cases request with
  | register policy request draws => exact .registered policy request draws
  | login username password => exact .nothing _
  | getMe credentials =>
    rcases guarded_snd (s.getCurrentUser credentials) s fun user => (toUserResponse user, s) with
      hsame | ⟨user, -, hroute⟩
    · exact hsame.symm ▸ .nothing _
    · exact hroute.symm ▸ .nothing _
  | listUsers credentials =>
    rcases guarded_snd (s.requirePermission "users" "read" credentials) s fun _ =>
        (s.getUsers, s) with hsame | ⟨user, -, hroute⟩
    · exact hsame.symm ▸ .nothing _
    · exact hroute.symm ▸ .nothing _
  | listInviteCodes credentials =>
    rcases guarded_snd (s.requirePermission "users" "read" credentials) s fun _ =>
        (.invites s.listInviteCodes, s) with hsame | ⟨user, -, hroute⟩
    · exact hsame.symm ▸ .nothing _
    · exact hroute.symm ▸ .nothing _
  | updateUser credentials target changes =>
    rcases guarded_snd (s.requirePermission "users" "write" credentials) s fun _ =>
        s.patchUser target changes with hsame | ⟨user, hmay, hroute⟩
    · exact hsame.symm ▸ .nothing _
    · exact hroute.symm ▸ .patched ⟨user, hmay⟩ target changes
  | createInviteCode credentials request drawn =>
    rcases guarded_snd (s.requirePermission "users" "write" credentials) s fun currentUser =>
        s.postInviteCode currentUser.id request drawn with hsame | ⟨user, hmay, hroute⟩
    · exact hsame.symm ▸ .nothing _
    · exact hroute.symm ▸ .invited hmay request drawn

/-- **Who gives a role.** A user has a role that it had before, or that the request gives it. -/
theorem hasRole_respond (h : HasRole (s.respond scrypt request).2 userId role) :
    HasRole s userId role ∨ GivesRole s request userId role := by
  have hchanges := respond_changes scrypt s request
  generalize (s.respond scrypt request).2 = after at hchanges h
  cases hchanges with
  | nothing => exact .inl h
  | registered policy request draws => exact hasRole_register h
  | patched may target changes =>
    rcases hasRole_patchUser h with hold | ⟨rfl, hrole⟩
    · exact .inl hold
    · exact .inr (.updated may hrole)
  | invited may request drawn => exact .inl (hasRole_postInviteCode h)

/-- **Who makes an invite.** -/
theorem invites_respond (h : Invites (s.respond scrypt request).2 code role) :
    Invites s code role ∨ GivesInvite s request code role := by
  have hchanges := respond_changes scrypt s request
  generalize (s.respond scrypt request).2 = after at hchanges h
  cases hchanges with
  | nothing => exact .inl h
  | registered policy request draws => exact .inl (invites_register h)
  | patched may target changes => exact .inl (invites_patchUser h)
  | invited may request drawn =>
    rcases invites_postInviteCode h with hold | ⟨rfl, rfl, hfree⟩
    · exact .inl hold
    · exact .inr (.created may hfree)

/-! ## Runs -/

/-- Where the role of a user comes from: it was there at the beginning; or a request gave it, in the
state that it came to; and if that was a registration with an invite, that invite was there at the
beginning, or a request of a user that might do so made it before, under its code. -/
inductive RoleOrigin (scrypt : Scrypt) (s : AuthService) (requests : List UserRequest)
    (userId role : String) : Prop
  | initial (has : HasRole s userId role)
  | uninvited {before after : List UserRequest} {v : AuthService} {policy : RegistrationPolicy}
      {request : RegisterRequest} {draws : RegisterDraws}
      (split : requests = before ++ .register policy request draws :: after)
      (run : RequestRun scrypt s before v) (none : request.inviteCode = none)
      (same : draws.userId = userId) (member : role = "member")
  | invited {before after : List UserRequest} {v : AuthService} {policy : RegistrationPolicy}
      {request : RegisterRequest} {draws : RegisterDraws} {code : String}
      (split : requests = before ++ .register policy request draws :: after)
      (run : RequestRun scrypt s before v) (given : request.inviteCode = some code)
      (same : draws.userId = userId) (invite : Invites v code role)
      (made : Invites s code role ∨ ∃ earlier later w made, before = earlier ++ made :: later ∧
        RequestRun scrypt s earlier w ∧ GivesInvite w made code role)
  | updated {before after : List UserRequest} {v : AuthService} {credentials : Credentials}
      {changes : UserChanges}
      (split : requests = before ++ .updateUser credentials userId changes :: after)
      (run : RequestRun scrypt s before v) (may : MayWrite v credentials)
      (changed : changes.role = some (some role))

theorem invite_origin (h : RequestRun scrypt s requests t) (hinvites : Invites t code role) :
    Invites s code role ∨ ∃ earlier later w made, requests = earlier ++ made :: later ∧
      RequestRun scrypt s earlier w ∧ GivesInvite w made code role := by
  by_cases hs : Invites s code role
  · exact .inl hs
  · obtain ⟨earlier, made, later, w, w', hsplit, hrun, -, hstep, hbefore, hafter⟩ :=
      h.exists_cause (P := fun s => Invites s code role) hs hinvites
    obtain rfl := Option.some.inj hstep
    exact .inr ⟨earlier, later, w, made, hsplit, hrun,
      (invites_respond hafter).resolve_left hbefore⟩

/-- **The origin of a role.** Over any run of requests, each user has its role from the beginning,
from a registration without an invite, or from a user that was allowed to give it. -/
theorem role_origin (h : RequestRun scrypt s requests t) (hrole : HasRole t userId role) :
    RoleOrigin scrypt s requests userId role := by
  by_cases hs : HasRole s userId role
  · exact .initial hs
  · -- The first request after which the user has the role is the one that gives it.
    obtain ⟨before, request, after, v, w, hsplit, hrun, -, hstep, hnot, hhas⟩ :=
      h.exists_cause (P := fun s => HasRole s userId role) hs hrole
    obtain rfl := Option.some.inj hstep
    cases (hasRole_respond hhas).resolve_left hnot with
    | uninvited hnone => exact .uninvited hsplit hrun hnone rfl rfl
    | invited given invite =>
      exact .invited hsplit hrun given rfl invite (invite_origin hrun invite)
    | updated may changed => exact .updated hsplit hrun may changed

/-! ## Escalation -/

/-- There is a user that may change users, or an invite, not used yet, that would make one. -/
def Privileged (s : AuthService) : Prop :=
  ∃ role, hasPermission role "users" "write" = true ∧
    ((∃ userId, HasRole s userId role) ∨ ∃ code, Invites s code role)

theorem requirePermission_eq_ok {resource action : String} {credentials : Credentials}
    {user : AuthUser} (h : s.requirePermission resource action credentials = .ok user) :
    ∃ role, hasPermission role resource action = true ∧ ∃ userId, HasRole s userId role := by
  unfold AuthService.requirePermission at h
  cases hcurrent : s.getCurrentUser credentials with
  | error error =>
    rw [hcurrent] at h
    cases h
  | ok current =>
    rw [hcurrent] at h
    dsimp only at h
    split at h
    · rename_i hpermission
      obtain ⟨role, hrole, hpermission⟩ := (Option.any_eq_true ..).mp hpermission
      refine ⟨role, hpermission, ?_⟩
      -- The current user is the account that the credentials name.
      unfold AuthService.getCurrentUser at hcurrent
      split at hcurrent
      · cases hcurrent
      · cases hcurrent
      · rename_i userId
        split at hcurrent
        · cases hcurrent
        · rename_i found hfound
          obtain rfl := Except.ok.inj hcurrent
          exact ⟨userId, found, hfound, hrole⟩
    · cases h

theorem MayWrite.privileged {credentials : Credentials} (h : MayWrite s credentials) :
    Privileged s := by
  obtain ⟨actor, hactor⟩ := h
  obtain ⟨role, hpermission, hhas⟩ := requirePermission_eq_ok hactor
  exact ⟨role, hpermission, .inl hhas⟩

/-- Only who has the privilege can give it. -/
theorem privileged_respond (h : Privileged (s.respond scrypt request).2) : Privileged s := by
  obtain ⟨role, hrole, ⟨userId, hhas⟩ | ⟨code, hinvites⟩⟩ := h
  · rcases hasRole_respond hhas with hold | hgives
    · exact ⟨role, hrole, .inl ⟨userId, hold⟩⟩
    · cases hgives with
      | uninvited hnone => exact absurd hrole (by decide)
      | invited given invite => exact ⟨role, hrole, .inr ⟨_, invite⟩⟩
      | updated may changed => exact may.privileged
  · rcases invites_respond hinvites with hold | hgives
    · exact ⟨role, hrole, .inr ⟨code, hold⟩⟩
    · cases hgives with
      | created may => exact MayWrite.privileged ⟨_, may⟩

/-- What a route of administrators answers to whoever is none. -/
def Refused : UserResponse → Prop
  | .error error => error = unauthorizedError ∨
      error = { statusCode := 403, detail := "permission denied" }
  | _ => False

/-- The request is for administrators. -/
def UserRequest.administers : UserRequest → Bool
  | .listUsers _ | .updateUser .. | .listInviteCodes _ | .createInviteCode .. => true
  | _ => false

theorem requirePermission_error {resource action : String} {credentials : Credentials}
    {error : HttpError} (h : s.requirePermission resource action credentials = .error error) :
    Refused (.error error) := by
  unfold AuthService.requirePermission at h
  cases hcurrent : s.getCurrentUser credentials with
  | error error' =>
    rw [hcurrent] at h
    obtain rfl := Except.error.inj h
    unfold AuthService.getCurrentUser at hcurrent
    split at hcurrent
    · exact .inl (Except.error.inj hcurrent).symm
    · exact .inl (Except.error.inj hcurrent).symm
    · split at hcurrent
      · exact .inl (Except.error.inj hcurrent).symm
      · cases hcurrent
  | ok current =>
    rw [hcurrent] at h
    dsimp only at h
    split at h
    · cases h
    · exact .inr (Except.error.inj h).symm

/-- Every role that may see the users may change them. -/
theorem write_of_read {role : String} (h : hasPermission role "users" "read" = true) :
    hasPermission role "users" "write" = true := by
  unfold hasPermission permissionTemplates at h
  split at h
  · rename_i howner
    rw [howner]
    decide
  · split at h
    · rename_i hadmin
      rw [hadmin]
      decide
    · split at h
      · exact absurd h (by decide)
      · exact absurd h (by decide)

theorem guarded_refused {action : String} {credentials : Credentials}
    {route : AuthUser → UserResponse × AuthService} (h : ¬ Privileged s)
    (hwrite : ∀ role, hasPermission role "users" action = true →
      hasPermission role "users" "write" = true) :
    Refused (AuthService.guarded (s.requirePermission "users" action credentials) s route).1 := by
  cases hguard : s.requirePermission "users" action credentials with
  | error error => exact requirePermission_error hguard
  | ok user =>
    obtain ⟨role, hpermission, hhas⟩ := requirePermission_eq_ok hguard
    exact absurd ⟨role, hwrite _ hpermission, .inl hhas⟩ h

theorem respond_refused (h : ¬ Privileged s) (hadministers : request.administers = true) :
    Refused (s.respond scrypt request).1 := by
  cases request with
  | register | login | getMe => cases hadministers
  | listUsers credentials => exact guarded_refused h fun _ => write_of_read
  | listInviteCodes credentials => exact guarded_refused h fun _ => write_of_read
  | updateUser credentials target changes => exact guarded_refused h fun _ => id
  | createInviteCode credentials request drawn => exact guarded_refused h fun _ => id

/-- **No escalation.** Where no user has the privilege to change users and no invite gives it that
is not used, no run of requests gives it to anyone, and every request for administrators is refused.
So it is from the empty service. -/
theorem no_escalation (h : RequestRun scrypt s requests t) (hs : ¬ Privileged s) :
    ¬ Privileged t ∧ ∀ before request after v, requests = before ++ request :: after →
      RequestRun scrypt s before v → request.administers = true →
        Refused (v.respond scrypt request).1 := by
  have hkept {l : List UserRequest} {v : AuthService} (hrun : RequestRun scrypt s l v) :
      ¬ Privileged v :=
    hrun.invariant (I := fun v => ¬ Privileged v) hs fun hnot _ hstep hprivileged => by
      obtain rfl := Option.some.inj hstep
      exact hnot (privileged_respond hprivileged)
  exact ⟨hkept h, fun _ _ _ v _ hrun hadministers => respond_refused (hkept hrun) hadministers⟩

/-! ### Examples -/

def exampleDraws : RegisterDraws where
  salt := List.replicate 16 0
  userId := "u1"
  readings := exampleReadings

/-- A user registers, and tries to be an owner. -/
def exampleRequests : List UserRequest :=
  [.register {} { username := "ada", password := "secret" } exampleDraws,
    .updateUser (some (some "u1")) "u1" { role := some (some "owner") }]

/-- The invite of an owner has been used. -/
def spentService : AuthService where
  inviteCodesByCode := (∅ : Dict String AuthInviteCode).insert "first"
    { code := "first", createdBy := "u0", role := "owner", usedBy := some "u0", usedAt := some 0 }

/-- A user tries the invite, and registers without it. -/
def spentRequests : List UserRequest :=
  .register {} { username := "ada", password := "secret", inviteCode := some "first" }
    exampleDraws :: exampleRequests

theorem not_privileged_spentService : ¬ Privileged spentService := by
  rintro ⟨role, -, ⟨userId, user, hfound, -⟩ | ⟨code, invite, hfound, -, hunused, -⟩⟩
  · cases hfound
  · rw [spentService, Dict.get?_insert] at hfound
    split at hfound
    · obtain rfl := Option.some.inj hfound
      cases hunused
    · cases hfound

theorem no_escalation_spentService :
    ∃ t, RequestRun exampleScrypt spentService spentRequests t ∧ (¬ Privileged t ∧
      ∀ before request after v, spentRequests = before ++ request :: after →
        RequestRun exampleScrypt spentService before v → request.administers = true →
          Refused (v.respond exampleScrypt request).1) := by
  have hrun : RequestRun exampleScrypt spentService spentRequests _ := Run.of_execute (by decide)
  exact ⟨_, hrun, no_escalation hrun not_privileged_spentService⟩

/-- There is an owner. -/
def ownedService : AuthService :=
  AuthService.saveUser
    { id := "u0", username := "eve", role := some "owner", status := some "active" } "" {}

/-- The owner invites an administrator. -/
def invitingRequests : List UserRequest :=
  [.createInviteCode (some (some "u0")) { code := some "welcome", role := "admin" } "",
    .register {} { username := "ada", password := "secret", inviteCode := some "welcome" }
      exampleDraws]

theorem role_origin_ada : ∃ t, RequestRun exampleScrypt ownedService invitingRequests t ∧
    RoleOrigin exampleScrypt ownedService invitingRequests "u1" "admin" := by
  have hrun : RequestRun exampleScrypt ownedService invitingRequests _ :=
    Run.of_execute (by decide)
  exact ⟨_, hrun, role_origin hrun ⟨_, rfl, rfl⟩⟩

end Auth

end Portex
