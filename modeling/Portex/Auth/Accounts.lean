import Portex.Foundation.Index
import Portex.Foundation.SortKey
import Portex.Foundation.Transition
import Portex.Auth.Passwords
import Portex.Auth.Registration

/-!
# Accounts

The service of `services/auth.py` keeps its users in two dictionaries, by username and by id, and
every method updates both. It is a refinement of one table of accounts, in the order in which they
registered.

## Main definitions

* `updateUser`, `authenticateUser`, `listUsers`, `createInviteCode`: the other methods
* `ServiceCall`, `AuthService.perform`: the calls of the service
* `AccountTable`, `AccountTable.perform`: the same calls on one table
* `Tabulates`: both dictionaries are indexes of the table

## Main results

* `one_table`: over any run, the service answers as the table does
-/

namespace Portex

open Foundation

namespace Auth

/-- The fields that `update_user` accepts; what a call does not name is `none`, and a null is
`some none`. -/
structure UserChanges where
  role : Option (Option String) := none
  status : Option (Option String) := none
  avatarEmoji : Option (Option String) := none
  avatarColor : Option (Option String) := none
  aiName : Option (Option String) := none
  aiAvatarEmoji : Option (Option String) := none
  mustChangePassword : Option (Option Bool) := none
  disableReason : Option (Option String) := none
  notes : Option (Option String) := none
  deriving DecidableEq

/-- `replace(current_user, **updated_fields)`. -/
def UserChanges.apply (changes : UserChanges) (user : AuthUser) : AuthUser :=
  { user with
    role := changes.role.getD user.role
    status := changes.status.getD user.status
    avatarEmoji := changes.avatarEmoji.getD user.avatarEmoji
    avatarColor := changes.avatarColor.getD user.avatarColor
    aiName := changes.aiName.getD user.aiName
    aiAvatarEmoji := changes.aiAvatarEmoji.getD user.aiAvatarEmoji
    mustChangePassword := changes.mustChangePassword.getD user.mustChangePassword
    disableReason := changes.disableReason.getD user.disableReason
    notes := changes.notes.getD user.notes }

/-- What `create_invite_code` is called with, and the code that it draws. -/
structure InviteCreation where
  createdBy : String
  role : String := "member"
  permissionTemplate : Option String := none
  expiresAt : Option Datetime := none
  code : Option String := none
  drawn : String
  deriving DecidableEq

/-- `code or uuid4().hex[:12]`. -/
def InviteCreation.effectiveCode (call : InviteCreation) : String :=
  match call.code with
  | none => call.drawn
  | some code => if code = "" then call.drawn else code

def InviteCreation.invite (call : InviteCreation) : AuthInviteCode :=
  { code := call.effectiveCode, createdBy := call.createdBy, role := call.role,
    permissionTemplate := call.permissionTemplate, expiresAt := call.expiresAt }

inductive AccountError
  | auth (error : AuthError)
  /-- `UserNotFoundError`. -/
  | userNotFound (userId : String)
  /-- The `KeyError` of `_users_by_username[…]`. -/
  | key (username : String)
  /-- `InviteCodeAlreadyExistsError`. -/
  | inviteCodeAlreadyExists (code : String)
  deriving DecidableEq

namespace AuthService

/-- `update_user`. -/
def updateUser (userId : String) (changes : UserChanges) (s : AuthService) :
    Except AccountError AuthUser × AuthService :=
  match s.usersById.get? userId with
  | none => (.error (.userNotFound userId), s)
  | some currentUser =>
    let updatedUser := changes.apply currentUser
    match s.usersByUsername.get? updatedUser.username with
    | none => (.error (.key updatedUser.username), s)
    | some record =>
      (.ok updatedUser,
        { s with
          -- the record is the object in the dictionary
          usersByUsername :=
            s.usersByUsername.insert updatedUser.username { record with user := updatedUser }
          usersById := s.usersById.insert userId updatedUser })

/-- `authenticate_user`. -/
def authenticateUser (scrypt : Scrypt) (username : String) (password : List Char)
    (s : AuthService) : Option AuthUser :=
  match s.usersByUsername.get? username with
  | none => none
  | some record =>
    if verifyPassword scrypt password record.passwordHash.toList then some record.user else none

/-- `list_users`. -/
def listUsers (s : AuthService) : List AuthUser :=
  sortedBy (fun user => user.username.toList) (s.usersById.items.map Prod.snd)

/-- `create_invite_code`. -/
def createInviteCode (call : InviteCreation) (s : AuthService) :
    Except AccountError AuthInviteCode × AuthService :=
  if (s.inviteCodesByCode.get? call.effectiveCode).isSome then
    (.error (.inviteCodeAlreadyExists call.effectiveCode), s)
  else
    (.ok call.invite,
      { s with inviteCodesByCode := s.inviteCodesByCode.insert call.effectiveCode call.invite })

/-- `list_invite_codes`. -/
def listInviteCodes (s : AuthService) : List AuthInviteCode :=
  sortedBy (fun invite => invite.code.toList) (s.inviteCodesByCode.items.map Prod.snd)

end AuthService

/-! ## Calls -/

/-- The calls of the service. -/
inductive ServiceCall
  | register (call : Registration)
  | update (userId : String) (changes : UserChanges)
  | createInvite (call : InviteCreation)
  | consumeInvite (code usedBy : String) (now used : ℤ)
  | authenticate (username : String) (password : List Char)
  | getUser (userId : String)
  | listUsers
  | getInvite (code : String)
  | listInvites
  | reset

inductive ServiceAnswer
  | raised (error : AccountError)
  | user (user : AuthUser)
  | found (user : Option AuthUser)
  | users (users : List AuthUser)
  | invite (invite : AuthInviteCode)
  | foundInvite (invite : Option AuthInviteCode)
  | invites (invites : List AuthInviteCode)
  | nothing
  deriving DecidableEq

def answerUser : Except AccountError AuthUser → ServiceAnswer
  | .error error => .raised error
  | .ok user => .user user

def answerInvite : Except AccountError AuthInviteCode → ServiceAnswer
  | .error error => .raised error
  | .ok invite => .invite invite

/-- A call of the service: its answer, and the service after it. -/
def AuthService.perform (scrypt : Scrypt) (s : AuthService) :
    ServiceCall → ServiceAnswer × AuthService
  | .register call =>
    let (answer, s) := s.registerUser call
    (answerUser (answer.mapError .auth), s)
  | .update userId changes =>
    let (answer, s) := s.updateUser userId changes
    (answerUser answer, s)
  | .createInvite call =>
    let (answer, s) := s.createInviteCode call
    (answerInvite answer, s)
  | .consumeInvite code usedBy now used =>
    let (answer, s) := s.consumeInviteCode code usedBy now used
    (answerInvite (answer.mapError .auth), s)
  | .authenticate username password => (.found (s.authenticateUser scrypt username password), s)
  | .getUser userId => (.found (s.usersById.get? userId), s)
  | .listUsers => (.users s.listUsers, s)
  | .getInvite code => (.foundInvite (s.inviteCodesByCode.get? code), s)
  | .listInvites => (.invites s.listInviteCodes, s)
  | .reset => (.nothing, {})

/-! ## One table -/

/-- A user, and the hash of the password. -/
structure Account where
  user : AuthUser
  passwordHash : String
  deriving DecidableEq

def Account.id (account : Account) : String := account.user.id

def Account.username (account : Account) : String := account.user.username

def Account.record (account : Account) : UserRecord :=
  { user := account.user, passwordHash := account.passwordHash }

/-- All accounts in one table, in the order of their registration, and the invites. -/
structure AccountTable where
  accounts : List Account := []
  inviteCodesByCode : Dict String AuthInviteCode := ∅

namespace AccountTable

variable (t : AccountTable)

def byUsername (username : String) : Option Account :=
  t.accounts.find? (Account.username · = username)

def byId (userId : String) : Option Account := t.accounts.find? (Account.id · = userId)

def add (user : AuthUser) (passwordHash : String) : AccountTable :=
  { t with accounts := t.accounts ++ [{ user, passwordHash }] }

/-- The invites alone, as a service. -/
def inviting : AuthService := { inviteCodesByCode := t.inviteCodesByCode }

def consume (code usedBy : String) (now used : ℤ) :
    Except AuthError AuthInviteCode × AccountTable :=
  let (answer, s) := t.inviting.consumeInviteCode code usedBy now used
  (answer, { t with inviteCodesByCode := s.inviteCodesByCode })

/-- A registration adds an account under a free name, and uses the invite that it comes with. -/
def register (call : Registration) : Except AuthError AuthUser × AccountTable :=
  if (t.byUsername call.username).isSome then (.error (.userAlreadyExists call.username), t)
  else
    match call.inviteCode with
    | none =>
      let user := AuthService.newUser call call.role
      (.ok user, t.add user call.passwordHash)
    | some code =>
      match t.inviting.getAvailableInvite code call.readings.checked with
      | .error error => (.error error, t)
      | .ok invite =>
        let user := AuthService.newUser call invite.role
        let (answer, t) := (t.add user call.passwordHash).consume code user.id
          call.readings.rechecked call.readings.used
        (answer.map fun _ => user, t)

/-- An update changes the account where it is. -/
def update (userId : String) (changes : UserChanges) : Except AccountError AuthUser × AccountTable :=
  match t.byId userId with
  | none => (.error (.userNotFound userId), t)
  | some account =>
    let updated := { account with user := changes.apply account.user }
    (.ok updated.user, { t with accounts := replaceRow t.accounts Account.id updated })

def createInvite (call : InviteCreation) : Except AccountError AuthInviteCode × AccountTable :=
  let (answer, s) := t.inviting.createInviteCode call
  (answer, { t with inviteCodesByCode := s.inviteCodesByCode })

/-- The account with the username, if the password is its own. -/
def authenticate (scrypt : Scrypt) (username : String) (password : List Char) : Option AuthUser :=
  ((t.byUsername username).filter fun account =>
    verifyPassword scrypt password account.passwordHash.toList).map Account.user

/-- A call, answered from the table. -/
def perform (scrypt : Scrypt) : ServiceCall → ServiceAnswer × AccountTable
  | .register call =>
    let (answer, t) := t.register call
    (answerUser (answer.mapError .auth), t)
  | .update userId changes =>
    let (answer, t) := t.update userId changes
    (answerUser answer, t)
  | .createInvite call =>
    let (answer, t) := t.createInvite call
    (answerInvite answer, t)
  | .consumeInvite code usedBy now used =>
    let (answer, t) := t.consume code usedBy now used
    (answerInvite (answer.mapError .auth), t)
  | .authenticate username password => (.found (t.authenticate scrypt username password), t)
  | .getUser userId => (.found ((t.byId userId).map Account.user), t)
  | .listUsers =>
    (.users (sortedBy (fun user => user.username.toList) (t.accounts.map Account.user)), t)
  | .getInvite code => (.foundInvite (t.inviteCodesByCode.get? code), t)
  | .listInvites => (.invites t.inviting.listInviteCodes, t)
  | .reset => (.nothing, {})

end AccountTable

/-! ## Refinement -/

/-- Both dictionaries are indexes of the table, and the invites are the same. -/
structure Tabulates (s : AuthService) (t : AccountTable) : Prop where
  invites : s.inviteCodesByCode = t.inviteCodesByCode
  byUsername : Indexes s.usersByUsername t.accounts Account.username Account.record
  byId : Indexes s.usersById t.accounts Account.id Account.user

/-- A registration draws an id that no user has. -/
def FreshId (s : AuthService) : ServiceCall → Prop
  | .register call => s.usersById.get? call.userId = none
  | _ => True

instance : DecidableRel FreshId := fun s call => by
  cases call <;> unfold FreshId <;> infer_instance

/-- Runs of the service, by its calls. -/
def AuthService.step (scrypt : Scrypt) (s : AuthService) (call : ServiceCall) :
    Option AuthService :=
  some (s.perform scrypt call).2

def AuthService.answer (scrypt : Scrypt) (s : AuthService) (call : ServiceCall) :
    Option ServiceAnswer :=
  some (s.perform scrypt call).1

def AccountTable.step (scrypt : Scrypt) (t : AccountTable) (call : ServiceCall) :
    Option AccountTable :=
  some (t.perform scrypt call).2

def AccountTable.answer (scrypt : Scrypt) (t : AccountTable) (call : ServiceCall) :
    Option ServiceAnswer :=
  some (t.perform scrypt call).1

variable {s : AuthService} {t : AccountTable} {scrypt : Scrypt} {code usedBy : String}
  {now used : ℤ}

/-! ### Invites -/

theorem getAvailableInvite_congr {s : AuthService} (s' : AuthService)
    (h : s.inviteCodesByCode = s'.inviteCodesByCode) (code : String)
    (now : ℤ) : s.getAvailableInvite code now = s'.getAvailableInvite code now := by
  unfold AuthService.getAvailableInvite
  rw [h]

theorem consumeInviteCode_congr {s : AuthService} (s' : AuthService)
    (h : s.inviteCodesByCode = s'.inviteCodesByCode)
    (code usedBy : String) (now used : ℤ) :
    (s.consumeInviteCode code usedBy now used).1 = (s'.consumeInviteCode code usedBy now used).1 ∧
      (s.consumeInviteCode code usedBy now used).2.inviteCodesByCode =
        (s'.consumeInviteCode code usedBy now used).2.inviteCodesByCode := by
  unfold AuthService.consumeInviteCode
  rw [getAvailableInvite_congr s' h]
  cases s'.getAvailableInvite code now with
  | error error => exact ⟨rfl, h⟩
  | ok invite =>
    dsimp only
    rw [h]
    exact ⟨rfl, rfl⟩

/-- The use of an invite changes no user. -/
theorem consumeInviteCode_users (s : AuthService) (code usedBy : String) (now used : ℤ) :
    (s.consumeInviteCode code usedBy now used).2.usersByUsername = s.usersByUsername ∧
      (s.consumeInviteCode code usedBy now used).2.usersById = s.usersById := by
  unfold AuthService.consumeInviteCode
  cases s.getAvailableInvite code now with
  | error error => exact ⟨rfl, rfl⟩
  | ok invite => exact ⟨rfl, rfl⟩

theorem createInviteCode_congr {s : AuthService} (s' : AuthService)
    (h : s.inviteCodesByCode = s'.inviteCodesByCode)
    (call : InviteCreation) :
    (s.createInviteCode call).1 = (s'.createInviteCode call).1 ∧
      (s.createInviteCode call).2.inviteCodesByCode =
        (s'.createInviteCode call).2.inviteCodesByCode := by
  unfold AuthService.createInviteCode
  rw [h]
  split
  · exact ⟨rfl, h⟩
  · exact ⟨rfl, rfl⟩

theorem createInviteCode_users (s : AuthService) (call : InviteCreation) :
    (s.createInviteCode call).2.usersByUsername = s.usersByUsername ∧
      (s.createInviteCode call).2.usersById = s.usersById := by
  unfold AuthService.createInviteCode
  split
  · exact ⟨rfl, rfl⟩
  · exact ⟨rfl, rfl⟩

/-! ### Users -/

namespace Tabulates

theorem consume (h : Tabulates s t) (code usedBy : String) (now used : ℤ) :
    (s.consumeInviteCode code usedBy now used).1 = (t.consume code usedBy now used).1 ∧
      Tabulates (s.consumeInviteCode code usedBy now used).2
        (t.consume code usedBy now used).2 := by
  obtain ⟨hanswer, hinvites⟩ := consumeInviteCode_congr t.inviting h.invites code usedBy
    now used
  obtain ⟨husernames, hids⟩ := consumeInviteCode_users s code usedBy now used
  exact ⟨hanswer, hinvites, by rw [husernames]; exact h.byUsername, by rw [hids]; exact h.byId⟩

/-- A user with a new name and a new id. -/
theorem saveUser (h : Tabulates s t) (user : AuthUser) (passwordHash : String)
    (hname : s.usersByUsername.get? user.username = none)
    (hid : s.usersById.get? user.id = none) :
    Tabulates (s.saveUser user passwordHash) (t.add user passwordHash) := by
  have hname' : user.username ∉ t.accounts.map Account.username := by
    rwa [← h.byUsername.keys_eq, ← Dict.get?_eq_none_iff]
  have hid' : user.id ∉ t.accounts.map Account.id := by
    rwa [← h.byId.keys_eq, ← Dict.get?_eq_none_iff]
  exact ⟨h.invites, h.byUsername.add { user, passwordHash } hname',
    h.byId.add { user, passwordHash } hid'⟩

theorem get?_username (h : Tabulates s t) (username : String) :
    s.usersByUsername.get? username = (t.byUsername username).map Account.record :=
  h.byUsername.get?_eq username

theorem get?_id (h : Tabulates s t) (userId : String) :
    s.usersById.get? userId = (t.byId userId).map Account.user :=
  h.byId.get?_eq userId

/-- **Registrations.** -/
theorem register (h : Tabulates s t) (call : Registration)
    (hfresh : s.usersById.get? call.userId = none) :
    (s.registerUser call).1 = (t.register call).1 ∧
      Tabulates (s.registerUser call).2 (t.register call).2 := by
  unfold AuthService.registerUser AccountTable.register
  rw [h.get?_username, Option.isSome_map]
  split
  · exact ⟨rfl, h⟩
  · rename_i hfree
    have hname : s.usersByUsername.get? call.username = none := by
      rw [h.get?_username, Option.map_eq_none_iff]
      exact Option.not_isSome_iff_eq_none.mp hfree
    cases call.inviteCode with
    | none => exact ⟨rfl, h.saveUser _ _ hname hfresh⟩
    | some code =>
      dsimp only
      rw [getAvailableInvite_congr t.inviting h.invites]
      cases t.inviting.getAvailableInvite code call.readings.checked with
      | error error => exact ⟨rfl, h⟩
      | ok invite =>
        -- The user is in the table before the invite is looked at again.
        have hsaved := h.saveUser (AuthService.newUser call invite.role) call.passwordHash hname
          hfresh
        obtain ⟨hanswer, hafter⟩ := hsaved.consume code call.userId call.readings.rechecked
          call.readings.used
        dsimp only [AuthService.newUser] at hanswer hafter ⊢
        generalize (s.saveUser _ call.passwordHash).consumeInviteCode code call.userId
          call.readings.rechecked call.readings.used = result at hanswer hafter ⊢
        generalize (t.add _ call.passwordHash).consume code call.userId
          call.readings.rechecked call.readings.used = result' at hanswer hafter ⊢
        obtain ⟨answer, after⟩ := result
        obtain ⟨answer', after'⟩ := result'
        obtain rfl : answer = answer' := hanswer
        cases answer with
        | error error => exact ⟨rfl, hafter⟩
        | ok invite => exact ⟨rfl, hafter⟩

/-- **Updates.** The record of a user that is there is there too. -/
theorem update (h : Tabulates s t) (userId : String) (changes : UserChanges) :
    (s.updateUser userId changes).1 = (t.update userId changes).1 ∧
      Tabulates (s.updateUser userId changes).2 (t.update userId changes).2 := by
  unfold AuthService.updateUser AccountTable.update
  rw [h.get?_id]
  cases hfind : t.byId userId with
  | none => exact ⟨rfl, h⟩
  | some account =>
    have hmem : account ∈ t.accounts := List.mem_of_find?_eq_some hfind
    have hid : account.id = userId := by simpa using List.find?_some hfind
    -- A change leaves the id and the username.
    have hrecord : s.usersByUsername.get? (changes.apply account.user).username =
        some account.record := h.byUsername.get?_of_mem hmem
    simp only [Option.map_some]
    rw [hrecord]
    refine ⟨rfl, h.invites, ?_, ?_⟩
    · refine h.byUsername.replace Account.id { account with user := changes.apply account.user }
        hmem rfl fun old hold => ⟨fun heq => ?_, fun heq => ?_⟩
      · have hsame : old = account := h.byId.eq_of_key hold hmem heq
        rw [hsame]
      · have hsame : old = account := h.byUsername.eq_of_key hold hmem heq
        rw [hsame]
        rfl
    · rw [← hid]
      exact h.byId.replace Account.id { account with user := changes.apply account.user } hmem rfl
        fun _ _ => Iff.rfl

theorem createInvite (h : Tabulates s t) (call : InviteCreation) :
    (s.createInviteCode call).1 = (t.createInvite call).1 ∧
      Tabulates (s.createInviteCode call).2 (t.createInvite call).2 := by
  obtain ⟨hanswer, hinvites⟩ := createInviteCode_congr t.inviting h.invites call
  obtain ⟨husernames, hids⟩ := createInviteCode_users s call
  exact ⟨hanswer, hinvites, by rw [husernames]; exact h.byUsername, by rw [hids]; exact h.byId⟩

theorem authenticate (h : Tabulates s t) (username : String) (password : List Char) :
    s.authenticateUser scrypt username password = t.authenticate scrypt username password := by
  unfold AuthService.authenticateUser AccountTable.authenticate
  rw [h.get?_username]
  cases t.byUsername username with
  | none => rfl
  | some account =>
    simp only [Option.map_some, Option.filter_some, Account.record]
    split
    · rfl
    · rfl

/-- **Each call** is answered as from the table, and leaves the dictionaries its indexes. -/
theorem perform (scrypt : Scrypt) (h : Tabulates s t) {call : ServiceCall} (hfresh : FreshId s call) :
    (s.perform scrypt call).1 = (t.perform scrypt call).1 ∧
      Tabulates (s.perform scrypt call).2 (t.perform scrypt call).2 := by
  cases call with
  | register call =>
    obtain ⟨hanswer, hafter⟩ := h.register call hfresh
    exact ⟨congrArg (fun answer : Except AuthError AuthUser =>
      answerUser (answer.mapError AccountError.auth)) hanswer, hafter⟩
  | update userId changes =>
    obtain ⟨hanswer, hafter⟩ := h.update userId changes
    exact ⟨congrArg answerUser hanswer, hafter⟩
  | createInvite call =>
    obtain ⟨hanswer, hafter⟩ := h.createInvite call
    exact ⟨congrArg answerInvite hanswer, hafter⟩
  | consumeInvite code usedBy now used =>
    obtain ⟨hanswer, hafter⟩ := h.consume code usedBy now used
    exact ⟨congrArg (fun answer : Except AuthError AuthInviteCode =>
      answerInvite (answer.mapError AccountError.auth)) hanswer, hafter⟩
  | authenticate username password =>
    exact ⟨congrArg ServiceAnswer.found (h.authenticate username password), h⟩
  | getUser userId => exact ⟨congrArg ServiceAnswer.found (h.get?_id userId), h⟩
  | listUsers =>
    refine ⟨congrArg ServiceAnswer.users ?_, h⟩
    rw [AuthService.listUsers, h.byId.values_eq]
  | getInvite code =>
    refine ⟨congrArg ServiceAnswer.foundInvite ?_, h⟩
    rw [h.invites]
  | listInvites =>
    refine ⟨congrArg ServiceAnswer.invites ?_, h⟩
    unfold AuthService.listInviteCodes
    rw [h.invites]
    rfl
  | reset => exact ⟨rfl, rfl, indexes_empty _ _, indexes_empty _ _⟩

end Tabulates

/-- The table has no second dictionary to miss a user in. -/
theorem AccountTable.perform_ne_key (t : AccountTable) (call : ServiceCall) (username : String) :
    (t.perform scrypt call).1 ≠ .raised (.key username) := by
  cases call with
  | register call =>
    show answerUser ((t.register call).1.mapError .auth) ≠ _
    cases (t.register call).1 with
    | error error => exact fun h => by cases h
    | ok user => exact fun h => by cases h
  | update userId changes =>
    show answerUser (t.update userId changes).1 ≠ _
    unfold AccountTable.update
    cases t.byId userId with
    | none => exact fun h => by cases h
    | some account => exact fun h => by cases h
  | createInvite call =>
    show answerInvite (t.inviting.createInviteCode call).1 ≠ _
    unfold AuthService.createInviteCode
    split
    · exact fun h => by cases h
    · exact fun h => by cases h
  | consumeInvite code usedBy now used =>
    show answerInvite ((t.consume code usedBy now used).1.mapError .auth) ≠ _
    cases (t.consume code usedBy now used).1 with
    | error error => exact fun h => by cases h
    | ok invite => exact fun h => by cases h
  | authenticate | getUser | listUsers | getInvite | listInvites | reset => exact fun h => by cases h

/-- **One table.** Over any run of calls the service answers as one table of accounts does, so that
no update misses the record of its user. -/
theorem one_table {calls : List ServiceCall} {s : AuthService}
    (h : Run (AuthService.step scrypt) FreshId {} calls s) :
    (∃ t, Run (AccountTable.step scrypt) (fun _ _ => True) {} calls t ∧ Tabulates s t ∧
      trace (AuthService.step scrypt) (AuthService.answer scrypt) {} calls =
        trace (AccountTable.step scrypt) (AccountTable.answer scrypt) {} calls) ∧
      ∀ username, ServiceAnswer.raised (.key username) ∉
        trace (AuthService.step scrypt) (AuthService.answer scrypt) {} calls := by
  have hempty : Tabulates {} {} := ⟨rfl, indexes_empty _ _, indexes_empty _ _⟩
  obtain ⟨t, hrun, htab, htrace⟩ := h.refines (AccountTable.step scrypt)
    (AuthService.answer scrypt) (AccountTable.answer scrypt) hempty fun {s t s' call} htab hfresh hstep => by
      obtain ⟨hanswer, hafter⟩ := htab.perform scrypt hfresh
      obtain rfl := Option.some.inj hstep
      exact ⟨congrArg some hanswer, _, rfl, hafter⟩
  refine ⟨⟨t, hrun, htab, htrace⟩, fun username hmem => ?_⟩
  rw [htrace] at hmem
  apply forall_mem_trace (P := fun answer => answer ≠ .raised (.key username)) _ _ _ _ hmem rfl
  intro t call answer hanswer
  obtain rfl := Option.some.inj hanswer
  exact t.perform_ne_key call username

/-- The clock stands still. -/
def exampleReadings : Readings where
  checked := 1
  rechecked := 1
  used := 1
  checked_le := le_rfl
  rechecked_le := le_rfl

def exampleRegistration : Registration where
  username := "ada"
  passwordHash := "scrypt-v1"
  userId := "u1"
  readings := exampleReadings

/-- A user registers and invites another one, who logs in; the first is promoted. -/
def exampleCalls : List ServiceCall :=
  [.register exampleRegistration,
    .createInvite { createdBy := "u1", role := "admin", code := some "welcome", drawn := "" },
    .register { exampleRegistration with
      username := "bob", inviteCode := some "welcome", userId := "u2" },
    .update "u1" { role := some (some "owner"), notes := some none },
    .authenticate "bob" ['b'], .getUser "u2", .listInvites, .listUsers]

theorem one_table_ada :
    ∃ s, Run (AuthService.step exampleScrypt) FreshId {} exampleCalls s ∧
    ((∃ t, Run (AccountTable.step exampleScrypt) (fun _ _ => True) {} exampleCalls t ∧
      Tabulates s t ∧
      trace (AuthService.step exampleScrypt) (AuthService.answer exampleScrypt) {} exampleCalls =
        trace (AccountTable.step exampleScrypt) (AccountTable.answer exampleScrypt) {}
          exampleCalls) ∧
      ∀ username, ServiceAnswer.raised (.key username) ∉
        trace (AuthService.step exampleScrypt) (AuthService.answer exampleScrypt) {}
          exampleCalls) := by
  have hrun : Run (AuthService.step exampleScrypt) FreshId {} exampleCalls _ :=
    Run.of_execute (by decide)
  exact ⟨_, hrun, one_table hrun⟩

end Auth

end Portex
