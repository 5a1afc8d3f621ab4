import Portex.Foundation.Dict
import Mathlib.Data.Int.Notation

/-!
# Registration

`services/auth.py`: the users, the invite codes, and `register_user`. A registration with an invite
code looks at the invite twice, each time with a reading of the clock, and has saved the user when
it looks the second time.

## Main definitions

* `AuthUser`, `AuthInviteCode`, `AuthService`: the store
* `registerUser`, `consumeInviteCode`, `getAvailableInvite`: the methods
* `Atomic`: a registration does all it says, or nothing
* `Lapses`: the invite expires while the user is registered

## Main results

* `atomic_iff_not_lapses`: the registrations that are atomic
* `admissions_le_one`: an invite admits one user
* `registration_iff`: both, over any sequence of registrations
-/

namespace Portex

open Foundation

namespace Auth

/-- A `datetime`, with its offset from UTC unless it is naive. -/
structure Datetime where
  wall : ℤ
  utcOffset : Option ℤ := none
  deriving DecidableEq

/-- `_to_utc_datetime`: a naive datetime is one of UTC. -/
def toUtcDatetime (value : Datetime) : ℤ := value.wall - value.utcOffset.getD 0

/-- A user. An update may leave `None` in any field but the first two. -/
structure AuthUser where
  id : String
  username : String
  role : Option String
  status : Option String
  avatarEmoji : Option String := none
  avatarColor : Option String := none
  aiName : Option String := none
  aiAvatarEmoji : Option String := none
  mustChangePassword : Option Bool := some false
  lastLoginAt : Option ℤ := none
  disableReason : Option String := none
  notes : Option String := none
  deriving DecidableEq

structure UserRecord where
  user : AuthUser
  passwordHash : String
  deriving DecidableEq

structure AuthInviteCode where
  code : String
  createdBy : String
  role : String
  permissionTemplate : Option String := none
  expiresAt : Option Datetime := none
  usedBy : Option String := none
  usedAt : Option ℤ := none
  deriving DecidableEq

inductive AuthError
  /-- `UserAlreadyExistsError`. -/
  | userAlreadyExists (username : String)
  /-- `InviteCodeUnavailableError`. -/
  | inviteCodeUnavailable (code : String)
  deriving DecidableEq

structure AuthService where
  usersByUsername : Dict String UserRecord := ∅
  usersById : Dict String AuthUser := ∅
  inviteCodesByCode : Dict String AuthInviteCode := ∅

/-- The readings of the clock during a registration: for the first look at the invite, for the
second one, and for the time of its use. -/
structure Readings where
  checked : ℤ
  rechecked : ℤ
  used : ℤ
  checked_le : checked ≤ rechecked
  rechecked_le : rechecked ≤ used

/-- A call of `register_user`, with what it draws: the uuid of the user, and the salted hash of
the password. -/
structure Registration where
  username : String
  passwordHash : String
  role : String := "member"
  inviteCode : Option String := none
  userId : String
  readings : Readings

namespace AuthService

/-- `_get_available_invite`. -/
def getAvailableInvite (code : String) (now : ℤ) (s : AuthService) :
    Except AuthError AuthInviteCode :=
  match s.inviteCodesByCode.get? code with
  | none => .error (.inviteCodeUnavailable code)
  | some invite =>
    if invite.usedBy.isSome || invite.usedAt.isSome then .error (.inviteCodeUnavailable code)
    else if invite.expiresAt.any fun expiresAt => toUtcDatetime expiresAt < now then
      .error (.inviteCodeUnavailable code)
    else .ok invite

def consumeInviteCode (code usedBy : String) (now used : ℤ) (s : AuthService) :
    Except AuthError AuthInviteCode × AuthService :=
  match s.getAvailableInvite code now with
  | .error error => (.error error, s)
  | .ok invite =>
    let updated := { invite with usedBy := some usedBy, usedAt := some used }
    (.ok updated, { s with inviteCodesByCode := s.inviteCodesByCode.insert code updated })

/-- The user that a registration makes. -/
def newUser (call : Registration) (role : String) : AuthUser :=
  { id := call.userId, username := call.username, role := some role, status := some "active" }

/-- The two maps of users, with a new one. -/
def saveUser (user : AuthUser) (passwordHash : String) (s : AuthService) : AuthService :=
  { s with
    usersByUsername := s.usersByUsername.insert user.username { user, passwordHash }
    usersById := s.usersById.insert user.id user }

def registerUser (call : Registration) (s : AuthService) : Except AuthError AuthUser × AuthService :=
  if (s.usersByUsername.get? call.username).isSome then
    (.error (.userAlreadyExists call.username), s)
  else
    match call.inviteCode with
    | none =>
      let user := newUser call call.role
      (.ok user, s.saveUser user call.passwordHash)
    | some code =>
      match s.getAvailableInvite code call.readings.checked with
      | .error error => (.error error, s)
      | .ok invite =>
        let user := newUser call invite.role
        -- the user is saved before the invite is looked at again
        match (s.saveUser user call.passwordHash).consumeInviteCode code user.id
            call.readings.rechecked call.readings.used with
        | (.error error, s) => (.error error, s)
        | (.ok _, s) => (.ok user, s)

/-! ## The invite -/

variable {s s' : AuthService} {code : String} {call : Registration}

/-- The invite can be used at the time. -/
structure Available (s : AuthService) (code : String) (now : ℤ) (invite : AuthInviteCode) :
    Prop where
  found : s.inviteCodesByCode.get? code = some invite
  unused : invite.usedBy = none ∧ invite.usedAt = none
  unexpired : ∀ expiresAt ∈ invite.expiresAt, now ≤ toUtcDatetime expiresAt

theorem getAvailableInvite_eq_ok {now : ℤ} {invite : AuthInviteCode} :
    s.getAvailableInvite code now = .ok invite ↔ s.Available code now invite := by
  unfold getAvailableInvite
  cases hfound : s.inviteCodesByCode.get? code with
  | none =>
    refine iff_of_false (by simp) fun h => ?_
    rw [h.found] at hfound
    cases hfound
  | some found =>
    simp only
    constructor
    · intro h
      split at h
      · cases h
      · rename_i hused
        split at h
        · cases h
        · rename_i hexpired
          obtain rfl := Except.ok.inj h
          refine ⟨hfound, by simpa using hused, fun expiresAt hexpires => ?_⟩
          rw [Option.mem_def.mp hexpires] at hexpired
          simpa using hexpired
    · rintro ⟨hget, ⟨husedBy, husedAt⟩, hunexpired⟩
      obtain rfl := Option.some.inj (hfound.symm.trans hget)
      rw [husedBy, husedAt, if_neg (by simp), if_neg]
      cases hexpires : found.expiresAt with
      | none => simp
      | some expiresAt => simpa using hunexpired expiresAt hexpires

theorem getAvailableInvite_error {now : ℤ} {error : AuthError}
    (h : s.getAvailableInvite code now = .error error) :
    ∀ invite, ¬ s.Available code now invite := by
  intro invite havailable
  rw [getAvailableInvite_eq_ok.mpr havailable] at h
  cases h

/-! ## Registrations -/

/-- A registration that raises changes no user and no invite; one that succeeds with an invite
code found an invite that was unused and unexpired, marks it as used by the new user, and leaves
the other invites as they were. -/
def Atomic (s : AuthService) (call : Registration) : Prop :=
  let result := s.registerUser call
  (∀ error, result.1 = .error error → result.2 = s) ∧
    ∀ user code, result.1 = .ok user → call.inviteCode = some code →
      ∃ invite, s.Available code call.readings.checked invite ∧
        s.Available code call.readings.rechecked invite ∧
        result.2.inviteCodesByCode.get? code =
          some { invite with usedBy := some user.id, usedAt := some call.readings.used } ∧
        result.2.usersById.get? user.id = some user ∧
        ∀ other, other ≠ code →
          result.2.inviteCodesByCode.get? other = s.inviteCodesByCode.get? other

/-- The username is free, and the invite expires between the two looks at it. -/
def Lapses (s : AuthService) (call : Registration) : Prop :=
  s.usersByUsername.get? call.username = none ∧ ∃ code invite expiresAt,
    call.inviteCode = some code ∧ s.Available code call.readings.checked invite ∧
      invite.expiresAt = some expiresAt ∧ toUtcDatetime expiresAt < call.readings.rechecked

theorem saveUser_available {now : ℤ} {invite : AuthInviteCode} (user : AuthUser)
    (passwordHash : String) :
    (s.saveUser user passwordHash).Available code now invite ↔ s.Available code now invite :=
  ⟨fun h => ⟨h.found, h.unused, h.unexpired⟩, fun h => ⟨h.found, h.unused, h.unexpired⟩⟩

/-- An invite that was available stays so until it expires. -/
theorem Available.later {now later : ℤ} {invite : AuthInviteCode} (h : s.Available code now invite)
    (hlater : ∀ expiresAt ∈ invite.expiresAt, later ≤ toUtcDatetime expiresAt) :
    s.Available code later invite :=
  ⟨h.found, h.unused, hlater⟩

/-- What a registration does, branch by branch. -/
inductive Registers (s : AuthService) (call : Registration) :
    Except AuthError AuthUser → AuthService → Prop
  | refused (error : AuthError)
      (why : (s.usersByUsername.get? call.username).isSome = true ∨
        ∃ code, call.inviteCode = some code ∧
          ∀ invite, ¬ s.Available code call.readings.checked invite) :
      Registers s call (.error error) s
  | uninvited (free : s.usersByUsername.get? call.username = none)
      (none : call.inviteCode = none) :
      Registers s call (.ok (newUser call call.role))
        (s.saveUser (newUser call call.role) call.passwordHash)
  | invited {code : String} {invite : AuthInviteCode}
      (free : s.usersByUsername.get? call.username = none)
      (given : call.inviteCode = some code)
      (available : s.Available code call.readings.checked invite)
      (still : s.Available code call.readings.rechecked invite) :
      Registers s call (.ok (newUser call invite.role))
        { s.saveUser (newUser call invite.role) call.passwordHash with
          inviteCodesByCode := s.inviteCodesByCode.insert code
            { invite with usedBy := some call.userId, usedAt := some call.readings.used } }
  | lapsed {code : String} {invite : AuthInviteCode} (error : AuthError)
      (free : s.usersByUsername.get? call.username = none)
      (given : call.inviteCode = some code)
      (available : s.Available code call.readings.checked invite)
      (lapsed : ¬ s.Available code call.readings.rechecked invite) :
      Registers s call (.error error) (s.saveUser (newUser call invite.role) call.passwordHash)

theorem registerUser_registers (call : Registration) (s : AuthService) :
    Registers s call (s.registerUser call).1 (s.registerUser call).2 := by
  unfold registerUser
  split
  · rename_i htaken
    exact .refused _ (.inl htaken)
  · rename_i hfree
    rw [Option.not_isSome_iff_eq_none] at hfree
    split
    · rename_i hnone
      exact .uninvited hfree hnone
    · rename_i code hcode
      split
      · rename_i error herror
        exact .refused error (.inr ⟨code, hcode, getAvailableInvite_error herror⟩)
      · rename_i invite hinvite
        have havailable := getAvailableInvite_eq_ok.mp hinvite
        simp only [consumeInviteCode]
        cases hagain : (s.saveUser (newUser call invite.role) call.passwordHash).getAvailableInvite
            code call.readings.rechecked with
        | error error =>
          refine .lapsed error hfree hcode havailable fun hstill => ?_
          exact getAvailableInvite_error hagain invite ((saveUser_available _ _).mpr hstill)
        | ok found =>
          have hstill := (saveUser_available _ _).mp (getAvailableInvite_eq_ok.mp hagain)
          obtain rfl := Option.some.inj (havailable.found.symm.trans hstill.found)
          exact .invited hfree hcode havailable hstill

/-- **Registration.** A registration is atomic if and only if its invite does not expire while the
user is registered. -/
theorem atomic_iff_not_lapses (s : AuthService) (call : Registration) :
    Atomic s call ↔ ¬ Lapses s call := by
  have hregisters := registerUser_registers call s
  unfold Atomic
  generalize s.registerUser call = result at hregisters ⊢
  obtain ⟨answer, s'⟩ := result
  simp only at hregisters ⊢
  cases hregisters with
  | refused error why =>
    refine iff_of_true ⟨fun _ _ => rfl, fun user code h => by cases h⟩ ?_
    rintro ⟨hfree, code, invite, expiresAt, hcode, havailable, -⟩
    rcases why with htaken | ⟨code', hcode', hnone⟩
    · rw [hfree] at htaken
      cases htaken
    · obtain rfl := Option.some.inj (hcode.symm.trans hcode')
      exact hnone invite havailable
  | uninvited free none =>
    refine iff_of_true ⟨fun _ h => (by cases h), fun user code _ hcode => ?_⟩ ?_
    · rw [none] at hcode
      cases hcode
    · rintro ⟨-, code, _, _, hcode, -⟩
      rw [none] at hcode
      cases hcode
  | @invited code invite free given available still =>
    refine iff_of_true ⟨fun _ h => (by cases h), fun user code' huser hcode => ?_⟩ ?_
    · obtain rfl := Except.ok.inj huser
      obtain rfl := Option.some.inj (given.symm.trans hcode)
      refine ⟨invite, available, still, ?_, ?_, fun other hother => ?_⟩
      · rw [Dict.get?_insert, if_pos rfl]
        rfl
      · simp [saveUser]
      · rw [Dict.get?_insert, if_neg hother]
    · rintro ⟨-, code', invite', expiresAt, hcode, havailable, hexpires, hlapsed⟩
      obtain rfl := Option.some.inj (given.symm.trans hcode)
      obtain rfl := Option.some.inj (available.found.symm.trans havailable.found)
      exact absurd (still.unexpired expiresAt hexpires) (Int.not_le.mpr hlapsed)
  | @lapsed code invite error free given available lapsed =>
    refine iff_of_false (fun h => ?_) (not_not_intro ?_)
    · -- The user was saved, though the registration raised.
      have hsaved := congrArg (fun s => s.usersByUsername.get? call.username) (h.1 error rfl)
      simp only [saveUser, newUser, Dict.get?_insert, if_pos, free] at hsaved
      cases hsaved
    · cases hexpires : invite.expiresAt with
      | none =>
        refine absurd (available.later fun expiresAt h => ?_) lapsed
        rw [hexpires] at h
        cases h
      | some expiresAt =>
        refine ⟨free, code, invite, expiresAt, given, available, hexpires, ?_⟩
        by_contra hlate
        refine lapsed (available.later fun expiresAt' h => ?_)
        rw [hexpires] at h
        obtain rfl := Option.some.inj h
        exact Int.not_lt.mp hlate

/-! ## Sequences of registrations -/

/-- The service after a registration. -/
def next (s : AuthService) (call : Registration) : AuthService := (s.registerUser call).2

/-- The property holds at each of the registrations, one after the other. -/
def Throughout (P : AuthService → Registration → Prop) : AuthService → List Registration → Prop
  | _, [] => True
  | s, call :: calls => P s call ∧ Throughout P (s.next call) calls

/-- The users that registered with the invite code. -/
def admissions (code : String) : AuthService → List Registration → List AuthUser
  | _, [] => []
  | s, call :: calls =>
    (if call.inviteCode = some code then (s.registerUser call).1.toOption.toList else []) ++
      admissions code (s.next call) calls

theorem throughout_congr {P Q : AuthService → Registration → Prop} (h : ∀ s call, P s call ↔ Q s call)
    (s : AuthService) (calls : List Registration) : Throughout P s calls ↔ Throughout Q s calls := by
  induction calls generalizing s with
  | nil => rfl
  | cons call calls ih => exact and_congr (h s call) (ih _)

/-- The invite can never be used again. -/
def Spent (s : AuthService) (code : String) : Prop := ∀ now invite, ¬ s.Available code now invite

/-- Registrations make no invite available. -/
theorem Spent.next (h : s.Spent code) (call : Registration) : (s.next call).Spent code := by
  intro now invite havailable
  have hregisters := registerUser_registers call s
  unfold AuthService.next at havailable
  generalize (s.registerUser call).2 = s' at hregisters havailable
  generalize (s.registerUser call).1 = answer at hregisters
  cases hregisters with
  | refused error why => exact h now invite havailable
  | uninvited | lapsed =>
    exact h now invite ⟨havailable.found, havailable.unused, havailable.unexpired⟩
  | @invited code' invite' free given available still =>
    have hfound := havailable.found
    rw [Dict.get?_insert] at hfound
    split at hfound
    · obtain rfl := Option.some.inj hfound
      cases havailable.unused.1
    · exact h now invite ⟨hfound, havailable.unused, havailable.unexpired⟩

/-- An invite that admitted a user is spent. -/
theorem spent_of_admitted {user : AuthUser} (hcode : call.inviteCode = some code)
    (hok : (s.registerUser call).1 = .ok user) : (s.next call).Spent code := by
  intro now invite havailable
  have hregisters := registerUser_registers call s
  unfold AuthService.next at havailable
  generalize (s.registerUser call).2 = s' at hregisters havailable
  rw [hok] at hregisters
  cases hregisters with
  | uninvited free none =>
    rw [hcode] at none
    cases none
  | invited free given available still =>
    obtain rfl := Option.some.inj (hcode.symm.trans given)
    have hfound := havailable.found
    rw [Dict.get?_insert, if_pos rfl] at hfound
    obtain rfl := Option.some.inj hfound
    cases havailable.unused.1

theorem Spent.admissions_eq_nil (h : s.Spent code) (calls : List Registration) :
    admissions code s calls = [] := by
  induction calls generalizing s with
  | nil => rfl
  | cons call calls ih =>
    unfold admissions
    rw [ih (h.next call), List.append_nil]
    split
    · rename_i hcode
      cases hanswer : (s.registerUser call).1 with
      | error error => rfl
      | ok user =>
        have hregisters := registerUser_registers call s
        rw [hanswer] at hregisters
        generalize (s.registerUser call).2 = s' at hregisters
        cases hregisters with
        | uninvited free none =>
          rw [hcode] at none
          cases none
        | @invited code' invite free given available still =>
          obtain rfl := Option.some.inj (hcode.symm.trans given)
          exact absurd available (h _ _)
    · rfl

/-- **An invite admits one user**, over any sequence of registrations. -/
theorem admissions_le_one (code : String) (s : AuthService) (calls : List Registration) :
    (admissions code s calls).length ≤ 1 := by
  induction calls generalizing s with
  | nil => exact Nat.zero_le 1
  | cons call calls ih =>
    unfold admissions
    split
    · rename_i hcode
      cases hanswer : (s.registerUser call).1 with
      | error error => exact ih (s.next call)
      | ok user =>
        rw [(spent_of_admitted hcode hanswer).admissions_eq_nil calls]
        exact Nat.le_refl 1
    · exact ih (s.next call)

/-- **Registrations.** Over any sequence of registrations, each is atomic and each invite admits at
most one user if and only if no invite expires while its user is registered. -/
theorem registration_iff (s : AuthService) (calls : List Registration) :
    (Throughout Atomic s calls ∧ ∀ code, (admissions code s calls).length ≤ 1) ↔
      Throughout (fun s call => ¬ Lapses s call) s calls := by
  rw [and_iff_left fun code => admissions_le_one code s calls]
  exact throughout_congr atomic_iff_not_lapses s calls

/-- A service with an invite for the time until 10. -/
def inviting : AuthService :=
  { inviteCodesByCode := (∅ : Dict String AuthInviteCode).insert "welcome"
      { code := "welcome", createdBy := "u", role := "member", expiresAt := some { wall := 10 } } }

/-- A registration that starts at 10, and looks at its invite again at 11. -/
def slowly : Registration where
  username := "bob"
  passwordHash := "scrypt-v1"
  inviteCode := some "welcome"
  userId := "b"
  readings := { checked := 10, rechecked := 11, used := 11, checked_le := by decide, rechecked_le := by decide }

/-- The registration raises, and the user exists. -/
theorem exists_not_atomic :
    (inviting.registerUser slowly).1 = .error (.inviteCodeUnavailable "welcome") ∧
      ((inviting.next slowly).usersById.get? "b").isSome = true ∧
      ¬ (Throughout Atomic inviting [slowly] ∧
        ∀ code, (admissions code inviting [slowly]).length ≤ 1) := by
  have herror : (inviting.registerUser slowly).1 = .error (.inviteCodeUnavailable "welcome") := by
    decide
  have hsaved : ((inviting.next slowly).usersById.get? "b").isSome = true := by decide
  refine ⟨herror, hsaved, fun h => ?_⟩
  have hsame : inviting.next slowly = inviting := h.1.1.1 _ herror
  rw [hsame] at hsaved
  exact absurd hsaved (by decide)

end AuthService

end Auth

end Portex
