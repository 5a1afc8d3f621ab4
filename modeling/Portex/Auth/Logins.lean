import Portex.Auth.Requests

/-!
# Logins

Who can log in after a run of requests: the users that are there, with a password that has the key
of the one they registered with.

## Main definitions

* `UserRequest.drawnId`: the id that a registration draws
* `Registered`: the accounts of a service come from registrations

## Main results

* `login_iff`: the logins that succeed
-/

namespace Portex

open Foundation

namespace Auth

/-- The id that a request draws for a user. -/
def UserRequest.drawnId : UserRequest → Option String
  | .register _ _ draws => some draws.userId
  | _ => none

/-- The account is one that a registration of the requests made, whatever has changed since. -/
def ComesFrom (scrypt : Scrypt) (requests : List UserRequest) (account : Account) : Prop :=
  ∃ policy request draws, .register policy request draws ∈ requests ∧
    account.id = draws.userId ∧ account.username = request.username ∧
      account.passwordHash = (request.call scrypt draws).passwordHash

/-- The users are those of a table, all of whose accounts come from registrations. -/
def Registered (scrypt : Scrypt) (requests : List UserRequest) (s : AuthService) : Prop :=
  ∃ t, Tabulates s t ∧ ∀ account ∈ t.accounts, ComesFrom scrypt requests account

variable {s : AuthService} {t : AccountTable} {scrypt : Scrypt} {request : UserRequest}
  {requests requests' : List UserRequest} {account : Account}

theorem ComesFrom.mono (h : ComesFrom scrypt requests account) (hsub : requests ⊆ requests') :
    ComesFrom scrypt requests' account := by
  obtain ⟨policy, request, draws, hmem, haccount⟩ := h
  exact ⟨policy, request, draws, hsub hmem, haccount⟩

/-! ## The table -/

/-- The use of an invite changes no account. -/
theorem consume_accounts (t : AccountTable) (code usedBy : String) (now used : ℤ) :
    (t.consume code usedBy now used).2.accounts = t.accounts := rfl

theorem register_accounts (t : AccountTable) (call : Registration) :
    (t.register call).2.accounts = t.accounts ∨ ∃ role, (t.register call).2.accounts =
      t.accounts ++ [{ user := AuthService.newUser call role, passwordHash := call.passwordHash }] := by
  unfold AccountTable.register
  split
  · exact .inl rfl
  · cases call.inviteCode with
    | none => exact .inr ⟨call.role, rfl⟩
    | some code =>
      dsimp only
      cases t.inviting.getAvailableInvite code call.readings.checked with
      | error error => exact .inl rfl
      | ok invite => exact .inr ⟨invite.role, consume_accounts _ _ _ _ _⟩

theorem mem_update_accounts {userId : String} {changes : UserChanges}
    (h : account ∈ (t.update userId changes).2.accounts) : ∃ old ∈ t.accounts,
      account.id = old.id ∧ account.username = old.username ∧
        account.passwordHash = old.passwordHash := by
  unfold AccountTable.update at h
  cases hfind : t.byId userId with
  | none =>
    rw [hfind] at h
    exact ⟨account, h, rfl, rfl, rfl⟩
  | some found =>
    rw [hfind] at h
    obtain ⟨old, hold, hreplaced⟩ := List.mem_map.mp h
    split at hreplaced
    · -- The account that was changed keeps its id, its username and its hash.
      subst hreplaced
      exact ⟨found, List.mem_of_find?_eq_some hfind, rfl, rfl, rfl⟩
    · exact ⟨old, hold, by rw [hreplaced], by rw [hreplaced], by rw [hreplaced]⟩

/-! ## Runs -/

namespace Registered

theorem mono (h : Registered scrypt requests s) (hsub : requests ⊆ requests') :
    Registered scrypt requests' s := by
  obtain ⟨t, htab, hcomes⟩ := h
  exact ⟨t, htab, fun account hmem => (hcomes account hmem).mono hsub⟩

theorem register {policy : RegistrationPolicy} {request : RegisterRequest} {draws : RegisterDraws}
    (h : Registered scrypt requests s) (hmem : .register policy request draws ∈ requests)
    (hfresh : s.usersById.get? draws.userId = none) :
    Registered scrypt requests (s.register scrypt policy request draws).2 := by
  obtain ⟨t, htab, hcomes⟩ := h
  rcases register_snd scrypt policy request draws s with hsame | hafter
  · rw [hsame]
    exact ⟨t, htab, hcomes⟩
  · rw [hafter]
    refine ⟨_, (htab.register (request.call scrypt draws) hfresh).2, fun account haccount => ?_⟩
    rcases register_accounts t (request.call scrypt draws) with hold | ⟨role, hnew⟩
    · exact hcomes account (hold ▸ haccount)
    · rw [hnew, List.mem_append, List.mem_singleton] at haccount
      rcases haccount with haccount | rfl
      · exact hcomes account haccount
      · exact ⟨policy, request, draws, hmem, rfl, rfl, rfl⟩

theorem patchUser (h : Registered scrypt requests s) (target : String) (changes : UserChanges) :
    Registered scrypt requests (s.patchUser target changes).2 := by
  obtain ⟨t, htab, hcomes⟩ := h
  rw [patchUser_snd]
  refine ⟨_, (htab.update target changes).2, fun account haccount => ?_⟩
  obtain ⟨old, hold, hid, husername, hhash⟩ := mem_update_accounts haccount
  obtain ⟨policy, request, draws, hmem, hid', husername', hhash'⟩ := hcomes old hold
  exact ⟨policy, request, draws, hmem, hid.trans hid', husername.trans husername',
    hhash.trans hhash'⟩

theorem postInviteCode (h : Registered scrypt requests s) (createdBy : String)
    (request : CreateInviteCodeRequest) (drawn : String) :
    Registered scrypt requests (s.postInviteCode createdBy request drawn).2 := by
  obtain ⟨t, htab, hcomes⟩ := h
  rw [postInviteCode_snd]
  exact ⟨_, (htab.createInvite (request.call createdBy drawn)).2, hcomes⟩

/-- A drawn id that no registration drew before is free. -/
theorem fresh (h : Registered scrypt requests s) {userId : String}
    (hnew : userId ∉ requests.filterMap UserRequest.drawnId) : s.usersById.get? userId = none := by
  obtain ⟨t, htab, hcomes⟩ := h
  rw [Dict.get?_eq_none_iff, htab.byId.keys_eq, List.mem_map]
  rintro ⟨account, haccount, rfl⟩
  obtain ⟨policy, request, draws, hmem, hid, -⟩ := hcomes account haccount
  exact hnew (List.mem_filterMap.mpr ⟨_, hmem, congrArg some hid.symm⟩)

/-- **Each request** leaves accounts that come from registrations. -/
theorem respond (h : Registered scrypt requests s)
    (hdrawn : ∀ userId, request.drawnId = some userId →
      userId ∉ requests.filterMap UserRequest.drawnId) :
    Registered scrypt (requests ++ [request]) (s.respond scrypt request).2 := by
  have hnow := h.mono (List.subset_append_left requests [request])
  have hchanges := respond_changes scrypt s request
  generalize (s.respond scrypt request).2 = after at hchanges
  cases hchanges with
  | nothing => exact hnow
  | registered policy request draws =>
    exact hnow.register (List.mem_append_right _ List.mem_cons_self) (h.fresh (hdrawn _ rfl))
  | patched may target changes => exact hnow.patchUser target changes
  | invited may request drawn => exact hnow.postInviteCode _ request drawn

end Registered

theorem registered_run (h : RequestRun scrypt {} requests s)
    (hdrawn : (requests.filterMap UserRequest.drawnId).Nodup) : Registered scrypt requests s := by
  induction h with
  | nil => exact ⟨{}, ⟨rfl, indexes_empty _ _, indexes_empty _ _⟩, fun _ h => by cases h⟩
  | @snoc s s' requests request hrun _ hstep ih =>
    obtain rfl := Option.some.inj hstep
    rw [List.filterMap_append, List.nodup_append] at hdrawn
    refine (ih hdrawn.1).respond fun userId hid hmem => ?_
    have hlast : userId ∈ [request].filterMap UserRequest.drawnId :=
      List.mem_filterMap.mpr ⟨request, List.mem_cons_self, hid⟩
    exact hdrawn.2.2 userId hmem userId hlast rfl

/-- Requests that draw different ids are told apart by them. -/
theorem eq_of_filterMap_nodup {α β : Type} {f : α → Option β} {l : List α} {a a' : α} {b : β}
    (hnodup : (l.filterMap f).Nodup) (ha : a ∈ l) (ha' : a' ∈ l) (hb : f a = some b)
    (hb' : f a' = some b) : a = a' := by
  induction l with
  | nil => cases ha
  | cons first rest ih =>
    have hin {x : α} (hx : x ∈ rest) (hf : f x = some b) : b ∈ rest.filterMap f :=
      List.mem_filterMap.mpr ⟨x, hx, hf⟩
    rcases List.mem_cons.mp ha with rfl | hrest
    · rw [List.filterMap_cons_some hb, List.nodup_cons] at hnodup
      rcases List.mem_cons.mp ha' with rfl | hrest'
      · rfl
      · exact absurd (hin hrest' hb') hnodup.1
    · rcases List.mem_cons.mp ha' with rfl | hrest'
      · rw [List.filterMap_cons_some hb', List.nodup_cons] at hnodup
        exact absurd (hin hrest hb) hnodup.1
      · refine ih (hnodup.sublist ?_) hrest hrest'
        exact (List.sublist_cons_self first rest).filterMap f

/-! ## Logins -/

theorem login_eq_token {username password userId : String} (htab : Tabulates s t) :
    s.login scrypt username password = .token userId ↔ ∃ account ∈ t.accounts,
      account.username = username ∧ account.id = userId ∧
        verifyPassword scrypt password.toList account.passwordHash.toList = true := by
  unfold AuthService.login
  rw [htab.authenticate]
  unfold AccountTable.authenticate
  constructor
  · intro h
    cases hfind : t.byUsername username with
    | none =>
      rw [hfind] at h
      cases h
    | some account =>
      rw [hfind] at h
      have hname : account.username = username := by simpa using List.find?_some hfind
      refine ⟨account, List.mem_of_find?_eq_some hfind, hname, ?_⟩
      rw [Option.filter_some] at h
      by_cases hverify : verifyPassword scrypt password.toList account.passwordHash.toList = true
      · rw [if_pos hverify] at h
        exact ⟨UserResponse.token.inj h, hverify⟩
      · rw [if_neg hverify] at h
        cases h
  · rintro ⟨account, hmem, rfl, rfl, hverify⟩
    have hfind : t.byUsername account.username = some account := htab.byUsername.find?_eq_some hmem
    rw [hfind, Option.filter_some, if_pos hverify]
    rfl

/-- **Logins.** After any run of requests, the login of a username and a password gives a token for
a user if and only if that user is there, registered with the username, and registered with a
password that has the same key. -/
theorem login_iff {username password userId : String} (h : RequestRun scrypt {} requests s)
    (hdrawn : (requests.filterMap UserRequest.drawnId).Nodup)
    (hsalt : ∀ policy request draws, .register policy request draws ∈ requests →
      draws.salt.length = 16) :
    s.login scrypt username password = .token userId ↔
      (s.usersById.get? userId).isSome = true ∧ ∃ policy request draws,
        .register policy request draws ∈ requests ∧ draws.userId = userId ∧
          request.username = username ∧
          scrypt.derivePasswordKey password.toList draws.salt =
            scrypt.derivePasswordKey request.password.toList draws.salt := by
  obtain ⟨t, htab, hcomes⟩ := registered_run h hdrawn
  have hverify {policy : RegistrationPolicy} {request : RegisterRequest} {draws : RegisterDraws}
      (hmem : .register policy request draws ∈ requests) :
      verifyPassword scrypt password.toList (request.call scrypt draws).passwordHash.toList = true ↔
        scrypt.derivePasswordKey password.toList draws.salt =
          scrypt.derivePasswordKey request.password.toList draws.salt := by
    rw [RegisterRequest.call, String.toList_ofList]
    exact verifyPassword_hashPassword scrypt _ _ (hsalt _ _ _ hmem)
  rw [login_eq_token htab]
  constructor
  · rintro ⟨account, hmem, rfl, rfl, haccepted⟩
    obtain ⟨policy, request, draws, hrequest, hid, husername, hhash⟩ := hcomes account hmem
    refine ⟨?_, policy, request, draws, hrequest, hid.symm, husername.symm, ?_⟩
    · rw [htab.byId.get?_of_mem hmem]
      rfl
    · rw [hhash] at haccepted
      exact (hverify hrequest).mp haccepted
  · rintro ⟨hsome, policy, request, draws, hrequest, rfl, rfl, hkey⟩
    have hkeys : draws.userId ∈ t.accounts.map Account.id := by
      rwa [← htab.byId.keys_eq, ← Dict.isSome_get?]
    obtain ⟨account, hmem, hid⟩ := List.mem_map.mp hkeys
    obtain ⟨policy', request', draws', hrequest', hid', husername', hhash'⟩ := hcomes account hmem
    -- No other registration drew this id, so that the account is that of this one.
    have hsame := eq_of_filterMap_nodup hdrawn hrequest hrequest' rfl
      (congrArg some (hid'.symm.trans hid))
    obtain ⟨rfl, rfl, rfl⟩ := UserRequest.register.inj hsame
    refine ⟨account, hmem, husername', hid, ?_⟩
    rw [hhash']
    exact (hverify hrequest).mpr hkey

theorem login_ada : ∃ s, RequestRun exampleScrypt {} exampleRequests s ∧
    (s.login exampleScrypt "ada" "secret" = .token "u1" ↔
      (s.usersById.get? "u1").isSome = true ∧ ∃ policy request draws,
        .register policy request draws ∈ exampleRequests ∧ draws.userId = "u1" ∧
          request.username = "ada" ∧
          exampleScrypt.derivePasswordKey "secret".toList draws.salt =
            exampleScrypt.derivePasswordKey request.password.toList draws.salt) := by
  have hrun : RequestRun exampleScrypt {} exampleRequests _ := Run.of_execute (by decide)
  refine ⟨_, hrun, login_iff hrun (by decide) fun policy request draws hmem => ?_⟩
  rcases List.mem_pair.mp hmem with hfirst | hsecond
  · obtain ⟨rfl, rfl, rfl⟩ := UserRequest.register.inj hfirst
    rfl
  · cases hsecond

end Auth

end Portex
