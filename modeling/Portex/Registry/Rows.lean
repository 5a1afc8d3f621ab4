import Portex.Registry.Routes
import Mathlib.Data.Prod.Lex
import Mathlib.Data.List.Lex
import Mathlib.Data.Char

/-!
# The rows after a request

Every write to `registered_groups` puts one row. The slots a request sees to on the way touch
neither the groups nor the members.

## Main definitions

* `SameGroups`: the groups and the members are the same
* `Accepted`, `Outcome`: the messages that are submitted, and what a message does

## Main results

* `ensureRegisteredGroup_groups`: the upsert puts one row
* `earliest_spec`: the first row of some
* `sendMessage_spec`: what a message by HTTP does
-/

namespace Portex

open Foundation

/-! ## The order of the rows -/

/-- The place of a row in the order of `(added_at, jid)`. -/
def RegisteredGroup.rank (group : RegisteredGroup) : ℕ ×ₗ List Char :=
  toLex (group.addedAt, group.jid.toList)

theorem precedes_iff {a b : RegisteredGroup} : a.precedes b = true ↔ a.rank < b.rank := by
  simp [RegisteredGroup.precedes, RegisteredGroup.rank, Prod.Lex.toLex_lt_toLex]

theorem jid_eq_of_rank_eq {a b : RegisteredGroup} (h : a.rank = b.rank) : a.jid = b.jid :=
  String.toList_inj.mp (congrArg (fun rank => (ofLex rank).2) h)

namespace Registry

theorem earliest_eq_none {groups : List RegisteredGroup} : earliest groups = none ↔ groups = [] := by
  cases groups with
  | nil => simp [earliest]
  | cons group groups =>
    simp only [earliest, reduceCtorEq, iff_false]
    split
    · simp
    · split <;> simp

/-- The first row is one of the rows, and none precedes it. -/
theorem earliest_spec {groups : List RegisteredGroup} {first : RegisteredGroup}
    (h : earliest groups = some first) :
    first ∈ groups ∧ ∀ group ∈ groups, first.rank ≤ group.rank := by
  induction groups generalizing first with
  | nil => cases h
  | cons group groups ih =>
    unfold earliest at h
    split at h
    · rename_i hnone
      obtain rfl := Option.some.inj h
      obtain rfl := earliest_eq_none.mp hnone
      exact ⟨List.mem_cons_self, by simp⟩
    · rename_i first' hfirst
      obtain ⟨hmem, hleast⟩ := ih hfirst
      split at h
      · rename_i hprecedes
        obtain rfl := Option.some.inj h
        refine ⟨List.mem_cons_of_mem _ hmem, fun other hother => ?_⟩
        rcases List.mem_cons.mp hother with rfl | hother
        · exact (precedes_iff.mp hprecedes).le
        · exact hleast other hother
      · rename_i hprecedes
        obtain rfl := Option.some.inj h
        rw [precedes_iff, not_lt] at hprecedes
        refine ⟨List.mem_cons_self, fun other hother => ?_⟩
        rcases List.mem_cons.mp hother with rfl | hother
        · exact le_rfl
        · exact hprecedes.trans (hleast other hother)

/-! ## Groups and members -/

variable {r r' r'' : Registry}

/-- The groups and the members are the same; slots may be added. -/
structure SameGroups (r r' : Registry) : Prop where
  groups : r'.groups = r.groups
  members : r'.members = r.members
  now : r'.now = r.now

theorem SameGroups.refl (r : Registry) : SameGroups r r := ⟨rfl, rfl, rfl⟩

theorem SameGroups.trans (h : SameGroups r r') (k : SameGroups r' r'') : SameGroups r r'' :=
  ⟨k.groups.trans h.groups, k.members.trans h.members, k.now.trans h.now⟩

theorem sameGroups_ensureMainSlot (workspaceFolder : String) (createdBy : Option String)
    (r : Registry) : SameGroups r (r.ensureMainSlot workspaceFolder createdBy) := by
  unfold ensureMainSlot
  split
  · split
    · exact ⟨rfl, rfl, rfl⟩
    · exact .refl r
  · exact ⟨rfl, rfl, rfl⟩

/-- Only the main slot is seen to. -/
theorem getSlot_ensureMainSlot (workspaceFolder : String) (createdBy : Option String)
    (r : Registry) {folder slotId : String} (h : slotId ≠ "main") :
    (r.ensureMainSlot workspaceFolder createdBy).getSlot folder slotId = r.getSlot folder slotId := by
  have hput : ∀ slot : ConversationSlot, slot.slotId = "main" →
      (r.slots.put slot).get? (folder, slotId) = r.slots.get? (folder, slotId) := by
    intro slot hslot
    refine Table.get?_put_of_ne fun heq => h ?_
    rw [← hslot]
    exact congrArg Prod.snd heq
  unfold ensureMainSlot
  split
  · rename_i existing hexisting
    split
    · exact hput _ (congrArg Prod.snd (Table.key_of_get? hexisting))
    · rfl
  · exact hput _ rfl

theorem getWebWorkspaceByFolder_spec (folder : String) (r : Registry) :
    (r.getWebWorkspaceByFolder folder).1 = r.webWorkspace folder ∧
      SameGroups r (r.getWebWorkspaceByFolder folder).2 := by
  unfold getWebWorkspaceByFolder
  split
  · rename_i h
    exact ⟨h.symm, .refl r⟩
  · rename_i workspace h
    exact ⟨h.symm, sameGroups_ensureMainSlot _ _ _⟩

/-- A web workspace is a web row with the folder, and the first of them. -/
theorem webWorkspace_spec {folder : String} {workspace : RegisteredGroup}
    (h : r.webWorkspace folder = some workspace) :
    r.groups.get? workspace.jid = some workspace ∧ workspace.folder = folder ∧
      startsWith workspace.jid "web:" = true ∧
      ∀ group ∈ r.groups.rows, group.folder = folder → startsWith group.jid "web:" = true →
        workspace.rank ≤ group.rank := by
  obtain ⟨hmem, hleast⟩ := earliest_spec h
  simp only [List.mem_filter, Bool.and_eq_true, decide_eq_true_eq] at hmem
  exact ⟨Table.mem_rows.mp hmem.1, hmem.2.1, hmem.2.2, fun group hgroup hfolder hweb =>
    hleast group (List.mem_filter.mpr ⟨hgroup, by simp [hfolder, hweb]⟩)⟩

theorem webWorkspace_eq_none {folder : String} : r.webWorkspace folder = none ↔
    ∀ group ∈ r.groups.rows, group.folder = folder → startsWith group.jid "web:" = false := by
  rw [webWorkspace, earliest_eq_none, List.filter_eq_nil_iff]
  simp

/-- The row an upsert makes. -/
theorem ensureRegisteredGroup_row (jid name folder : String) (createdBy : Option String)
    (isHome : Option Bool) (target : Option (Option String)) (r : Registry) :
    let group := (r.ensureRegisteredGroup jid name folder createdBy isHome target).1
    group.jid = jid ∧ group.name = name ∧ group.folder = folder := by
  unfold ensureRegisteredGroup
  split
  · rename_i existing hexisting
    have hjid : existing.jid = jid := Table.key_of_get? hexisting
    exact ⟨hjid, rfl, rfl⟩
  · exact ⟨rfl, rfl, rfl⟩

/-- **The upsert** puts its row. -/
theorem ensureRegisteredGroup_groups (jid name folder : String) (createdBy : Option String)
    (isHome : Option Bool) (target : Option (Option String)) (r : Registry) :
    let result := r.ensureRegisteredGroup jid name folder createdBy isHome target
    SameGroups { r with groups := r.groups.put result.1 } result.2 := by
  unfold ensureRegisteredGroup
  split
  · exact sameGroups_ensureMainSlot _ _ _
  · exact sameGroups_ensureMainSlot _ _ _

theorem getSlot_ensureRegisteredGroup (jid name folder : String) (createdBy : Option String)
    (isHome : Option Bool) (target : Option (Option String)) (r : Registry)
    {workspaceFolder slotId : String} (h : slotId ≠ "main") :
    (r.ensureRegisteredGroup jid name folder createdBy isHome target).2.getSlot workspaceFolder
      slotId = r.getSlot workspaceFolder slotId := by
  unfold ensureRegisteredGroup
  split
  · exact getSlot_ensureMainSlot _ _ _ h
  · exact getSlot_ensureMainSlot _ _ _ h

/-! ## Members -/

theorem addMember_groups (groupFolder userId role : String) (addedBy : Option String)
    (r : Registry) : (r.addMember groupFolder userId role addedBy).2.groups = r.groups := by
  unfold addMember
  split
  · rfl
  · split
    · split <;> rfl
    · rfl

/-! ## Messages by HTTP -/

theorem userCanAccessGroup_congr (h : SameGroups r r') (user : AuthUser) (group : RegisteredGroup) :
    r'.userCanAccessGroup user group = r.userCanAccessGroup user group := by
  simp only [userCanAccessGroup, userCanAccessWebGroup, getMember, resolveImWorkspace,
    getRegisteredGroup, h.groups, h.members]

/-- On a web row, access is a matter of the memberships. -/
theorem userCanAccessGroup_of_web (h : r'.members = r.members) (user : AuthUser)
    {group : RegisteredGroup} (hweb : startsWith group.jid "web:" = true) :
    r'.userCanAccessGroup user group = r.userCanAccessGroup user group := by
  simp [userCanAccessGroup, userCanAccessWebGroup, getMember, h, hweb]

/-- A message is accepted: its text is not blank, and it names a web workspace that the user may
access and a slot of it, or no web workspace at all. -/
def Accepted (user : AuthUser) (request : SendMessageRequest) (r : Registry) : Prop :=
  isBlank request.content = false ∧ match r.webWorkspace request.groupId with
    | some workspace => r.userCanAccessGroup user workspace = true ∧
      (request.slotId = "main" ∨ r.getSlot workspace.folder request.slotId ≠ none)
    | none => request.slotId = "main" ∧ request.groupId ≠ ""

instance (user : AuthUser) (request : SendMessageRequest) (r : Registry) :
    Decidable (Accepted user request r) := by
  unfold Accepted
  split <;> infer_instance

/-- The jid an accepted message is sent to. -/
def chatJidOf (request : SendMessageRequest) (r : Registry) : String :=
  match r.webWorkspace request.groupId with
  | some workspace => workspace.jid
  | none => request.groupId

/-- The resolution of a message sees to slots only, and fails where the message is not accepted. -/
theorem resolveHttpMessageTarget_spec (user : AuthUser) (groupId slotId : String) (r : Registry) :
    let home := (r.ensureHomeWorkspace user).2
    let result := r.resolveHttpMessageTarget user groupId slotId
    SameGroups home result.2 ∧ match home.webWorkspace groupId with
      | some workspace =>
        if home.userCanAccessGroup user workspace = true ∧
          (slotId = "main" ∨ home.getSlot workspace.folder slotId ≠ none) then
          result.1 = .ok (workspace.jid, workspace.folder)
        else ∃ error, result.1 = .error error
      | none =>
        if slotId = "main" then result.1 = .ok (groupId, groupId)
        else ∃ error, result.1 = .error error := by
  intro home result
  simp only [result, resolveHttpMessageTarget, getWebWorkspaceByFolder, home]
  generalize (r.ensureHomeWorkspace user).2 = home
  cases h : home.webWorkspace groupId with
  | none =>
    by_cases hslot : slotId = "main"
    · simp [hslot, SameGroups.refl]
    · simp [hslot, SameGroups.refl]
  | some workspace =>
    have hsame := sameGroups_ensureMainSlot workspace.folder workspace.createdBy home
    simp only [ensureMainSlotForWorkspace, userCanAccessGroup_congr hsame]
    by_cases haccess : home.userCanAccessGroup user workspace = true
    · by_cases hslot : slotId = "main"
      · simp [haccess, hslot, hsame]
      · simp only [haccess, hslot, getSlot_ensureMainSlot _ _ _ hslot]
        by_cases hget : home.getSlot workspace.folder slotId = none
        · simp [hget, hslot, hsame]
        · simp [hget, hslot, hsame]
    · simp [haccess, hsame]

theorem sendMessage_of_error {user : AuthUser} {request : SendMessageRequest} {error : RouteError}
    (runId : String)
    (h : (r.resolveHttpMessageTarget user request.groupId request.slotId).1 = .error error) :
    r.sendMessage user request runId =
      (.error error, (r.resolveHttpMessageTarget user request.groupId request.slotId).2) := by
  unfold sendMessage
  revert h
  generalize r.resolveHttpMessageTarget user request.groupId request.slotId = resolved
  obtain ⟨target, r₁⟩ := resolved
  rintro rfl
  rfl

/-- A resolved message is submitted and registered unless its jid is empty or its text is blank. -/
theorem sendMessage_of_ok {user : AuthUser} {request : SendMessageRequest} {chatJid : String}
    (runId : String) (h : (r.resolveHttpMessageTarget user request.groupId request.slotId).1 =
      .ok (chatJid, request.groupId)) :
    let resolved := (r.resolveHttpMessageTarget user request.groupId request.slotId).2
    let result := r.sendMessage user request runId
    (chatJid ≠ "" → isBlank request.content = false → ∃ submitted row, result.1 = .ok submitted ∧
        submitted.groupFolder = request.groupId ∧ row.jid = chatJid ∧
        row.name = request.groupId ∧ row.folder = request.groupId ∧
        SameGroups { resolved with groups := resolved.groups.put row } result.2) ∧
      (chatJid = "" ∨ isBlank request.content = true →
        (∃ error, result.1 = .error error) ∧ result.2 = resolved) := by
  simp only [sendMessage]
  revert h
  generalize r.resolveHttpMessageTarget user request.groupId request.slotId = resolved
  obtain ⟨target, r₁⟩ := resolved
  rintro rfl
  constructor
  · intro hjid hblank
    obtain ⟨hrow, hname, hfolder⟩ := ensureRegisteredGroup_row chatJid request.groupId
      request.groupId (some user.id) none none r₁
    have hsame := ensureRegisteredGroup_groups chatJid request.groupId request.groupId
      (some user.id) none none r₁
    exact ⟨_, _, by simp [hjid, hblank]; rfl, by simp, hrow, hname, hfolder,
      by simpa [hjid, hblank, registerTarget] using hsame⟩
  · intro hor
    by_cases hjid : chatJid = ""
    · simp [hjid]
    · simp [hjid, hor.resolve_left hjid]

/-- What a message does after the home row was seen to: it is submitted in the folder it names,
and its target is registered, or it is an error and changes no row. -/
def Outcome (user : AuthUser) (request : SendMessageRequest) (home : Registry)
    (result : Except RouteError ExecutionRequest × Registry) : Prop :=
  (Accepted user request home ∧ ∃ submitted row, result.1 = .ok submitted ∧
      submitted.groupFolder = request.groupId ∧ row.jid = chatJidOf request home ∧
      row.name = request.groupId ∧ row.folder = request.groupId ∧
      SameGroups { home with groups := home.groups.put row } result.2) ∨
    (¬ Accepted user request home ∧ (∃ error, result.1 = .error error) ∧
      SameGroups home result.2)

/-- The tail of a message is the same for a web workspace and for the id itself. -/
theorem outcome_of_ok {user : AuthUser} {request : SendMessageRequest} {chatJid : String}
    (runId : String) (hok : (r.resolveHttpMessageTarget user request.groupId request.slotId).1 =
      .ok (chatJid, request.groupId))
    (hsame : SameGroups (r.ensureHomeWorkspace user).2
      (r.resolveHttpMessageTarget user request.groupId request.slotId).2)
    (hchat : chatJid = chatJidOf request (r.ensureHomeWorkspace user).2)
    (haccepted : Accepted user request (r.ensureHomeWorkspace user).2 ↔
      isBlank request.content = false ∧ chatJid ≠ "") :
    Outcome user request (r.ensureHomeWorkspace user).2 (r.sendMessage user request runId) := by
  obtain ⟨hsubmit, hrefuse⟩ := sendMessage_of_ok runId hok
  by_cases hacc : Accepted user request (r.ensureHomeWorkspace user).2
  · obtain ⟨hblank, hjid⟩ := haccepted.mp hacc
    obtain ⟨submitted, row, h₁, h₂, h₃, h₄, h₅, h₆⟩ := hsubmit hjid hblank
    refine Or.inl ⟨hacc, submitted, row, h₁, h₂, h₃.trans hchat, h₄, h₅, .trans ?_ h₆⟩
    exact ⟨congrArg (fun groups => Table.put groups row) hsame.groups, hsame.members, hsame.now⟩
  · have hor : chatJid = "" ∨ isBlank request.content = true := by
      by_contra hnot
      simp only [not_or, Bool.not_eq_true] at hnot
      exact hacc (haccepted.mpr ⟨hnot.2, hnot.1⟩)
    obtain ⟨herror, hsnd⟩ := hrefuse hor
    exact Or.inr ⟨hacc, herror, by rw [hsnd]; exact hsame⟩

theorem outcome_of_error {user : AuthUser} {request : SendMessageRequest} {error : RouteError}
    (runId : String)
    (herror : (r.resolveHttpMessageTarget user request.groupId request.slotId).1 = .error error)
    (hsame : SameGroups (r.ensureHomeWorkspace user).2
      (r.resolveHttpMessageTarget user request.groupId request.slotId).2)
    (haccepted : ¬ Accepted user request (r.ensureHomeWorkspace user).2) :
    Outcome user request (r.ensureHomeWorkspace user).2 (r.sendMessage user request runId) := by
  rw [sendMessage_of_error runId herror]
  exact Or.inr ⟨haccepted, ⟨_, rfl⟩, hsame⟩

/-- **Messages by HTTP.** An accepted message is submitted in the folder it names, and its target
is registered; any other is an error and changes no row after the home row. -/
theorem sendMessage_spec (user : AuthUser) (request : SendMessageRequest) (runId : String)
    (r : Registry) :
    Outcome user request (r.ensureHomeWorkspace user).2 (r.sendMessage user request runId) := by
  obtain ⟨hsame, hresolved⟩ := resolveHttpMessageTarget_spec user request.groupId request.slotId r
  cases hweb : (r.ensureHomeWorkspace user).2.webWorkspace request.groupId with
  | none =>
    rw [hweb] at hresolved
    by_cases hslot : request.slotId = "main"
    · refine outcome_of_ok runId (by simpa [hslot] using hresolved) hsame ?_ ?_
      · simp [chatJidOf, hweb]
      · simp [Accepted, hweb, hslot]
    · obtain ⟨error, herror⟩ : ∃ error, _ = Except.error error := by simpa [hslot] using hresolved
      exact outcome_of_error runId herror hsame (by simp [Accepted, hweb, hslot])
  | some workspace =>
    obtain ⟨-, hfolder, hstart, -⟩ := webWorkspace_spec hweb
    have hjid : workspace.jid ≠ "" := by
      intro hempty
      rw [hempty] at hstart
      cases hstart
    rw [hweb] at hresolved
    simp only at hresolved
    split at hresolved
    · rename_i hchecked
      refine outcome_of_ok runId (hresolved.trans (by rw [hfolder])) hsame ?_ ?_
      · simp [chatJidOf, hweb]
      · simp only [Accepted, hweb]
        exact and_congr_right fun _ => iff_of_true hchecked hjid
    · rename_i hchecked
      obtain ⟨error, herror⟩ := hresolved
      refine outcome_of_error runId herror hsame fun haccepted => hchecked ?_
      simp only [Accepted, hweb] at haccepted
      exact haccepted.2

end Registry

end Portex
