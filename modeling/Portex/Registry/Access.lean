import Portex.Registry.Rows

/-!
# Access to the folder of a message

`POST /messages` checks the access of its user where the group id names a web workspace. Where it
names none, the id itself becomes the jid and the folder of the message, whatever rows there are.

## Main definitions

* `Denied`: the user may access none of the rows that the group id names, and there is one
* `Refused`: no run is submitted in the folder, and no row changes
* `Shielded`: when a request is checked, and leaves the home row of its user alone

## Main results

* `refused_iff_shielded`: the requests of denied users that are refused
* `exists_intrusion`: a denied user submits a run in the folder of an IM chat
-/

namespace Portex

open Foundation

namespace Registry

variable {r r' : Registry} {user : AuthUser} {request : SendMessageRequest} {g : String}

/-- Some row has the folder or the jid `g`, and the user may access no such row. -/
def Denied (user : AuthUser) (g : String) (r : Registry) : Prop :=
  (∃ group ∈ r.groups.rows, group.folder = g ∨ group.jid = g) ∧
    ∀ group ∈ r.groups.rows, group.folder = g ∨ group.jid = g →
      r.userCanAccessGroup user group = false

instance (user : AuthUser) (g : String) (r : Registry) : Decidable (Denied user g r) :=
  inferInstanceAs (Decidable (_ ∧ _))

/-- The rows of `r` are in `r'` as they were. -/
def RowsKept (r r' : Registry) : Prop :=
  ∀ group ∈ r.groups.rows, r'.groups.get? group.jid = some group

/-- The request submits no run in the folder it names, and leaves every row unchanged. -/
def Refused (user : AuthUser) (request : SendMessageRequest) (runId : String) (r : Registry) :
    Prop :=
  (∀ submitted, (r.sendMessage user request runId).1 = .ok submitted →
      submitted.groupFolder ≠ request.groupId) ∧
    RowsKept r (r.sendMessage user request runId).2

/-- The home row of the user is absent, or already what `ensure_home_workspace` makes it. -/
def HomeSettled (user : AuthUser) (r : Registry) : Prop :=
  ∀ home ∈ r.getRegisteredGroup (homeJid user),
    home.name = homeName user ∧ home.folder = homeFolder user ∧ home.createdBy ≠ none ∧
      home.isHome = true

/-- Some web row has the folder `g`. -/
def NamesWorkspace (g : String) (r : Registry) : Prop :=
  ∃ group ∈ r.groups.rows, group.folder = g ∧ startsWith group.jid "web:" = true

/-- The request makes the home row of its user, and names it. -/
def OpensHome (user : AuthUser) (g : String) (r : Registry) : Prop :=
  r.getRegisteredGroup (homeJid user) = none ∧ g = homeFolder user

/-- The row comes before a home row that is made now. -/
def PrecedesHome (user : AuthUser) (group : RegisteredGroup) (r : Registry) : Prop :=
  group.addedAt < r.now ∨
    (group.addedAt = r.now ∧ group.jid.toList < (homeJid user).toList)

/-- Where the home row is not made on the way: the text is blank, or the group id names a web
workspace, or the slot is not the main one, or the group id is empty. Where it is: the text is
blank, or an older web row has the folder, or the slot is missing. -/
def Checked (user : AuthUser) (request : SendMessageRequest) (r : Registry) : Prop :=
  isBlank request.content = true ∨
    (OpensHome user request.groupId r ∧
      ((∃ group ∈ r.groups.rows, group.folder = request.groupId ∧
          startsWith group.jid "web:" = true ∧ PrecedesHome user group r) ∨
        (request.slotId ≠ "main" ∧ r.getSlot request.groupId request.slotId = none))) ∨
    (¬ OpensHome user request.groupId r ∧
      (NamesWorkspace request.groupId r ∨ request.slotId ≠ "main" ∨ request.groupId = ""))

def Shielded (user : AuthUser) (request : SendMessageRequest) (r : Registry) : Prop :=
  HomeSettled user r ∧ Checked user request r

/-! ## The home row -/

theorem homeJid_web (user : AuthUser) : startsWith (homeJid user) "web:" = true := by
  unfold homeJid
  split
  · rfl
  · exact startsWith_append "web:" ("home-" ++ user.id) ▸ by
      simp [startsWith]

theorem ensureHomeWorkspace_groups (user : AuthUser) (r : Registry) :
    SameGroups { r with groups := r.groups.put (r.ensureHomeWorkspace user).1 }
      (r.ensureHomeWorkspace user).2 :=
  ensureRegisteredGroup_groups _ _ _ _ _ _ r

theorem ensureHomeWorkspace_row (user : AuthUser) (r : Registry) :
    (r.ensureHomeWorkspace user).1.jid = homeJid user ∧
      (r.ensureHomeWorkspace user).1.name = homeName user ∧
      (r.ensureHomeWorkspace user).1.folder = homeFolder user :=
  ensureRegisteredGroup_row _ _ _ _ _ _ r

theorem ensureHomeWorkspace_of_none (h : r.getRegisteredGroup (homeJid user) = none) :
    (r.ensureHomeWorkspace user).1 =
      { jid := homeJid user, name := homeName user, folder := homeFolder user, addedAt := r.now,
        createdBy := some user.id, isHome := true } := by
  simp [ensureHomeWorkspace, ensureRegisteredGroup, h]

theorem ensureHomeWorkspace_of_some {home : RegisteredGroup}
    (h : r.getRegisteredGroup (homeJid user) = some home) :
    (r.ensureHomeWorkspace user).1 = { home with
      name := homeName user
      folder := homeFolder user
      createdBy := if home.createdBy = none then some user.id else home.createdBy
      isHome := true } := by
  simp [ensureHomeWorkspace, ensureRegisteredGroup, h]

/-- A home row is what `ensure_home_workspace` makes it just if it has the name and the folder of
the home, a creator, and the mark. -/
theorem ensureHomeWorkspace_eq_iff {home : RegisteredGroup}
    (h : r.getRegisteredGroup (homeJid user) = some home) :
    (r.ensureHomeWorkspace user).1 = home ↔
      home.name = homeName user ∧ home.folder = homeFolder user ∧ home.createdBy ≠ none ∧
        home.isHome = true := by
  rw [ensureHomeWorkspace_of_some h]
  obtain ⟨jid, name, folder, addedAt, createdBy, isHome, target⟩ := home
  simp only [RegisteredGroup.mk.injEq]
  cases createdBy with
  | none => simp
  | some creator => simp [eq_comm]

theorem mem_rows_home {group : RegisteredGroup} :
    group ∈ (r.ensureHomeWorkspace user).2.groups.rows ↔
      group = (r.ensureHomeWorkspace user).1 ∨
        (group.jid ≠ homeJid user ∧ group ∈ r.groups.rows) := by
  rw [(ensureHomeWorkspace_groups user r).groups, Table.mem_rows_put,
    (ensureHomeWorkspace_row user r).1]

/-- The home row is left alone just if it is settled. -/
theorem rowsKept_home_iff : RowsKept r (r.ensureHomeWorkspace user).2 ↔ HomeSettled user r := by
  have hjid := (ensureHomeWorkspace_row user r).1
  unfold RowsKept
  simp only [(ensureHomeWorkspace_groups user r).groups, Table.get?_put, hjid]
  constructor
  · intro hkept home hhome
    have hhome : r.groups.get? (homeJid user) = some home := hhome
    have hkey : home.jid = homeJid user := Table.key_of_get? hhome
    have hput := hkept home (Table.mem_rows_of_get? hhome)
    rw [if_pos hkey] at hput
    exact (ensureHomeWorkspace_eq_iff hhome).mp (Option.some.inj hput)
  · intro hsettled group hgroup
    have hget : r.groups.get? group.jid = some group := Table.mem_rows.mp hgroup
    split
    · rename_i hkey
      rw [hkey] at hget
      exact congrArg some ((ensureHomeWorkspace_eq_iff hget).mpr (hsettled group hget))
    · exact hget

/-- Where no home row is made for `g`, the web rows with the folder `g` are those there were. -/
theorem web_home_iff (hsettled : HomeSettled user r) (hopens : ¬ OpensHome user g r)
    {group : RegisteredGroup} (hfolder : group.folder = g) :
    group ∈ (r.ensureHomeWorkspace user).2.groups.rows ↔ group ∈ r.groups.rows := by
  rw [mem_rows_home]
  cases hhome : r.getRegisteredGroup (homeJid user) with
  | none =>
    have hne : group ≠ (r.ensureHomeWorkspace user).1 := by
      rintro rfl
      rw [(ensureHomeWorkspace_row user r).2.2] at hfolder
      exact hopens ⟨hhome, hfolder.symm⟩
    have hjid : group ∈ r.groups.rows → group.jid ≠ homeJid user := by
      intro hmem heq
      have hget := Table.mem_rows.mp hmem
      rw [heq] at hget
      exact Option.some_ne_none _ (hget.symm.trans hhome)
    exact ⟨fun h => (h.resolve_left hne).2, fun h => Or.inr ⟨hjid h, h⟩⟩
  | some home =>
    have hrow := (ensureHomeWorkspace_eq_iff hhome).mpr (hsettled home hhome)
    rw [hrow]
    constructor
    · rintro (rfl | ⟨-, hmem⟩)
      · exact Table.mem_rows_of_get? hhome
      · exact hmem
    · intro hmem
      by_cases heq : group.jid = homeJid user
      · have hget := Table.mem_rows.mp hmem
        rw [heq] at hget
        exact Or.inl (Option.some.inj (hget.symm.trans hhome))
      · exact Or.inr ⟨heq, hmem⟩

/-! ## The refused requests -/

theorem refused_iff (runId : String) : Refused user request runId r ↔
    HomeSettled user r ∧ ¬ Accepted user request (r.ensureHomeWorkspace user).2 := by
  rcases sendMessage_spec user request runId r with
    ⟨hacc, submitted, -, hok, hfolder, -⟩ | ⟨hacc, ⟨error, herror⟩, hsame⟩
  · refine iff_of_false (fun hrefused => ?_) (fun h => h.2 hacc)
    exact hrefused.1 submitted hok hfolder
  · have hkept : RowsKept r (r.sendMessage user request runId).2 ↔ HomeSettled user r := by
      rw [← rowsKept_home_iff]
      unfold RowsKept
      rw [hsame.groups]
    unfold Refused
    rw [hkept, herror]
    simp [hacc]

/-- A web workspace that was there before is denied also after the home row was seen to. -/
theorem denied_home (h : Denied user g r) {group : RegisteredGroup} (hmem : group ∈ r.groups.rows)
    (hfolder : group.folder = g) (hweb : startsWith group.jid "web:" = true) :
    (r.ensureHomeWorkspace user).2.userCanAccessGroup user group = false := by
  have hmembers : (r.ensureHomeWorkspace user).2.members = r.members :=
    (ensureHomeWorkspace_groups user r).members
  exact (userCanAccessGroup_of_web hmembers user hweb).trans (h.2 group hmem (Or.inl hfolder))

/-- Where no home row is made for the group id, a denied request is checked unless it names no
web workspace, in the main slot. -/
theorem accepted_iff_of_not_opensHome (h : Denied user request.groupId r)
    (hsettled : HomeSettled user r) (hopens : ¬ OpensHome user request.groupId r) :
    Accepted user request (r.ensureHomeWorkspace user).2 ↔
      isBlank request.content = false ∧ ¬ NamesWorkspace request.groupId r ∧
        request.slotId = "main" ∧ request.groupId ≠ "" := by
  cases hweb : (r.ensureHomeWorkspace user).2.webWorkspace request.groupId with
  | some workspace =>
    obtain ⟨hget, hfolder, hstart, -⟩ := webWorkspace_spec hweb
    have hmem := (web_home_iff hsettled hopens hfolder).mp (Table.mem_rows_of_get? hget)
    have hnames : NamesWorkspace request.groupId r := ⟨workspace, hmem, hfolder, hstart⟩
    simp [Accepted, hweb, denied_home h hmem hfolder hstart, hnames]
  | none =>
    have hnames : ¬ NamesWorkspace request.groupId r := by
      rintro ⟨group, hmem, hfolder, hstart⟩
      have hmem' := (web_home_iff hsettled hopens hfolder).mpr hmem
      rw [webWorkspace_eq_none.mp hweb group hmem' hfolder] at hstart
      cases hstart
    simp [Accepted, hweb, hnames]

theorem precedesHome_iff (h : r.getRegisteredGroup (homeJid user) = none)
    {group : RegisteredGroup} :
    PrecedesHome user group r ↔ group.rank < (r.ensureHomeWorkspace user).1.rank := by
  rw [ensureHomeWorkspace_of_none h]
  simp [PrecedesHome, RegisteredGroup.rank, Prod.Lex.toLex_lt_toLex]

/-- Where the home row is made and named, it is open to its user unless another web row with the
folder comes first. -/
theorem accepted_iff_of_opensHome (h : Denied user request.groupId r)
    (hopens : OpensHome user request.groupId r) :
    Accepted user request (r.ensureHomeWorkspace user).2 ↔
      isBlank request.content = false ∧
        (∀ group ∈ r.groups.rows, group.folder = request.groupId →
          startsWith group.jid "web:" = true → ¬ PrecedesHome user group r) ∧
        (request.slotId = "main" ∨ r.getSlot request.groupId request.slotId ≠ none) := by
  obtain ⟨hnone, hgroupId⟩ := hopens
  obtain ⟨hjid, -, hfolder⟩ := ensureHomeWorkspace_row user r
  have hother : ∀ group ∈ r.groups.rows, group.jid ≠ homeJid user := by
    intro group hmem heq
    have hget := Table.mem_rows.mp hmem
    rw [heq] at hget
    exact Option.some_ne_none _ (hget.symm.trans hnone)
  cases hweb : (r.ensureHomeWorkspace user).2.webWorkspace request.groupId with
  | none =>
    -- The home row itself is a web row with the folder.
    have hmem : (r.ensureHomeWorkspace user).1 ∈ (r.ensureHomeWorkspace user).2.groups.rows :=
      mem_rows_home.mpr (Or.inl rfl)
    have hstart := webWorkspace_eq_none.mp hweb _ hmem (hfolder.trans hgroupId.symm)
    rw [hjid, homeJid_web] at hstart
    cases hstart
  | some workspace =>
    obtain ⟨hget, hfolder', hstart, hleast⟩ := webWorkspace_spec hweb
    rcases mem_rows_home.mp (Table.mem_rows_of_get? hget) with rfl | ⟨hne, hmem⟩
    · have haccess : (r.ensureHomeWorkspace user).2.userCanAccessGroup user
          (r.ensureHomeWorkspace user).1 = true := by
        rw [ensureHomeWorkspace_of_none hnone]
        simp [userCanAccessGroup, userCanAccessWebGroup]
      have hfirst : ∀ group ∈ r.groups.rows, group.folder = request.groupId →
          startsWith group.jid "web:" = true → ¬ PrecedesHome user group r := by
        intro group hgroup hgroupFolder hgroupWeb
        rw [precedesHome_iff hnone, not_lt]
        exact hleast group (mem_rows_home.mpr (Or.inr ⟨hother group hgroup, hgroup⟩))
          hgroupFolder hgroupWeb
      have hslot : request.slotId ≠ "main" →
          (r.ensureHomeWorkspace user).2.getSlot request.groupId request.slotId =
            r.getSlot request.groupId request.slotId :=
        getSlot_ensureRegisteredGroup _ _ _ _ _ _ r
      by_cases hmain : request.slotId = "main"
      · simpa [Accepted, hweb, haccess, hmain] using fun _ => hfirst
      · simpa [Accepted, hweb, haccess, hmain, hfolder', hslot hmain] using fun _ _ => hfirst
    · have hprecedes : PrecedesHome user workspace r := by
        rw [precedesHome_iff hnone]
        refine lt_of_le_of_ne (hleast _ (mem_rows_home.mpr (Or.inl rfl))
          (hfolder.trans hgroupId.symm) (by rw [hjid]; exact homeJid_web user)) fun heq => ?_
        exact hne ((jid_eq_of_rank_eq heq).trans hjid)
      refine iff_of_false (fun haccepted => ?_) fun hall => ?_
      · simp [Accepted, hweb, denied_home h hmem hfolder' hstart] at haccepted
      · exact hall.2.1 workspace hmem hfolder' hstart hprecedes

/-- **Access to the folder of a message.** A request of a user that is denied every row the group
id names is refused exactly if it is shielded. -/
theorem refused_iff_shielded (user : AuthUser) (request : SendMessageRequest) (runId : String)
    (r : Registry) (h : Denied user request.groupId r) :
    Refused user request runId r ↔ Shielded user request r := by
  rw [refused_iff, Shielded]
  refine and_congr_right fun hsettled => ?_
  have hbool : ¬ isBlank request.content = false ↔ isBlank request.content = true := by simp
  by_cases hopens : OpensHome user request.groupId r
  · rw [accepted_iff_of_opensHome h hopens, Checked, not_and_or, not_and_or, hbool]
    have hexists : (¬ ∀ group ∈ r.groups.rows, group.folder = request.groupId →
        startsWith group.jid "web:" = true → ¬ PrecedesHome user group r) ↔
          ∃ group ∈ r.groups.rows, group.folder = request.groupId ∧
            startsWith group.jid "web:" = true ∧ PrecedesHome user group r := by
      push Not
      rfl
    rw [hexists, not_or, not_not]
    simp only [hopens, true_and, not_true, false_and, or_false]
  · rw [accepted_iff_of_not_opensHome h hsettled hopens, Checked, not_and_or, hbool]
    simp only [hopens, false_and, not_false_eq_true, true_and, false_or]
    tauto

/-- A chat of Telegram, and a user of the server. -/
def chatRow : RegisteredGroup :=
  { jid := "telegram:7", name := "telegram:7", folder := "chat-7", addedAt := 0 }

def stranger : AuthUser := { id := "v", username := "v", role := "member" }

/-- A message by HTTP. -/
def messageTo (groupId : String) : SendMessageRequest := { groupId, content := "hello" }

/-- **A stranger in a chat.** A user that may access no row with the folder of an IM chat submits
a run in it. -/
theorem exists_intrusion : ∃ r : Registry,
    Denied stranger "chat-7" r ∧ ¬ Refused stranger (messageTo "chat-7") "run" r := by
  refine ⟨{ groups := (∅ : Table _).put chatRow }, by decide, fun hrefused => ?_⟩
  exact hrefused.1 _ rfl rfl

theorem refused_iff_shielded_chat : ∃ r : Registry, Denied stranger "chat-7" r ∧
    (Refused stranger (messageTo "chat-7") "run" r ↔ Shielded stranger (messageTo "chat-7") r) :=
  ⟨{ groups := (∅ : Table _).put chatRow }, by decide, refused_iff_shielded _ _ _ _ (by decide)⟩

end Registry

end Portex
