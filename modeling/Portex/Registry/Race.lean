import Portex.Registry.Owners

/-!
# The race for a workspace

Calls of `create_workspace` for one folder, each by another user and on a session of its own. A
call checks the folder, looks the row up by its jid, inserts it or takes what it finds, ensures the
main slot and adds its user as an owner, and other calls go on between any two of these statements.
The lookup by jid does not ask who created the row, so a call that has passed the check can become
an owner of the workspace of another.

A change is one statement with the commit after it. Statements that neither read nor write rows of
the workspace, as those of the schema are, are left out.

## Main definitions

* `CreationPhase`: how far a call is
* `Race`, `Race.step`: the calls over one database
* `Uncontested`: one call succeeds at most, and in the end the creator is the sole owner
* `JoinsOwn`: the step adds no owner to the workspace of another

## Main results

* `advance_spec`: what a statement of a call does
* `inv_of_run`: what every run keeps
* `uncontested_iff`: the races that are not contested
* `exists_contested`: two calls succeed
-/

namespace Portex

open Foundation

namespace Registry

inductive CreationError
  | registry (error : RegistryError)
  /-- The `IntegrityError` of an insert whose key is taken. -/
  | integrity
  /-- The row that the session holds is gone. -/
  | stale
  /-- `RuntimeError`. -/
  | runtime (detail : String)
  deriving DecidableEq

/-- The statement that a call of `create_workspace` is about to make. -/
inductive CreationPhase
  /-- `_get_group_by_folder`. -/
  | checking
  /-- `db.get(RegisteredGroup, jid)`. -/
  | looking
  | updating (existing : RegisteredGroup)
  | inserting (group : RegisteredGroup)
  /-- `db.refresh`. -/
  | refreshing
  | slotLooking (group : RegisteredGroup)
  | slotClaiming (group : RegisteredGroup) (slot : ConversationSlot)
  | slotInserting (group : RegisteredGroup) (slot : ConversationSlot)
  | memberLooking (group : RegisteredGroup)
  | merging (group : RegisteredGroup) (member : GroupMember)
  /-- `get_member`, of the member that was added. -/
  | confirming (group : RegisteredGroup)
  | succeeded (group : RegisteredGroup)
  | failed (error : CreationError)
  deriving DecidableEq

/-- The jid of the workspace of a folder. -/
def workspaceJid (folder : String) : String := "web:" ++ folder

/-- One statement of the call of a user. -/
def advance (folder name user : String) (phase : CreationPhase) (r : Registry) :
    CreationPhase × Registry :=
  match phase with
  | .checking =>
    match validateWorkspaceFolder folder with
    | .error error => (.failed (.registry error), r)
    | .ok () =>
      match r.getGroupByFolder folder with
      | some _ => (.failed (.registry (.conflict "workspace already exists")), r)
      | none => (.looking, r)
  | .looking =>
    match r.getRegisteredGroup (workspaceJid folder) with
    | some existing => (.updating existing, r)
    | none =>
      (.inserting
        { jid := workspaceJid folder, name, folder, addedAt := r.now, createdBy := some user }, r)
  | .updating existing =>
    match r.getRegisteredGroup existing.jid with
    | some row =>
      -- Only the columns that the session has changed are written.
      let row := { row with
        name := if existing.name = name then row.name else name
        folder := if existing.folder = folder then row.folder else folder
        createdBy := if existing.createdBy = none then some user else row.createdBy }
      (.refreshing, { r with groups := r.groups.put row })
    | none => (.failed .stale, r)
  | .inserting group =>
    match r.getRegisteredGroup group.jid with
    | some _ => (.failed .integrity, r)
    | none => (.refreshing, { r with groups := r.groups.put group })
  | .refreshing =>
    match r.getRegisteredGroup (workspaceJid folder) with
    | some group => (.slotLooking group, r)
    | none => (.failed .stale, r)
  | .slotLooking group =>
    match r.getSlot group.folder "main" with
    | some existing =>
      if existing.createdBy = none ∧ group.createdBy ≠ none then (.slotClaiming group existing, r)
      else (.memberLooking group, r)
    | none =>
      (.slotInserting group
        { workspaceFolder := group.folder, slotId := "main", title := "Main"
          createdBy := group.createdBy, createdAt := r.now }, r)
  | .slotClaiming group slot =>
    (.memberLooking group,
      { r with slots := r.slots.put { slot with createdBy := group.createdBy } })
  | .slotInserting group slot =>
    match r.getSlot slot.workspaceFolder slot.slotId with
    | some _ => (.failed .integrity, r)
    | none => (.memberLooking group, { r with slots := r.slots.put slot })
  | .memberLooking group =>
    match r.getMember folder user with
    | some existing =>
      if existing.role ≠ "owner" then
        (.failed (.registry (.value "owner role changes are not supported")), r)
      else (.merging group existing, r)
    | none =>
      (.merging group
        { groupFolder := folder, userId := user, role := "owner", joinedAt := r.now,
          addedBy := some user }, r)
  | .merging group member => (.confirming group, { r with members := r.members.put member })
  | .confirming group =>
    match r.getMember folder user with
    | some _ => (.succeeded group, r)
    | none => (.failed (.runtime "failed to persist group member"), r)
  | .succeeded group => (.succeeded group, r)
  | .failed error => (.failed error, r)

def CreationPhase.Ended : CreationPhase → Prop
  | .succeeded _ | .failed _ => True
  | _ => False

instance : DecidablePred CreationPhase.Ended := fun phase => by
  cases phase <;> unfold CreationPhase.Ended <;> infer_instance

/-- The row that the call holds when it adds its user is one that the user created. -/
def CreationPhase.JoinsOwn (user : String) : CreationPhase → Prop
  | .merging group _ => group.createdBy = some user
  | _ => True

instance (user : String) : DecidablePred (CreationPhase.JoinsOwn user) := fun phase => by
  cases phase <;> unfold CreationPhase.JoinsOwn <;> infer_instance

/-- The calls for a folder, by their users. -/
structure Race where
  registry : Registry
  phase : String → Option CreationPhase

/-- A user's call makes its next statement, at a time. -/
structure CreationStep where
  user : String
  now : ℕ

/-- A step of one of the calls; `name` gives the name that each asks for. -/
def Race.step (folder : String) (name : String → String) (s : Race) (a : CreationStep) :
    Option Race :=
  match s.phase a.user with
  | none => none
  | some phase =>
    if phase.Ended then none
    else
      let next := advance folder (name a.user) a.user phase { s.registry with now := a.now }
      some { registry := next.2, phase := Function.update s.phase a.user (some next.1) }

/-- Each of some users calls. -/
def Race.start (r : Registry) (users : List String) : Race where
  registry := r
  phase user := if user ∈ users then some .checking else none

/-- Nothing is there of the folder. -/
structure New (folder : String) (r : Registry) : Prop where
  group : ∀ group ∈ r.groups.rows, group.folder ≠ folder
  jid : r.groups.get? (workspaceJid folder) = none
  slot : r.getSlot folder "main" = none
  member : ∀ member ∈ r.members.rows, member.groupFolder ≠ folder

namespace Race

def Succeeded (s : Race) (user : String) : Prop :=
  ∃ group, s.phase user = some (.succeeded group)

/-- Every call has ended. -/
def Ended (s : Race) : Prop := ∀ user phase, s.phase user = some phase → phase.Ended

/-- One call has succeeded at most; and when all have ended, the workspace is there, and its
creator is its only owner. -/
def Uncontested (folder : String) (s : Race) : Prop :=
  (∀ user user', s.Succeeded user → s.Succeeded user' → user = user') ∧
    (s.Ended → ∃ group, s.registry.groups.get? (workspaceJid folder) = some group ∧
      group.folder = folder ∧ SoleOwner group s.registry)

/-- The step adds no owner to the workspace of another: the row that the call holds is one that
its own user created. -/
def JoinsOwn (s : Race) (a : CreationStep) : Prop :=
  ∀ phase ∈ s.phase a.user, phase.JoinsOwn a.user

instance (s : Race) (a : CreationStep) : Decidable (s.JoinsOwn a) := by
  unfold JoinsOwn
  infer_instance

end Race

/-! ## What one statement does -/

/-- The rows of the folder: its group has the jid of the workspace and a creator, and its members
are owners. -/
structure Placed (folder : String) (r : Registry) : Prop where
  jid : ∀ group ∈ r.groups.rows, group.folder = folder → group.jid = workspaceJid folder
  row : ∀ row, r.groups.get? (workspaceJid folder) = some row →
    row.folder = folder ∧ row.createdBy ≠ none
  owner : ∀ member ∈ r.members.rows, member.groupFolder = folder → member.role = "owner"

/-- The workspace is there, and the group has its creator. -/
def OfRow (folder : String) (r : Registry) (group : RegisteredGroup) : Prop :=
  group.jid = workspaceJid folder ∧ group.folder = folder ∧
    ∃ row, r.groups.get? (workspaceJid folder) = some row ∧ row.createdBy = group.createdBy

/-- The user is an owner. -/
def HasOwner (folder : String) (r : Registry) (user : String) : Prop :=
  ∃ member, r.getMember folder user = some member ∧ member.role = "owner"

theorem key_of_getMember {folder user : String} {member : GroupMember} {r : Registry}
    (h : r.getMember folder user = some member) :
    member.groupFolder = folder ∧ member.userId = user :=
  Prod.mk.inj (show member.key = (folder, user) from Table.key_of_get? h)

/-- What a call at that statement has found. -/
def Fits (folder : String) (r : Registry) (user : String) : CreationPhase → Prop
  | .checking | .looking => True
  | .inserting group =>
    group.jid = workspaceJid folder ∧ group.folder = folder ∧ group.createdBy = some user
  | .refreshing | .failed _ => (r.groups.get? (workspaceJid folder)).isSome
  | .updating group | .slotLooking group | .slotClaiming group _ | .memberLooking group =>
    OfRow folder r group
  | .slotInserting group slot =>
    OfRow folder r group ∧ slot.workspaceFolder = folder ∧ slot.slotId = "main"
  | .merging group member =>
    OfRow folder r group ∧ member.key = (folder, user) ∧ member.role = "owner"
  | .confirming group | .succeeded group => OfRow folder r group ∧ HasOwner folder r user

/-- The call has the row, and not yet the slot. -/
def CreationPhase.Working : CreationPhase → Prop
  | .refreshing | .slotLooking _ | .slotClaiming _ _ | .slotInserting _ _ => True
  | _ => False

/-- The call has the slot; nothing makes it fail any more. -/
def CreationPhase.Admitted : CreationPhase → Prop
  | .memberLooking _ | .merging _ _ | .confirming _ | .succeeded _ => True
  | _ => False

/-- The call has added its owner. -/
def CreationPhase.Joined : CreationPhase → Prop
  | .confirming _ | .succeeded _ => True
  | _ => False

/-- The workspace keeps its creator, and the owners stay. -/
structure Grows (folder : String) (r r' : Registry) : Prop where
  row : ∀ row, r.groups.get? (workspaceJid folder) = some row →
    ∃ row', r'.groups.get? (workspaceJid folder) = some row' ∧ row'.createdBy = row.createdBy
  owner : ∀ user, HasOwner folder r user → HasOwner folder r' user

theorem Grows.refl (folder : String) (r : Registry) : Grows folder r r :=
  ⟨fun row h => ⟨row, h, rfl⟩, fun _ h => h⟩

/-- What a call has found stays. -/
theorem Fits.mono {folder user : String} {r r' : Registry} {phase : CreationPhase}
    (h : Fits folder r user phase) (hgrows : Grows folder r r') : Fits folder r' user phase := by
  have hof {group : RegisteredGroup} (h : OfRow folder r group) : OfRow folder r' group := by
    obtain ⟨hjid, hfolder, row, hrow, hcreated⟩ := h
    obtain ⟨row', hrow', hcreated'⟩ := hgrows.row row hrow
    exact ⟨hjid, hfolder, row', hrow', hcreated'.trans hcreated⟩
  have hhas (h : (r.groups.get? (workspaceJid folder)).isSome) :
      (r'.groups.get? (workspaceJid folder)).isSome := by
    obtain ⟨row, hrow⟩ := Option.isSome_iff_exists.mp h
    obtain ⟨row', hrow', -⟩ := hgrows.row row hrow
    exact Option.isSome_iff_exists.mpr ⟨row', hrow'⟩
  cases phase with
  | checking | looking => trivial
  | inserting group => exact h
  | refreshing | failed error => exact hhas h
  | updating group | slotLooking group | slotClaiming group slot | memberLooking group =>
    exact hof h
  | slotInserting group slot => exact ⟨hof h.1, h.2⟩
  | merging group member => exact ⟨hof h.1, h.2⟩
  | confirming group | succeeded group => exact ⟨hof h.1, hgrows.owner user h.2⟩

/-- What a statement of a call does. -/
structure Advances (folder user : String) (phase phase' : CreationPhase) (r r' : Registry) :
    Prop where
  placed : Placed folder r'
  grows : Grows folder r r'
  fits : Fits folder r' user phase'
  /-- A row that is new has the user as its creator, who goes on to the slot. -/
  created : r.groups.get? (workspaceJid folder) = none →
    ∀ row, r'.groups.get? (workspaceJid folder) = some row →
      row.createdBy = some user ∧ phase' = .refreshing
  slot : (r'.getSlot folder "main").isSome → (r.getSlot folder "main").isSome ∨ phase'.Admitted
  owner : ∀ other, HasOwner folder r' other → HasOwner folder r other ∨
    (other = user ∧ phase'.Joined ∧ ∃ group member, phase = .merging group member)
  merged : ∀ group member, phase = .merging group member → HasOwner folder r' user
  admitted : phase.Admitted → phase'.Admitted
  joined : phase.Joined → phase'.Joined
  working : phase.Working → phase'.Working ∨ phase'.Admitted ∨ (r.getSlot folder "main").isSome

/-- A statement that only reads. -/
theorem Advances.of_read {folder user : String} {phase phase' : CreationPhase} {r : Registry}
    (hplaced : Placed folder r) (hfits : Fits folder r user phase')
    (hadmitted : phase.Admitted → phase'.Admitted) (hjoined : phase.Joined → phase'.Joined)
    (hworking : phase.Working →
      phase'.Working ∨ phase'.Admitted ∨ (r.getSlot folder "main").isSome)
    (hmerging : ∀ group member, phase ≠ .merging group member) :
    Advances folder user phase phase' r r where
  placed := hplaced
  grows := .refl folder r
  fits := hfits
  created hnone row hrow := by rw [hnone] at hrow; cases hrow
  slot h := .inl h
  owner _ h := .inl h
  merged group member h := absurd h (hmerging group member)
  admitted := hadmitted
  joined := hjoined
  working := hworking

theorem OfRow.found {folder : String} {r : Registry} (h : Placed folder r)
    {group : RegisteredGroup} (hrow : r.groups.get? (workspaceJid folder) = some group) :
    OfRow folder r group :=
  ⟨Table.key_of_get? hrow, (h.row group hrow).1, group, hrow, rfl⟩

/-- The row of the workspace is put, for a row with its creator or for none. -/
theorem advances_put_group {folder user : String} {phase : CreationPhase} {r : Registry}
    {group : RegisteredGroup} (h : Placed folder r) (hjid : group.jid = workspaceJid folder)
    (hfolder : group.folder = folder) (hcreated : group.createdBy ≠ none)
    (hnew : r.groups.get? (workspaceJid folder) = none → group.createdBy = some user)
    (hold : ∀ row, r.groups.get? (workspaceJid folder) = some row →
      group.createdBy = row.createdBy)
    (hadmitted : ¬ phase.Admitted) (hjoined : ¬ phase.Joined)
    (hmerging : ∀ group member, phase ≠ .merging group member) :
    Advances folder user phase .refreshing r { r with groups := r.groups.put group } := by
  have hget : (r.groups.put group).get? (workspaceJid folder) = some group := by
    rw [← hjid]
    exact Table.get?_put_self r.groups group
  constructor
  case placed =>
    refine ⟨fun other hother hof => ?_, fun row hrow => ?_, h.owner⟩
    · rcases Table.mem_rows_put.mp hother with rfl | ⟨-, hmem⟩
      · exact hjid
      · exact h.jid other hmem hof
    · obtain rfl := Option.some.inj (hget.symm.trans hrow)
      exact ⟨hfolder, hcreated⟩
  case grows => exact ⟨fun row hrow => ⟨group, hget, hold row hrow⟩, fun _ howner => howner⟩
  case fits => exact Option.isSome_iff_exists.mpr ⟨group, hget⟩
  case created =>
    intro hnone row hrow
    obtain rfl := Option.some.inj (hget.symm.trans hrow)
    exact ⟨hnew hnone, rfl⟩
  case slot => exact .inl
  case owner => exact fun _ => .inl
  case merged => exact fun group member h => absurd h (hmerging group member)
  case admitted => exact fun h => absurd h hadmitted
  case joined => exact fun h => absurd h hjoined
  case working => exact fun _ => .inl trivial

/-- The main slot is put. -/
theorem advances_put_slot {folder user : String} {phase : CreationPhase} {r : Registry}
    {group : RegisteredGroup} (slot : ConversationSlot) (h : Placed folder r)
    (hof : OfRow folder r group) (hjoined : ¬ phase.Joined)
    (hmerging : ∀ group member, phase ≠ .merging group member) :
    Advances folder user phase (.memberLooking group) r { r with slots := r.slots.put slot } where
  placed := ⟨h.jid, h.row, h.owner⟩
  grows := ⟨fun row hrow => ⟨row, hrow, rfl⟩, fun _ howner => howner⟩
  fits := hof
  created hnone row hrow := by
    rw [show r.groups.get? (workspaceJid folder) = some row from hrow] at hnone
    cases hnone
  slot _ := .inr trivial
  owner _ := .inl
  merged group member h := absurd h (hmerging group member)
  admitted _ := trivial
  joined h := absurd h hjoined
  working _ := .inr (.inl trivial)

/-- An owner is put. -/
theorem advances_put_member {folder user : String} {r : Registry} {group : RegisteredGroup}
    {member : GroupMember} (h : Placed folder r) (hof : OfRow folder r group)
    (hkey : member.key = (folder, user)) (hrole : member.role = "owner") :
    Advances folder user (.merging group member) (.confirming group) r
      { r with members := r.members.put member } := by
  have hget : (r.members.put member).get? (folder, user) = some member := by
    rw [← hkey]
    exact Table.get?_put_self r.members member
  constructor
  case placed =>
    refine ⟨h.jid, h.row, fun other hother hfolder => ?_⟩
    rcases Table.mem_rows_put.mp hother with rfl | ⟨-, hmem⟩
    · exact hrole
    · exact h.owner other hmem hfolder
  case grows =>
    refine ⟨fun row hrow => ⟨row, hrow, rfl⟩, fun other ⟨old, hold, howner⟩ => ?_⟩
    by_cases hsame : (folder, other) = member.key
    · exact ⟨member, by rw [getMember, hsame, Table.get?_put_self], hrole⟩
    · exact ⟨old, by rw [getMember, Table.get?_put_of_ne hsame]; exact hold, howner⟩
  case fits => exact ⟨hof, member, hget, hrole⟩
  case created =>
    intro hnone row hrow
    rw [show r.groups.get? (workspaceJid folder) = some row from hrow] at hnone
    cases hnone
  case slot => exact .inl
  case owner =>
    rintro other ⟨row, hrow, howner⟩
    by_cases hsame : (folder, other) = member.key
    · exact .inr ⟨(Prod.mk.inj (hsame.trans hkey)).2, trivial, group, member, rfl⟩
    · rw [getMember, Table.get?_put_of_ne hsame] at hrow
      exact .inl ⟨row, hrow, howner⟩
  case merged => exact fun _ _ _ => ⟨member, hget, hrole⟩
  case admitted => exact fun _ => trivial
  case joined => exact False.elim
  case working => exact False.elim

/-- A statement that only reads, of a call that has no slot yet. -/
theorem Advances.of_early {folder user : String} {phase phase' : CreationPhase} {r : Registry}
    (hplaced : Placed folder r) (hfits : Fits folder r user phase') (hadmitted : ¬ phase.Admitted)
    (hjoined : ¬ phase.Joined) (hmerging : ∀ group member, phase ≠ .merging group member)
    (hworking : phase.Working →
      phase'.Working ∨ phase'.Admitted ∨ (r.getSlot folder "main").isSome) :
    Advances folder user phase phase' r r :=
  .of_read hplaced hfits (fun h => absurd h hadmitted) (fun h => absurd h hjoined) hworking hmerging

/-- **A statement of a call** that is still going on. -/
theorem advance_spec {folder user : String} {phase : CreationPhase} {r : Registry} (name : String)
    (hvalid : validateWorkspaceFolder folder = .ok ()) (h : Placed folder r)
    (hfits : Fits folder r user phase) (hphase : ¬ phase.Ended) :
    Advances folder user phase (advance folder name user phase r).1 r
      (advance folder name user phase r).2 := by
  cases phase with
  | checking =>
    simp only [advance, hvalid]
    split
    · rename_i group hgroup
      have hmem : group ∈ r.groups.rows ∧ group.folder = folder := by
        simpa using (earliest_spec hgroup).1
      have hrow := Table.mem_rows.mp hmem.1
      rw [h.jid group hmem.1 hmem.2] at hrow
      exact .of_early h (Option.isSome_iff_exists.mpr ⟨group, hrow⟩) id id (by simp) False.elim
    · exact .of_early h trivial id id (by simp) False.elim
  | looking =>
    simp only [advance]
    split
    · rename_i existing hrow
      exact .of_early h (.found h hrow) id id (by simp) False.elim
    · exact .of_early h ⟨rfl, rfl, rfl⟩ id id (by simp) False.elim
  | updating existing =>
    obtain ⟨hjid, hfolder, row, hrow, hcreated⟩ := hfits
    obtain ⟨hof, hcreator⟩ := h.row row hrow
    have hkey : row.jid = workspaceJid folder := Table.key_of_get? hrow
    -- The row has a creator, so the call leaves it its creator.
    have hkept : existing.createdBy ≠ none := hcreated ▸ hcreator
    simp only [advance, getRegisteredGroup, hjid, hrow, hfolder, if_neg hkept, if_true]
    exact advances_put_group h hkey hof hcreator
      (fun hnone => by rw [hrow] at hnone; cases hnone)
      (fun other hother => by rw [Option.some.inj (hrow.symm.trans hother)]) id id (by simp)
  | inserting group =>
    obtain ⟨hjid, hfolder, hcreated⟩ := hfits
    simp only [advance, getRegisteredGroup, hjid]
    split
    · rename_i row hrow
      exact .of_early h (Option.isSome_iff_exists.mpr ⟨row, hrow⟩) id id (by simp) False.elim
    · rename_i hnone
      exact advances_put_group h hjid hfolder (by simp [hcreated]) (fun _ => hcreated)
        (fun other hother => by rw [hnone] at hother; cases hother) id id (by simp)
  | refreshing =>
    obtain ⟨group, hrow⟩ := Option.isSome_iff_exists.mp hfits
    simp only [advance, getRegisteredGroup, hrow]
    exact .of_early h (.found h hrow) id id (by simp) fun _ => .inl trivial
  | slotLooking group =>
    simp only [advance]
    split
    · split
      · exact .of_early h hfits id id (by simp) fun _ => .inl trivial
      · exact .of_early h hfits id id (by simp) fun _ => .inr (.inl trivial)
    · exact .of_early h ⟨hfits, hfits.2.1, rfl⟩ id id (by simp) fun _ => .inl trivial
  | slotClaiming group slot => exact advances_put_slot _ h hfits id (by simp)
  | slotInserting group slot =>
    obtain ⟨hof, hfolder, hslot⟩ := hfits
    simp only [advance, hfolder, hslot]
    split
    · rename_i taken htaken
      obtain ⟨row, hrow⟩ : ∃ row, r.groups.get? (workspaceJid folder) = some row :=
        hof.2.2.imp fun _ => And.left
      -- The slot was taken by another call, which has what it needs.
      exact .of_early h (Option.isSome_iff_exists.mpr ⟨row, hrow⟩) id id (by simp) fun _ =>
        .inr (.inr (Option.isSome_iff_exists.mpr ⟨taken, htaken⟩))
    · exact advances_put_slot slot h hof id (by simp)
  | memberLooking group =>
    simp only [advance]
    split
    · rename_i existing hexisting
      have hkey : existing.key = (folder, user) := Table.key_of_get? hexisting
      have hrole := h.owner existing (Table.mem_rows_of_get? hexisting)
        (key_of_getMember hexisting).1
      rw [if_neg (not_not_intro hrole)]
      exact .of_read h ⟨hfits, hkey, hrole⟩ (fun _ => trivial) False.elim False.elim (by simp)
    · exact .of_read h ⟨hfits, rfl, rfl⟩ (fun _ => trivial) False.elim False.elim (by simp)
  | merging group member => exact advances_put_member h hfits.1 hfits.2.1 hfits.2.2
  | confirming group =>
    obtain ⟨hof, member, hmember, hrole⟩ := hfits
    simp only [advance, hmember]
    exact .of_read h ⟨hof, member, hmember, hrole⟩ (fun _ => trivial) (fun _ => trivial)
      False.elim (by simp)
  | succeeded | failed => exact absurd trivial hphase

/-! ## Runs -/

namespace Race

variable {folder : String} {name : String → String} {s t : Race}

/-- Some call has the slot. -/
def AnyAdmitted (s : Race) : Prop := ∃ user phase, s.phase user = some phase ∧ phase.Admitted

/-- **The invariant** of the calls for a folder. -/
structure Inv (folder : String) (s : Race) : Prop where
  placed : Placed folder s.registry
  fits : ∀ user phase, s.phase user = some phase → Fits folder s.registry user phase
  /-- The call that created the row is on its way to the slot, or some call has it. -/
  creator : ∀ row, s.registry.groups.get? (workspaceJid folder) = some row →
    ∃ user phase, row.createdBy = some user ∧ s.phase user = some phase ∧
      (phase.Working ∨ s.AnyAdmitted)
  slot : (s.registry.getSlot folder "main").isSome → s.AnyAdmitted
  joined : ∀ user, HasOwner folder s.registry user →
    ∃ phase, s.phase user = some phase ∧ phase.Joined

theorem inv_start {r : Registry} (h : New folder r) (users : List String) :
    Inv folder (start r users) where
  placed := by
    refine ⟨fun group hgroup hfolder => absurd hfolder (h.group group hgroup), fun row hrow => ?_,
      fun member hmember hfolder => absurd hfolder (h.member member hmember)⟩
    have hnone := h.jid
    rw [show r.groups.get? (workspaceJid folder) = some row from hrow] at hnone
    cases hnone
  fits user phase hphase := by
    have hstart : (if user ∈ users then some CreationPhase.checking else none) = some phase :=
      hphase
    split at hstart
    · obtain rfl := Option.some.inj hstart
      trivial
    · cases hstart
  creator row hrow := by
    have hnone := h.jid
    rw [show r.groups.get? (workspaceJid folder) = some row from hrow] at hnone
    cases hnone
  slot hslot := by
    rw [show (start r users).registry.getSlot folder "main" = none from h.slot] at hslot
    cases hslot
  joined user howner := by
    obtain ⟨member, hmember, -⟩ := howner
    exact absurd (key_of_getMember hmember).1 (h.member member (Table.mem_rows_of_get? hmember))

/-- A step of the race. -/
theorem step_spec {a : CreationStep} (hvalid : validateWorkspaceFolder folder = .ok ())
    (h : Inv folder s) (hstep : step folder name s a = some t) :
    ∃ phase phase', s.phase a.user = some phase ∧
      t.phase = Function.update s.phase a.user (some phase') ∧
      Advances folder a.user phase phase' s.registry t.registry := by
  unfold step at hstep
  split at hstep
  · cases hstep
  · rename_i phase hphase
    split at hstep
    · cases hstep
    · rename_i hended
      obtain rfl := Option.some.inj hstep
      have hplaced : Placed folder { s.registry with now := a.now } :=
        ⟨h.placed.jid, h.placed.row, h.placed.owner⟩
      have hfits : Fits folder { s.registry with now := a.now } a.user phase :=
        (h.fits a.user phase hphase).mono ⟨fun row hrow => ⟨row, hrow, rfl⟩, fun _ howner => howner⟩
      have hspec := advance_spec (name a.user) hvalid hplaced hfits hended
      exact ⟨phase, _, hphase, rfl, hspec.placed, ⟨hspec.grows.row, hspec.grows.owner⟩, hspec.fits,
        hspec.created, hspec.slot, hspec.owner, hspec.merged, hspec.admitted, hspec.joined,
        hspec.working⟩

/-- **Every step** keeps the invariant. -/
theorem Inv.step {a : CreationStep} (hvalid : validateWorkspaceFolder folder = .ok ())
    (h : Inv folder s) (hstep : step folder name s a = some t) : Inv folder t := by
  obtain ⟨phase, phase', hphase, hupdate, hadvances⟩ := step_spec hvalid h hstep
  have hself : t.phase a.user = some phase' := by rw [hupdate, Function.update_self]
  have hother {user : String} (hne : user ≠ a.user) : t.phase user = s.phase user := by
    rw [hupdate, Function.update_of_ne hne]
  -- A call that has the slot keeps it.
  have hany (hany : s.AnyAdmitted) : t.AnyAdmitted := by
    obtain ⟨user, old, hold, hadmitted⟩ := hany
    by_cases hsame : user = a.user
    · rw [hsame, hphase] at hold
      obtain rfl := Option.some.inj hold
      exact ⟨a.user, phase', hself, hadvances.admitted hadmitted⟩
    · exact ⟨user, old, (hother hsame).trans hold, hadmitted⟩
  constructor
  case placed => exact hadvances.placed
  case fits =>
    intro user old hold
    by_cases hsame : user = a.user
    · rw [hsame, hself] at hold
      obtain rfl := Option.some.inj hold
      rw [hsame]
      exact hadvances.fits
    · exact (h.fits user old ((hother hsame).symm.trans hold)).mono hadvances.grows
  case creator =>
    intro row' hrow'
    cases hrow : s.registry.groups.get? (workspaceJid folder) with
    | none =>
      obtain ⟨hcreated, rfl⟩ := hadvances.created hrow row' hrow'
      exact ⟨a.user, _, hcreated, hself, .inl trivial⟩
    | some row =>
      obtain ⟨kept, hkept, hcreated⟩ := hadvances.grows.row row hrow
      obtain rfl := Option.some.inj (hrow'.symm.trans hkept)
      obtain ⟨user, old, huser, hold, hcase⟩ := h.creator row hrow
      rw [hcreated, huser]
      by_cases hsame : user = a.user
      · rw [hsame, hphase] at hold
        obtain rfl := Option.some.inj hold
        refine ⟨a.user, phase', by rw [hsame], hself, ?_⟩
        rcases hcase with hworking | hcase
        · rcases hadvances.working hworking with hworking | hadmitted | hslot
          · exact .inl hworking
          · exact .inr ⟨a.user, phase', hself, hadmitted⟩
          · exact .inr (hany (h.slot hslot))
        · exact .inr (hany hcase)
      · exact ⟨user, old, rfl, (hother hsame).trans hold, hcase.imp_right hany⟩
  case slot =>
    intro hslot
    rcases hadvances.slot hslot with hslot | hadmitted
    · exact hany (h.slot hslot)
    · exact ⟨a.user, phase', hself, hadmitted⟩
  case joined =>
    intro user howner
    rcases hadvances.owner user howner with howner | ⟨rfl, hjoined, -⟩
    · obtain ⟨old, hold, hjoined⟩ := h.joined user howner
      by_cases hsame : user = a.user
      · rw [hsame, hphase] at hold
        obtain rfl := Option.some.inj hold
        exact ⟨phase', by rw [hsame, hself], hadvances.joined hjoined⟩
      · exact ⟨old, (hother hsame).trans hold, hjoined⟩
    · exact ⟨phase', hself, hjoined⟩

/-! ## Intruders -/

/-- A user who did not create the workspace owns it. -/
def Intruded (folder : String) (s : Race) : Prop :=
  ∃ user row, HasOwner folder s.registry user ∧
    s.registry.groups.get? (workspaceJid folder) = some row ∧ row.createdBy ≠ some user

/-- **The step that intrudes** is one that adds an owner to the workspace of another. -/
theorem intruded_step_iff {a : CreationStep} (hvalid : validateWorkspaceFolder folder = .ok ())
    (h : Inv folder s) (hs : ¬ s.Intruded folder) (hstep : step folder name s a = some t) :
    ¬ t.Intruded folder ↔ s.JoinsOwn a := by
  obtain ⟨phase, phase', hphase, -, hadvances⟩ := step_spec hvalid h hstep
  constructor
  · intro ht old hold
    obtain rfl := Option.some.inj (hphase.symm.trans hold)
    cases phase with
    | merging group member =>
      obtain ⟨⟨-, -, row, hrow, hcreated⟩, -⟩ := h.fits a.user _ hphase
      obtain ⟨row', hrow', hkept⟩ := hadvances.grows.row row hrow
      by_contra hne
      exact ht ⟨a.user, row', hadvances.merged group member rfl, hrow', by rwa [hkept, hcreated]⟩
    | checking | looking | updating | inserting | refreshing | slotLooking | slotClaiming
    | slotInserting | memberLooking | confirming | succeeded | failed => trivial
  · rintro hjoins ⟨user, row', howner, hrow', hne⟩
    rcases hadvances.owner user howner with howner | ⟨rfl, -, group, member, rfl⟩
    · obtain ⟨old, hold, hjoined⟩ := h.joined user howner
      obtain ⟨row, hrow⟩ : ∃ row, s.registry.groups.get? (workspaceJid folder) = some row := by
        have hfits := h.fits user old hold
        cases old with
        | confirming group | succeeded group => exact hfits.1.2.2.imp fun _ => And.left
        | checking | looking | updating | inserting | refreshing | slotLooking | slotClaiming
        | slotInserting | memberLooking | merging | failed => exact hjoined.elim
      obtain ⟨kept, hkept, hcreated⟩ := hadvances.grows.row row hrow
      obtain rfl := Option.some.inj (hrow'.symm.trans hkept)
      exact hs ⟨user, row, howner, hrow, by rwa [← hcreated]⟩
    · obtain ⟨⟨-, -, row, hrow, hcreated⟩, -⟩ := h.fits a.user _ hphase
      obtain ⟨kept, hkept, hsame⟩ := hadvances.grows.row row hrow
      obtain rfl := Option.some.inj (hrow'.symm.trans hkept)
      have hown : group.createdBy = some a.user := hjoins _ hphase
      exact hne (by rw [hsame, hcreated, hown])

theorem hasOwner_of_mem {member : GroupMember} {r : Registry} (hplaced : Placed folder r)
    (hmember : member ∈ r.members.rows) (hfolder : member.groupFolder = folder) :
    HasOwner folder r member.userId := by
  have hget := Table.mem_rows.mp hmember
  rw [GroupMember.key, hfolder] at hget
  exact ⟨member, hget, hplaced.owner member hmember hfolder⟩

theorem Inv.found (h : Inv folder s) {user : String} {phase : CreationPhase}
    (hphase : s.phase user = some phase) (hended : phase.Ended) :
    ∃ row, s.registry.groups.get? (workspaceJid folder) = some row := by
  have hfits := h.fits user phase hphase
  cases phase with
  | succeeded group => exact hfits.1.2.2.imp fun _ => And.left
  | failed error => exact Option.isSome_iff_exists.mp hfits
  | checking | looking | updating | inserting | refreshing | slotLooking | slotClaiming
  | slotInserting | memberLooking | merging | confirming => exact hended.elim

theorem Inv.hasOwner (h : Inv folder s) {user : String} (hsucceeded : s.Succeeded user) :
    HasOwner folder s.registry user := by
  obtain ⟨group, hgroup⟩ := hsucceeded
  exact (h.fits user _ hgroup).2

/-- When all calls have ended, one has succeeded. -/
theorem Inv.exists_succeeded (h : Inv folder s) (hended : s.Ended) {user : String}
    (huser : s.phase user ≠ none) : ∃ user, s.Succeeded user := by
  obtain ⟨phase, hphase⟩ := Option.ne_none_iff_exists'.mp huser
  obtain ⟨row, hrow⟩ := h.found hphase (hended user phase hphase)
  obtain ⟨creator, last, -, hlast, hcase⟩ := h.creator row hrow
  have hover := hended creator last hlast
  have hany : s.AnyAdmitted := by
    refine hcase.resolve_left fun hworking => ?_
    cases last with
    | succeeded | failed => exact hworking
    | checking | looking | updating | inserting | refreshing | slotLooking | slotClaiming
    | slotInserting | memberLooking | merging | confirming => exact hover
  obtain ⟨user', phase', hphase', hadmitted⟩ := hany
  have hover' := hended user' phase' hphase'
  cases phase' with
  | succeeded group => exact ⟨user', group, hphase'⟩
  | failed => exact hadmitted.elim
  | checking | looking | updating | inserting | refreshing | slotLooking | slotClaiming
  | slotInserting | memberLooking | merging | confirming => exact hover'.elim

/-- Without an intruder the race is not contested. -/
theorem Inv.uncontested (h : Inv folder s) (hs : ¬ s.Intruded folder)
    (hsome : ∃ user, s.phase user ≠ none) : s.Uncontested folder := by
  -- Every owner is the creator.
  have hcreator {user : String} (howner : HasOwner folder s.registry user) {row : RegisteredGroup}
      (hrow : s.registry.groups.get? (workspaceJid folder) = some row) :
      row.createdBy = some user := by
    by_contra hne
    exact hs ⟨user, row, howner, hrow, hne⟩
  constructor
  · intro user user' husr huser'
    obtain ⟨group, hgroup⟩ := husr
    obtain ⟨row, hrow⟩ := h.found hgroup trivial
    exact Option.some.inj ((hcreator (h.hasOwner ⟨group, hgroup⟩) hrow).symm.trans
      (hcreator (h.hasOwner huser') hrow))
  · intro hended
    obtain ⟨user, huser⟩ := hsome
    obtain ⟨winner, hwinner⟩ := h.exists_succeeded hended huser
    obtain ⟨group, hgroup⟩ := hwinner
    obtain ⟨row, hrow⟩ := h.found hgroup trivial
    have howner := h.hasOwner ⟨group, hgroup⟩
    obtain ⟨owner, hget, hrole⟩ := howner
    have hkey := key_of_getMember hget
    have hfolder := (h.placed.row row hrow).1
    refine ⟨row, hrow, hfolder, owner, ?_, fun member => ⟨?_, ?_⟩⟩
    · rw [hkey.2, hcreator (h.hasOwner ⟨group, hgroup⟩) hrow]
    · rintro ⟨hmember, hof, -⟩
      rw [hfolder] at hof
      -- Both are rows of the creator.
      have hsame : some member.userId = some winner :=
        (hcreator (hasOwner_of_mem h.placed hmember hof) hrow).symm.trans
          (hcreator (h.hasOwner ⟨group, hgroup⟩) hrow)
      have hrow' := Table.mem_rows.mp hmember
      rw [GroupMember.key, hof, Option.some.inj hsame] at hrow'
      exact Option.some.inj (hrow'.symm.trans hget)
    · rintro rfl
      exact ⟨Table.mem_rows_of_get? hget, hkey.1.trans hfolder.symm, hrole⟩

/-- A race that has ended uncontested has no intruder. -/
theorem Uncontested.not_intruded (hs : s.Uncontested folder) (hended : s.Ended) :
    ¬ s.Intruded folder := by
  rintro ⟨user, row, ⟨member, hmember, hrole⟩, hrow, hne⟩
  obtain ⟨group, hgroup, hfolder, owner, hcreated, hsole⟩ := hs.2 hended
  obtain rfl := Option.some.inj (hrow.symm.trans hgroup)
  obtain ⟨hof, huser⟩ := key_of_getMember hmember
  obtain rfl := (hsole member).mp ⟨Table.mem_rows_of_get? hmember, hof.trans hfolder.symm, hrole⟩
  exact hne (by rw [hcreated, huser])

variable {r : Registry} {users : List String} {l : List CreationStep}

theorem inv_of_run (hvalid : validateWorkspaceFolder folder = .ok ()) (hnew : New folder r)
    (h : Run (step folder name) (fun _ _ => True) (start r users) l t) : Inv folder t :=
  h.invariant (inv_start hnew users) fun hinv _ hstep => hinv.step hvalid hstep

/-- The runs that no one intrudes in. -/
theorem not_intruded_iff (hvalid : validateWorkspaceFolder folder = .ok ()) (hnew : New folder r)
    (h : Run (step folder name) (fun _ _ => True) (start r users) l t) :
    (∀ l₁ l₂ s, l = l₁ ++ l₂ →
      Run (step folder name) (fun _ _ => True) (start r users) l₁ s → ¬ s.Intruded folder) ↔
    Run (step folder name) (fun s a => True ∧ s.JoinsOwn a) (start r users) l t := by
  refine h.always_iff (inv_start hnew users) ?_ (fun hinv _ hstep => hinv.step hvalid hstep)
    fun hinv hs _ hstep => intruded_step_iff hvalid hinv hs hstep
  rintro ⟨user, row, -, hrow, -⟩
  have hnone := hnew.jid
  rw [show r.groups.get? (workspaceJid folder) = some row from hrow] at hnone
  cases hnone

/-- An intruder stays. -/
theorem Intruded.run {m : List CreationStep} (hvalid : validateWorkspaceFolder folder = .ok ())
    (hinv : Inv folder s) (hs : s.Intruded folder)
    (h : Run (step folder name) (fun _ _ => True) s m t) : t.Intruded folder := by
  refine (h.invariant (I := fun t => Inv folder t ∧ t.Intruded folder) ⟨hinv, hs⟩ ?_).2
  rintro v w a ⟨hv, user, row, howner, hrow, hne⟩ - hstep
  obtain ⟨_, _, _, _, hadvances⟩ := step_spec hvalid hv hstep
  obtain ⟨row', hrow', hcreated⟩ := hadvances.grows.row row hrow
  exact ⟨hv.step hvalid hstep, user, row', hadvances.grows.owner user howner, hrow',
    by rwa [hcreated]⟩

/-- Calls do not come or go. -/
theorem phase_ne_none_of_run {user : String} (huser : user ∈ users)
    (h : Run (step folder name) (fun _ _ => True) (start r users) l t) : t.phase user ≠ none := by
  refine h.invariant (I := fun t => t.phase user ≠ none) (by simp [start, huser]) ?_
  intro v w a hv _ hstep
  unfold step at hstep
  split at hstep
  · cases hstep
  · split at hstep
    · cases hstep
    · obtain rfl := Option.some.inj hstep
      by_cases hsame : user = a.user
      · simp [hsame]
      · simpa [Function.update_of_ne hsame] using hv

/-- **The race for a new folder**: where no call adds its owner to a row that another call made, it
is never contested; and a race that ends uncontested is one of these. -/
theorem uncontested_iff (hvalid : validateWorkspaceFolder folder = .ok ()) (hnew : New folder r)
    (husers : users ≠ []) (h : Run (step folder name) (fun _ _ => True) (start r users) l t) :
    (Run (step folder name) JoinsOwn (start r users) l t → t.Uncontested folder) ∧
      (t.Ended →
        (t.Uncontested folder ↔ Run (step folder name) JoinsOwn (start r users) l t)) := by
  have hinv := inv_of_run hvalid hnew h
  have hsafe (hjoins : Run (step folder name) JoinsOwn (start r users) l t) :
      t.Uncontested folder := by
    have hnever := (not_intruded_iff hvalid hnew h).mpr (hjoins.mono fun _ _ hj => ⟨trivial, hj⟩)
    obtain ⟨user, huser⟩ := List.exists_mem_of_ne_nil users husers
    exact hinv.uncontested (hnever l [] t (List.append_nil l).symm h)
      ⟨user, phase_ne_none_of_run huser h⟩
  refine ⟨hsafe, fun hended => ⟨fun ht => ?_, hsafe⟩⟩
  -- Whoever had intruded would still be there.
  have hnever : ∀ l₁ l₂ s, l = l₁ ++ l₂ →
      Run (step folder name) (fun _ _ => True) (start r users) l₁ s → ¬ s.Intruded folder := by
    rintro l₁ l₂ s rfl hs hintruded
    obtain ⟨s', hs', hrest⟩ := h.split
    obtain rfl := hs.unique hs'
    exact ht.not_intruded hended (hintruded.run hvalid (inv_of_run hvalid hnew hs) hrest)
  exact ((not_intruded_iff hvalid hnew h).mp hnever).mono fun _ _ hj => hj.2

/-- The call of a user has succeeded. -/
def succeededFor (user : String) (s : Race) : Bool :=
  match s.phase user with
  | some (.succeeded _) => true
  | _ => false

theorem succeeded_iff {user : String} : s.Succeeded user ↔ s.succeededFor user = true := by
  unfold Succeeded succeededFor
  cases s.phase user with
  | none => simp
  | some phase => cases phase <;> simp

theorem new_empty (folder : String) : New folder {} where
  group group hgroup := by cases hgroup
  jid := rfl
  slot := rfl
  member member hmember := by cases hmember

/-- Two calls; the second makes its check when the first has ended, and is refused. -/
theorem uncontested_refused : ∃ t,
    Run (step "notes" id) JoinsOwn (start {} ["u", "v"])
      (List.replicate 9 ⟨"u", 1⟩ ++ [⟨"v", 2⟩]) t ∧
    t.Succeeded "u" ∧ ¬ t.Succeeded "v" ∧ t.Uncontested "notes" := by
  have h : Run (step "notes" id) JoinsOwn (start {} ["u", "v"])
      (List.replicate 9 ⟨"u", 1⟩ ++ [⟨"v", 2⟩]) _ := .of_execute (by decide +kernel)
  refine ⟨_, h, succeeded_iff.mpr (by decide +kernel), ?_, ?_⟩
  · rw [succeeded_iff]
    decide +kernel
  · exact (uncontested_iff rfl (new_empty "notes") (by simp)
      (h.mono fun _ _ _ => trivial)).1 h

/-- **Both calls succeed**: the second has made its check before the first has its row, and then
takes the row for its own. -/
theorem exists_contested : ∃ t,
    Run (step "notes" id) (fun _ _ => True) (start {} ["u", "v"])
      ([⟨"v", 1⟩] ++ List.replicate 9 ⟨"u", 1⟩ ++ List.replicate 7 ⟨"v", 2⟩) t ∧
    t.Succeeded "u" ∧ t.Succeeded "v" ∧
    (t.registry.members.rows.map fun member => (member.userId, member.role)) =
      [("u", "owner"), ("v", "owner")] ∧
    ¬ t.Uncontested "notes" := by
  have h : Run (step "notes" id) (fun _ _ => True) (start {} ["u", "v"])
      ([⟨"v", 1⟩] ++ List.replicate 9 ⟨"u", 1⟩ ++ List.replicate 7 ⟨"v", 2⟩) _ :=
    .of_execute (by decide +kernel)
  refine ⟨_, h, succeeded_iff.mpr (by decide +kernel), succeeded_iff.mpr (by decide +kernel),
    by decide +kernel, fun huncontested => ?_⟩
  exact absurd (huncontested.1 "u" "v" (succeeded_iff.mpr (by decide +kernel))
    (succeeded_iff.mpr (by decide +kernel))) (by decide)

end Race

end Registry

end Portex
