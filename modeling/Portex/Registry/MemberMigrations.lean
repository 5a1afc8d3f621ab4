import Portex.Foundation.Sql

/-!
# The migrations of the membership table

Two migrations rebuild an old table `group_members`, whose rows name a chat by `group_jid`, with one
row for each workspace and user. Chats of one workspace have rows that get the same key: the one of
`GroupMemberService` keeps the first of them, and that of `init_db` fails.

## Main definitions

* `backfillGroupMemberColumns`, `ensureSchema`: the two migrations
* `LegacyMembers`: the old tables
* `MigrationsAgree`: both migrations succeed with the same rows, and lose nobody

## Main results

* `ensureSchema_legacy`: the migration of `GroupMemberService` loses nobody
* `migrationsAgree_iff`: when the two migrations agree
-/

namespace Portex

open Foundation

universe u

variable {ν : Type u}

/-! ## The migrations -/

/-- The new table `group_members`. -/
def groupMembersSchema : SqlSchema where
  columns := ["group_folder", "user_id", "role", "joined_at", "added_by"]
  notNull := ["group_folder", "user_id", "role", "joined_at"]
  primaryKey := ["group_folder", "user_id"]

/-- The columns of the `SELECT` of a migration. -/
def membersSelect (groupFolderExpr addedByExpr : SqlExpr) : List (String × SqlExpr) :=
  [("group_folder", groupFolderExpr), ("user_id", .column "user_id"), ("role", .column "role"),
    ("joined_at", .column "joined_at"), ("added_by", addedByExpr)]

section

variable [DecidableEq ν]

/-- `_backfill_group_member_columns` of `init_db`. -/
def backfillGroupMemberColumns (db : SqlDatabase ν) : Except SqlError (SqlDatabase ν) :=
  match Dict.get? db "group_members" with
  | none => .ok db
  | some table =>
    let columns := table.columns
    if "group_folder" ∈ columns ∧ "added_by" ∈ columns ∧ "group_jid" ∉ columns then .ok db
    else
      let groupFolderExpr : SqlExpr :=
        if "group_folder" ∈ columns ∧ "group_jid" ∈ columns then
          .coalesce (.column "group_folder") (.column "group_jid")
        else if "group_folder" ∈ columns then .column "group_folder"
        else .column "group_jid"
      let addedByExpr : SqlExpr := if "added_by" ∈ columns then .column "added_by" else .null
      SqlDatabase.rebuild db .abort groupMembersSchema (membersSelect groupFolderExpr addedByExpr)
        "group_members" "group_members__portex_backfill"

/-- `GroupMemberService._ensure_schema`. -/
def ensureSchema (db : SqlDatabase ν) : Except SqlError (SqlDatabase ν) :=
  let db := SqlDatabase.createTableIfNotExists db "group_members" groupMembersSchema
  let columns := ((Dict.get? db "group_members").map fun table => table.columns).getD []
  if "group_jid" ∈ columns then
    let sourceGroupExpr : SqlExpr :=
      if "group_folder" ∈ columns then .coalesce (.column "group_folder") (.column "group_jid")
      else .column "group_jid"
    let addedByExpr : SqlExpr := if "added_by" ∈ columns then .column "added_by" else .null
    SqlDatabase.rebuild db .ignore groupMembersSchema (membersSelect sourceGroupExpr addedByExpr)
      "group_members" "group_members_new"
  else do
    let db ←
      if "group_folder" ∉ columns then SqlDatabase.addColumn db "group_members" "group_folder"
      else pure db
    if "added_by" ∉ columns then SqlDatabase.addColumn db "group_members" "added_by" else pure db

end

/-! ## Old tables -/

/-- The workspace of an old row: its `group_folder`, or else its `group_jid`. -/
def workspaceOf (table : SqlTable ν) (row : SqlRow ν) : Option ν :=
  if "group_folder" ∈ table.columns then (row "group_folder").or (row "group_jid")
  else row "group_jid"

/-- An old table: its rows are unique by chat and user, and have all that the new table asks for. -/
structure LegacyMembers (table : SqlTable ν) : Prop where
  columns : ∀ name ∈ ["group_jid", "user_id", "role", "joined_at"], name ∈ table.columns
  unique : table.rows.Pairwise fun row row' =>
    ¬ (row "group_jid" ≠ none ∧ row "group_jid" = row' "group_jid" ∧
      row "user_id" = row' "user_id")
  full : ∀ row ∈ table.rows, ∀ name ∈ ["user_id", "role", "joined_at"], row name ≠ none
  workspace : ∀ row ∈ table.rows, workspaceOf table row ≠ none

/-- Every workspace and user of an old row is there, with a role that an old row of them had. -/
def LosesNobody (table migrated : SqlTable ν) : Prop :=
  ∀ row ∈ table.rows, ∃ member ∈ migrated.rows,
    member "group_folder" = workspaceOf table row ∧ member "user_id" = row "user_id" ∧
      ∃ old ∈ table.rows, workspaceOf table old = workspaceOf table row ∧
        old "user_id" = row "user_id" ∧ member "role" = old "role"

/-- Both migrations succeed, with the same rows, and lose nobody. -/
def MigrationsAgree [DecidableEq ν] (db : SqlDatabase ν) (table : SqlTable ν) : Prop :=
  ∃ db₁ db₂ migrated₁ migrated₂, backfillGroupMemberColumns db = .ok db₁ ∧
    ensureSchema db = .ok db₂ ∧ Dict.get? db₁ "group_members" = some migrated₁ ∧
    Dict.get? db₂ "group_members" = some migrated₂ ∧
    (∀ row, row ∈ migrated₁.rows ↔ row ∈ migrated₂.rows) ∧ LosesNobody table migrated₁

/-- No two rows have the same workspace and user. -/
def DistinctMembers (table : SqlTable ν) : Prop :=
  table.rows.Pairwise fun row row' =>
    ¬ (workspaceOf table row = workspaceOf table row' ∧ row "user_id" = row' "user_id")

/-! ## The rows of the new table -/

variable {db : SqlDatabase ν} {table : SqlTable ν}

/-- The new row of an old one. -/
def migrateRow (table : SqlTable ν) (row : SqlRow ν) : SqlRow ν :=
  SqlDatabase.project (membersSelect
    (if "group_folder" ∈ table.columns then .coalesce (.column "group_folder") (.column "group_jid")
      else .column "group_jid")
    (if "added_by" ∈ table.columns then .column "added_by" else .null)) row

theorem migrateRow_groupFolder (table : SqlTable ν) (row : SqlRow ν) :
    migrateRow table row "group_folder" = workspaceOf table row := by
  unfold migrateRow workspaceOf
  split <;> rfl

theorem migrateRow_column (table : SqlTable ν) (row : SqlRow ν) {name : String}
    (hname : name ∈ ["user_id", "role", "joined_at"]) : migrateRow table row name = row name := by
  simp only [List.mem_cons, List.not_mem_nil, or_false] at hname
  rcases hname with rfl | rfl | rfl <;> rfl

theorem LegacyMembers.not_hasNulls (h : LegacyMembers table) {row : SqlRow ν}
    (hrow : row ∈ table.rows) : ¬ groupMembersSchema.HasNulls (migrateRow table row) := by
  rintro ⟨name, hname, hnull⟩
  rcases List.mem_cons.mp hname with rfl | hname
  · rw [migrateRow_groupFolder] at hnull
    exact h.workspace row hrow hnull
  · rw [migrateRow_column table row hname] at hnull
    exact h.full row hrow name hname hnull

theorem sameKey_migrateRow {row row' : SqlRow ν} :
    groupMembersSchema.SameKey (migrateRow table row) (migrateRow table row') ↔
      (workspaceOf table row ≠ none ∧ row "user_id" ≠ none) ∧
        workspaceOf table row = workspaceOf table row' ∧ row "user_id" = row' "user_id" := by
  have huser (row : SqlRow ν) : migrateRow table row "user_id" = row "user_id" :=
    migrateRow_column table row (by simp)
  simp only [SqlSchema.SameKey, groupMembersSchema, List.forall_mem_cons, List.not_mem_nil,
    false_implies, implies_true, and_true, migrateRow_groupFolder, huser]
  tauto

/-- The new rows have no conflicts just if no two of the old ones have the same key. -/
theorem LegacyMembers.distinct_iff (h : LegacyMembers table) :
    groupMembersSchema.Distinct (table.rows.map (migrateRow table)) ↔ DistinctMembers table := by
  have hkeys : (table.rows.map (migrateRow table)).Pairwise
      (fun row row' => ¬ groupMembersSchema.SameKey row row') ↔ DistinctMembers table := by
    rw [List.pairwise_map]
    refine List.Pairwise.iff_of_mem fun {row row'} hrow _ => not_congr ?_
    rw [sameKey_migrateRow]
    exact and_iff_right ⟨h.workspace row hrow, h.full row hrow _ List.mem_cons_self⟩
  refine ⟨fun hdistinct => hkeys.mp hdistinct.keys, fun hmembers => ⟨?_, hkeys.mpr hmembers⟩⟩
  intro row hrow
  obtain ⟨old, hold, rfl⟩ := List.mem_map.mp hrow
  exact h.not_hasNulls hold

/-! ## What the migrations do -/

variable [DecidableEq ν]

/-- An old table is rebuilt from its new rows. -/
theorem LegacyMembers.rebuild (h : LegacyMembers table) (policy : OnConflict) (temp : String)
    (htable : Dict.get? db "group_members" = some table) (hne : "group_members" ≠ temp) :
    ∃ after : SqlTable ν → SqlDatabase ν,
      (∀ rebuilt, Dict.get? (after rebuilt) "group_members" = some rebuilt) ∧
      SqlDatabase.rebuild db policy groupMembersSchema (membersSelect
          (if "group_folder" ∈ table.columns then
            .coalesce (.column "group_folder") (.column "group_jid") else .column "group_jid")
          (if "added_by" ∈ table.columns then .column "added_by" else .null))
        "group_members" temp =
        (SqlTable.insertRows policy { groupMembersSchema with rows := [] }
          (table.rows.map (migrateRow table))).map after := by
  refine SqlDatabase.rebuild_eq htable hne ?_
  intro item hitem column hcolumn
  have hold (name : String) (hname : name ∈ ["group_jid", "user_id", "role", "joined_at"]) :=
    h.columns name hname
  simp only [membersSelect, List.mem_cons, List.not_mem_nil, or_false] at hitem
  rcases hitem with rfl | rfl | rfl | rfl | rfl
  · -- The workspace is read from the columns that are there.
    dsimp only at hcolumn
    split at hcolumn
    · rename_i hfolder
      simp only [SqlExpr.columns, List.singleton_append, List.mem_cons, List.not_mem_nil,
        or_false] at hcolumn
      rcases hcolumn with rfl | rfl
      · exact hfolder
      · exact hold _ (by simp)
    · obtain rfl := List.mem_singleton.mp hcolumn
      exact hold _ (by simp)
  · obtain rfl := List.mem_singleton.mp hcolumn
    exact hold _ (by simp)
  · obtain rfl := List.mem_singleton.mp hcolumn
    exact hold _ (by simp)
  · obtain rfl := List.mem_singleton.mp hcolumn
    exact hold _ (by simp)
  · dsimp only at hcolumn
    split at hcolumn
    · rename_i hadded
      obtain rfl := List.mem_singleton.mp hcolumn
      exact hadded
    · cases hcolumn

theorem LegacyMembers.backfill (h : LegacyMembers table)
    (htable : Dict.get? db "group_members" = some table) : ∃ after : SqlTable ν → SqlDatabase ν,
      (∀ rebuilt, Dict.get? (after rebuilt) "group_members" = some rebuilt) ∧
      backfillGroupMemberColumns db =
        (SqlTable.insertRows .abort { groupMembersSchema with rows := [] }
          (table.rows.map (migrateRow table))).map after := by
  have hjid : "group_jid" ∈ table.columns := h.columns _ (by simp)
  obtain ⟨after, hafter, hrebuild⟩ := h.rebuild .abort "group_members__portex_backfill"
    htable (by decide)
  refine ⟨after, hafter, ?_⟩
  rw [← hrebuild]
  unfold backfillGroupMemberColumns
  rw [htable]
  simp only [hjid, not_true, and_false, if_false, and_true]
  by_cases hfolder : "group_folder" ∈ table.columns <;> simp only [hfolder, if_true, if_false]

theorem LegacyMembers.ensureSchema (h : LegacyMembers table)
    (htable : Dict.get? db "group_members" = some table) : ∃ after : SqlTable ν → SqlDatabase ν,
      (∀ rebuilt, Dict.get? (after rebuilt) "group_members" = some rebuilt) ∧
      Portex.ensureSchema db =
        (SqlTable.insertRows .ignore { groupMembersSchema with rows := [] }
          (table.rows.map (migrateRow table))).map after := by
  have hjid : "group_jid" ∈ table.columns := h.columns _ (by simp)
  obtain ⟨after, hafter, hrebuild⟩ := h.rebuild .ignore "group_members_new" htable
    (by decide)
  refine ⟨after, hafter, ?_⟩
  rw [← hrebuild]
  have hsame : SqlDatabase.createTableIfNotExists db "group_members" groupMembersSchema = db :=
    if_pos (by simp [Dict.contains, htable])
  unfold Portex.ensureSchema
  simp only [hsame, htable, Option.map_some, Option.getD_some, hjid, if_true]

omit [DecidableEq ν] in
/-- New rows of old ones, with one for every key, lose nobody. -/
theorem losesNobody {migrated : SqlTable ν}
    (hfrom : ∀ member ∈ migrated.rows, ∃ old ∈ table.rows, migrateRow table old = member)
    (hall : ∀ row ∈ table.rows, ∃ member ∈ migrated.rows, member = migrateRow table row ∨
      groupMembersSchema.SameKey member (migrateRow table row)) : LosesNobody table migrated := by
  intro row hrow
  obtain ⟨member, hmember, hsame⟩ := hall row hrow
  obtain ⟨old, hold, rfl⟩ := hfrom member hmember
  have huser (row : SqlRow ν) : migrateRow table row "user_id" = row "user_id" :=
    migrateRow_column table row (by simp)
  have hkey : workspaceOf table old = workspaceOf table row ∧ old "user_id" = row "user_id" := by
    rcases hsame with heq | hsame
    · rw [← migrateRow_groupFolder, heq, migrateRow_groupFolder,
        ← huser old, heq, huser row]
      exact ⟨rfl, rfl⟩
    · exact (sameKey_migrateRow.mp hsame).2
  exact ⟨_, hmember, (migrateRow_groupFolder table old).trans hkey.1,
    (migrateRow_column table old (by simp)).trans hkey.2, old, hold, hkey.1, hkey.2,
    migrateRow_column table old (by simp)⟩

/-- **The migration of `GroupMemberService`** succeeds with every old table, and loses nobody. -/
theorem ensureSchema_legacy (h : LegacyMembers table)
    (htable : Dict.get? db "group_members" = some table) :
    ∃ after migrated, ensureSchema db = .ok after ∧
      Dict.get? after "group_members" = some migrated ∧ LosesNobody table migrated := by
  obtain ⟨after, hafter, heq⟩ := h.ensureSchema htable
  obtain ⟨migrated, hinserted, hfrom, -, hall⟩ := SqlTable.exists_insertRows_ignore
    { groupMembersSchema with rows := [] } (table.rows.map (migrateRow table))
  refine ⟨after migrated, migrated, ?_, hafter migrated, losesNobody (fun member hmember => ?_)
    fun row hrow => ?_⟩
  · rw [heq, hinserted]
    rfl
  · rcases hfrom member hmember with hold | hnew
    · cases hold
    · exact List.mem_map.mp hnew
  · exact hall _ (List.mem_map_of_mem hrow) (h.not_hasNulls hrow)

/-- **The two migrations agree** just if no two rows have the same workspace and user. -/
theorem migrationsAgree_iff (h : LegacyMembers table)
    (htable : Dict.get? db "group_members" = some table) :
    MigrationsAgree db table ↔ DistinctMembers table := by
  obtain ⟨after₁, hafter₁, heq₁⟩ := h.backfill htable
  obtain ⟨after₂, hafter₂, heq₂⟩ := h.ensureSchema htable
  constructor
  · rintro ⟨db₁, -, -, -, hbackfill, -⟩
    rw [heq₁] at hbackfill
    cases hinserted : SqlTable.insertRows .abort { groupMembersSchema with rows := [] }
        (table.rows.map (migrateRow table)) with
    | error error =>
      rw [hinserted] at hbackfill
      cases hbackfill
    | ok inserted =>
      exact h.distinct_iff.mp (SqlTable.acceptsAll_empty.mp
        (SqlTable.acceptsAll_of_insertRows hinserted))
  · intro hmembers
    have haccepts : SqlTable.AcceptsAll { groupMembersSchema with rows := [] }
        (table.rows.map (migrateRow table)) :=
      SqlTable.acceptsAll_empty.mpr (h.distinct_iff.mpr hmembers)
    -- Without conflicts both migrations insert all rows.
    have hinserted (policy : OnConflict) := SqlTable.insertRows_of_acceptsAll policy haccepts
    refine ⟨_, _, _, _, by rw [heq₁, hinserted]; rfl, by rw [heq₂, hinserted]; rfl, hafter₁ _,
      hafter₂ _, fun _ => Iff.rfl, losesNobody (fun member hmember => ?_) fun row hrow => ?_⟩
    · exact List.mem_map.mp hmember
    · exact ⟨_, List.mem_map_of_mem hrow, .inl rfl⟩

/-! ### Two chats of one workspace -/

/-- A row of a user, with the columns that the table has. -/
def memberRow (jid : String) (folder : Option String) (user role : String) : SqlRow String :=
  fun name =>
    [("group_jid", some jid), ("group_folder", folder), ("user_id", some user), ("role", some role),
      ("joined_at", some "2026-03-08 12:00:00")].lookup name |>.join

def membersTable (rows : List (SqlRow String)) : SqlTable String where
  columns := ["group_jid", "user_id", "role", "joined_at", "group_folder"]
  notNull := ["group_jid", "user_id", "role", "joined_at"]
  primaryKey := ["group_jid", "user_id"]
  rows := rows

/-- A user is in two chats of two workspaces, and one row has not got its workspace yet. -/
def apartMembers : SqlTable String :=
  membersTable [memberRow "telegram:1" (some "home") "u" "owner", memberRow "notes" none "u" "member"]

/-- A user is in two chats of one workspace. -/
def jointMembers : SqlTable String :=
  membersTable [memberRow "telegram:1" (some "home") "u" "owner",
    memberRow "feishu:2" (some "home") "u" "member"]

theorem legacyMembers_apart : LegacyMembers apartMembers :=
  ⟨by decide, by decide, by decide, by decide⟩

theorem legacyMembers_joint : LegacyMembers jointMembers :=
  ⟨by decide, by decide, by decide, by decide⟩

theorem migrationsAgree_iff_apart :
    MigrationsAgree (Dict.insert ∅ "group_members" apartMembers) apartMembers :=
  (migrationsAgree_iff legacyMembers_apart (by simp)).mpr
    (by unfold DistinctMembers; decide)

/-- The rows of two chats of one workspace make the migration of `init_db` fail. -/
theorem not_migrationsAgree :
    LegacyMembers jointMembers ∧
      ¬ MigrationsAgree (Dict.insert ∅ "group_members" jointMembers) jointMembers := by
  refine ⟨legacyMembers_joint, ?_⟩
  rintro ⟨db₁, -, -, -, hbackfill, -⟩
  have hfails : (backfillGroupMemberColumns
      (Dict.insert ∅ "group_members" jointMembers)).toBool = false := by decide
  rw [hbackfill] at hfails
  cases hfails

end Portex
