import Portex.Foundation.Dict
import Mathlib.Data.List.Basic

/-!
# Rebuilding SQL tables

The statements with which a table of SQLite is rebuilt under another schema: the new table is made
under a name of its own, filled from the old one, and takes its name. A row that conflicts with
another one aborts the whole statement, or is ignored.

## Main definitions

* `SqlSchema`, `SqlTable`, `SqlDatabase`: tables, and a database of them
* `SqlExpr`: the expressions of a `SELECT`
* `SqlTable.insertRow`, `SqlTable.insertRows`: insertion, by what is done on a conflict
* `SqlDatabase.rebuild`: the statements that rebuild a table

## Main results

* `insertRows_of_acceptsAll`: rows without conflicts are all inserted
* `acceptsAll_of_insertRows`: what is inserted without being aborted has no conflicts
* `exists_insertRows_ignore`: where conflicts are ignored, every key gets a row
* `rebuild_eq`: a table is rebuilt if its rows can be inserted
-/

namespace Foundation

universe u

/-- The value of each column, where `none` is `NULL`. -/
abbrev SqlRow (ν : Type u) := String → Option ν

structure SqlSchema where
  columns : List String
  notNull : List String
  primaryKey : List String

structure SqlTable (ν : Type u) extends SqlSchema where
  rows : List (SqlRow ν) := []

abbrev SqlDatabase (ν : Type u) := Dict String (SqlTable ν)

inductive SqlError
  | noSuchTable (name : String)
  | tableExists (name : String)
  | noSuchColumn (name : String)
  | duplicateColumn (name : String)
  /-- `NOT NULL constraint failed`. -/
  | notNull
  /-- `UNIQUE constraint failed`. -/
  | unique
  deriving DecidableEq

inductive SqlExpr
  | null
  | column (name : String)
  | coalesce (expr expr' : SqlExpr)

namespace SqlExpr

variable {ν : Type u}

def eval (row : SqlRow ν) : SqlExpr → Option ν
  | .null => none
  | .column name => row name
  | .coalesce expr expr' => (expr.eval row).or (expr'.eval row)

/-- The columns that an expression names. -/
def columns : SqlExpr → List String
  | .null => []
  | .column name => [name]
  | .coalesce expr expr' => expr.columns ++ expr'.columns

end SqlExpr

/-! ## Insertion -/

/-- What an `INSERT` does with a row that violates a constraint. -/
inductive OnConflict
  | abort
  | ignore
  deriving DecidableEq

namespace SqlSchema

variable {ν : Type u} (schema : SqlSchema)

def HasNulls (row : SqlRow ν) : Prop := ∃ name ∈ schema.notNull, row name = none

/-- The rows have the same primary key. No key with `NULL` in it is the same as another one. -/
def SameKey (row row' : SqlRow ν) : Prop :=
  ∀ name ∈ schema.primaryKey, row name ≠ none ∧ row name = row' name

instance (row : SqlRow ν) : Decidable (schema.HasNulls row) := List.decidableBEx _ _

instance [DecidableEq ν] (row row' : SqlRow ν) : Decidable (schema.SameKey row row') :=
  List.decidableBAll _ _

theorem SameKey.symm {schema : SqlSchema} {row row' : SqlRow ν} (h : schema.SameKey row row') :
    schema.SameKey row' row := fun name hname =>
  ⟨(h name hname).2 ▸ (h name hname).1, (h name hname).2.symm⟩

/-- Rows that can be inserted into an empty table. -/
structure Distinct (rows : List (SqlRow ν)) : Prop where
  full : ∀ row ∈ rows, ¬ schema.HasNulls row
  keys : rows.Pairwise fun row row' => ¬ schema.SameKey row row'

end SqlSchema

namespace SqlTable

variable {ν : Type u} [DecidableEq ν]

def insertRow (policy : OnConflict) (table : SqlTable ν) (row : SqlRow ν) :
    Except SqlError (SqlTable ν) :=
  if table.HasNulls row then
    match policy with
    | .abort => .error .notNull
    | .ignore => .ok table
  else if ∃ old ∈ table.rows, table.SameKey old row then
    match policy with
    | .abort => .error .unique
    | .ignore => .ok table
  else .ok { table with rows := table.rows ++ [row] }

/-- Rows are inserted one after the other. -/
def insertRows (policy : OnConflict) (table : SqlTable ν) (rows : List (SqlRow ν)) :
    Except SqlError (SqlTable ν) :=
  rows.foldlM (insertRow policy) table

variable {policy : OnConflict} {table inserted : SqlTable ν} {row : SqlRow ν}
  {rows : List (SqlRow ν)}

theorem insertRows_cons : insertRows policy table (row :: rows) =
    (insertRow policy table row).bind fun table => insertRows policy table rows := rfl

/-- The row is full and no row of the table has its key. -/
def Accepts (table : SqlTable ν) (row : SqlRow ν) : Prop :=
  ¬ table.HasNulls row ∧ ∀ old ∈ table.rows, ¬ table.SameKey old row

theorem insertRow_of_accepts (h : table.Accepts row) :
    insertRow policy table row = .ok { table with rows := table.rows ++ [row] } := by
  have hnone : ¬ ∃ old ∈ table.rows, table.SameKey old row := fun ⟨old, hold, hsame⟩ =>
    h.2 old hold hsame
  unfold insertRow
  rw [if_neg h.1, if_neg hnone]

theorem accepts_of_insertRow (h : insertRow .abort table row = .ok inserted) :
    table.Accepts row := by
  unfold insertRow at h
  split at h
  · cases h
  · rename_i hfull
    split at h
    · cases h
    · rename_i hnone
      exact ⟨hfull, fun old hold hsame => hnone ⟨old, hold, hsame⟩⟩

/-- Rows without conflicts among each other, or with those of the table. -/
structure AcceptsAll (table : SqlTable ν) (rows : List (SqlRow ν)) : Prop where
  distinct : table.Distinct rows
  apart : ∀ row ∈ rows, ∀ old ∈ table.rows, ¬ table.SameKey old row

omit [DecidableEq ν] in
theorem acceptsAll_cons : table.AcceptsAll (row :: rows) ↔
    table.Accepts row ∧ AcceptsAll { table with rows := table.rows ++ [row] } rows := by
  constructor
  · rintro ⟨⟨hfull, hkeys⟩, hapart⟩
    rw [List.pairwise_cons] at hkeys
    refine ⟨⟨hfull row List.mem_cons_self, hapart row List.mem_cons_self⟩,
      ⟨⟨fun other hother => hfull other (List.mem_cons_of_mem _ hother), hkeys.2⟩, ?_⟩⟩
    intro other hother old hold
    rcases List.mem_append.mp hold with hold | hold
    · exact hapart other (List.mem_cons_of_mem _ hother) old hold
    · obtain rfl := List.mem_singleton.mp hold
      exact hkeys.1 other hother
  · rintro ⟨⟨hrow, hold⟩, ⟨hfull, hkeys⟩, hapart⟩
    refine ⟨⟨?_, List.pairwise_cons.mpr ⟨fun other hother => ?_, hkeys⟩⟩, ?_⟩
    · intro other hother
      rcases List.mem_cons.mp hother with rfl | hother
      · exact hrow
      · exact hfull other hother
    · exact hapart other hother row (List.mem_append_right _ (List.mem_singleton_self row))
    · intro other hother old hmem
      rcases List.mem_cons.mp hother with rfl | hother
      · exact hold old hmem
      · exact hapart other hother old (List.mem_append_left _ hmem)

/-- **Rows without conflicts** are all inserted, whatever is done on a conflict. -/
theorem insertRows_of_acceptsAll (policy : OnConflict) (h : table.AcceptsAll rows) :
    insertRows policy table rows = .ok { table with rows := table.rows ++ rows } := by
  induction rows generalizing table with
  | nil => simp [insertRows, pure, Except.pure]
  | cons row rows ih =>
    obtain ⟨hrow, hrows⟩ := acceptsAll_cons.mp h
    rw [insertRows_cons, insertRow_of_accepts hrow]
    show insertRows policy _ rows = _
    rw [ih hrows, List.append_assoc, List.singleton_append]

/-- Where conflicts are ignored, nothing fails, and of every full row there is one with its key. -/
theorem exists_insertRows_ignore (table : SqlTable ν) (rows : List (SqlRow ν)) :
    ∃ inserted, insertRows .ignore table rows = .ok inserted ∧
      (∀ row ∈ inserted.rows, row ∈ table.rows ∨ row ∈ rows) ∧
      (∀ row ∈ table.rows, row ∈ inserted.rows) ∧
      ∀ row ∈ rows, ¬ table.HasNulls row →
        ∃ kept ∈ inserted.rows, kept = row ∨ table.SameKey kept row := by
  induction rows generalizing table with
  | nil => exact ⟨table, rfl, fun _ => .inl, fun _ => id, by simp⟩
  | cons row rows ih =>
    rw [insertRows_cons]
    by_cases haccepts : table.Accepts row
    · rw [insertRow_of_accepts haccepts]
      obtain ⟨inserted, hinserted, hfrom, hkept, hall⟩ := ih { table with rows := table.rows ++ [row] }
      refine ⟨inserted, hinserted, fun other hother => ?_,
        fun other hother => hkept other (List.mem_append_left _ hother), fun other hother hfull => ?_⟩
      · rcases hfrom other hother with hold | hnew
        · rcases List.mem_append.mp hold with hold | hrow
          · exact .inl hold
          · exact .inr (List.mem_cons.mpr (.inl (List.mem_singleton.mp hrow)))
        · exact .inr (List.mem_cons_of_mem _ hnew)
      · rcases List.mem_cons.mp hother with rfl | hother
        · exact ⟨other, hkept other (List.mem_append_right _ (List.mem_singleton_self other)),
            .inl rfl⟩
        · exact hall other hother hfull
    · -- The row is ignored: it has nulls, or its key is there.
      have hsame : insertRow .ignore table row = .ok table := by
        unfold insertRow
        split
        · rfl
        · rename_i hfull
          rw [if_pos]
          by_contra hnone
          exact haccepts ⟨hfull, fun old hold hkey => hnone ⟨old, hold, hkey⟩⟩
      rw [hsame]
      obtain ⟨inserted, hinserted, hfrom, hkept, hall⟩ := ih table
      refine ⟨inserted, hinserted, fun other hother => ?_, hkept, fun other hother hfull => ?_⟩
      · exact (hfrom other hother).imp_right (List.mem_cons_of_mem _)
      · rcases List.mem_cons.mp hother with rfl | hother
        · unfold Accepts at haccepts
          push Not at haccepts
          obtain ⟨old, hold, hkey⟩ := haccepts hfull
          exact ⟨old, hkept old hold, .inr hkey⟩
        · exact hall other hother hfull

/-- A statement that has not been aborted met no conflict. -/
theorem acceptsAll_of_insertRows (h : insertRows .abort table rows = .ok inserted) :
    table.AcceptsAll rows := by
  induction rows generalizing table with
  | nil => exact ⟨⟨by simp, List.Pairwise.nil⟩, by simp⟩
  | cons row rows ih =>
    rw [insertRows_cons] at h
    cases hrow : insertRow .abort table row with
    | error error =>
      rw [hrow] at h
      cases h
    | ok table' =>
      have haccepts := accepts_of_insertRow hrow
      rw [insertRow_of_accepts haccepts] at h
      exact acceptsAll_cons.mpr ⟨haccepts, ih h⟩

omit [DecidableEq ν] in
/-- An empty table accepts what is distinct. -/
theorem acceptsAll_empty {schema : SqlSchema} :
    AcceptsAll { schema with rows := [] } rows ↔ schema.Distinct rows :=
  ⟨fun h => h.distinct, fun h => ⟨h, fun _ _ _ hold => absurd hold List.not_mem_nil⟩⟩

end SqlTable

/-! ## Statements -/

namespace SqlDatabase

variable {ν : Type u} (db : SqlDatabase ν)

/-- `DROP TABLE IF EXISTS`. -/
def dropTableIfExists (name : String) : SqlDatabase ν := Dict.erase db name

/-- `DROP TABLE`. -/
def dropTable (name : String) : Except SqlError (SqlDatabase ν) :=
  if Dict.contains db name then .ok (Dict.erase db name) else .error (.noSuchTable name)

/-- `CREATE TABLE`. -/
def createTable (name : String) (schema : SqlSchema) : Except SqlError (SqlDatabase ν) :=
  if Dict.contains db name then .error (.tableExists name)
  else .ok (Dict.insert db name { schema with rows := [] })

/-- `CREATE TABLE IF NOT EXISTS`. -/
def createTableIfNotExists (name : String) (schema : SqlSchema) : SqlDatabase ν :=
  if Dict.contains db name then db else Dict.insert db name { schema with rows := [] }

/-- `ALTER TABLE name RENAME TO newName`. -/
def renameTable (name newName : String) : Except SqlError (SqlDatabase ν) :=
  match Dict.get? db name with
  | none => .error (.noSuchTable name)
  | some table =>
    if Dict.contains db newName then .error (.tableExists newName)
    else .ok (Dict.insert (Dict.erase db name) newName table)

/-- `ALTER TABLE name ADD COLUMN column`, of a column that may be `NULL`. -/
def addColumn (name column : String) : Except SqlError (SqlDatabase ν) :=
  match Dict.get? db name with
  | none => .error (.noSuchTable name)
  | some table =>
    if column ∈ table.columns then .error (.duplicateColumn column)
    else .ok (Dict.insert db name
      { table with
        columns := table.columns ++ [column]
        rows := table.rows.map fun row => Function.update row column none })

/-- The row that a `SELECT` makes of another one, for some columns. -/
def project (select : List (String × SqlExpr)) (row : SqlRow ν) : SqlRow ν :=
  fun name => (select.lookup name).bind fun expr => expr.eval row

variable [DecidableEq ν]

/-- `INSERT INTO target SELECT ... FROM source`. -/
def insertSelect (policy : OnConflict) (target : String) (select : List (String × SqlExpr))
    (source : String) : Except SqlError (SqlDatabase ν) :=
  match Dict.get? db target, Dict.get? db source with
  | none, _ => .error (.noSuchTable target)
  | _, none => .error (.noSuchTable source)
  | some into, some table =>
    match (select.flatMap fun item => item.2.columns).find? fun name => name ∉ table.columns with
    | some name => .error (.noSuchColumn name)
    | none => (into.insertRows policy (table.rows.map (project select))).map (Dict.insert db target)

/-- A table is rebuilt under another schema, by way of a temporary one. -/
def rebuild (policy : OnConflict) (schema : SqlSchema) (select : List (String × SqlExpr))
    (name temp : String) : Except SqlError (SqlDatabase ν) := do
  let db := dropTableIfExists db temp
  let db ← createTable db temp schema
  let db ← insertSelect db policy temp select name
  let db ← dropTable db name
  renameTable db temp name

variable {db} {policy : OnConflict} {schema : SqlSchema} {select : List (String × SqlExpr)}
  {name temp : String} {table : SqlTable ν}

/-- **A table is rebuilt** if its rows can be inserted. -/
theorem rebuild_eq (htable : Dict.get? db name = some table) (hne : name ≠ temp)
    (hcolumns : ∀ item ∈ select, ∀ column ∈ item.2.columns, column ∈ table.columns) :
    ∃ after : SqlTable ν → SqlDatabase ν, (∀ rebuilt, Dict.get? (after rebuilt) name = some rebuilt) ∧
      rebuild db policy schema select name temp =
        (SqlTable.insertRows policy { schema with rows := [] }
          (table.rows.map (project select))).map after := by
  have hfind : ((select.flatMap fun item => item.2.columns).find? fun name =>
      name ∉ table.columns) = none := by
    rw [List.find?_eq_none]
    intro column hcolumn
    obtain ⟨item, hitem, hmem⟩ := List.mem_flatMap.mp hcolumn
    simpa using hcolumns item hitem column hmem
  refine ⟨fun rebuilt => Dict.insert (Dict.erase (Dict.erase (Dict.insert (Dict.insert
    (Dict.erase db temp) temp { schema with rows := [] }) temp rebuilt) name) temp) name rebuilt,
    fun rebuilt => by simp, ?_⟩
  unfold rebuild dropTableIfExists createTable insertSelect dropTable renameTable
  simp only [Dict.contains, Dict.get?_erase, if_true, Option.isSome_none, Bool.false_eq_true,
    if_false, bind, Except.bind, Dict.get?_insert, if_neg hne, htable, hfind]
  cases SqlTable.insertRows policy { schema with rows := [] } (table.rows.map (project select)) with
  | error error => rfl
  | ok rebuilt => simp [Except.map, hne, hne.symm, htable]

end SqlDatabase

end Foundation
