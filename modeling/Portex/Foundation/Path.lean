import Mathlib.Data.Nat.Notation

/-!
# Paths

POSIX paths as lists of names, and their resolution in a file system without symbolic links: a
name enters a directory, and `..` leaves one.

## Main definitions

* `PurePath`: a path as it is written, with `PurePath.parse` and `PurePath.join`
* `Directory`: an absolute path without `..`
* `PurePath.resolve`: the directory a path leads to
* `survivors`: the names of a path that no later `..` takes back

## Main results

* `resolve_join`: a path is resolved from the directory it is joined to
* `names_walk`: where a path leads, read off its names
-/

namespace Foundation

abbrev Name := List Char

/-- `..`. -/
def parentName : Name := ['.', '.']

/-- A path as it is written, without its empty and `.` segments. -/
structure PurePath where
  absolute : Bool
  names : List Name
  deriving DecidableEq

namespace PurePath

def parse (text : String) : PurePath where
  absolute := text.toList.head? == some '/'
  names := (text.toList.splitOn '/').filter fun name => name ≠ [] ∧ name ≠ ['.']

/-- `path / other`: an absolute path replaces the path it is joined to. -/
def join (path other : PurePath) : PurePath :=
  if other.absolute then other else { path with names := path.names ++ other.names }

end PurePath

/-- An absolute path without `..`. -/
structure Directory where
  names : List Name
  parent_notMem : parentName ∉ names

namespace Directory

def root : Directory := ⟨[], by simp⟩

/-- One name further: `..` leads to the parent, and from the root to the root. -/
def enter (dir : Directory) (name : Name) : Directory :=
  if h : name = parentName then
    ⟨dir.names.dropLast, fun hmem => dir.parent_notMem (List.dropLast_subset _ hmem)⟩
  else ⟨dir.names ++ [name], by simp [dir.parent_notMem, Ne.symm h]⟩

def walk (dir : Directory) (names : List Name) : Directory := names.foldl enter dir

def toPath (dir : Directory) : PurePath := { absolute := true, names := dir.names }

/-- The text of a directory. -/
def text (dir : Directory) : String :=
  String.ofList (if dir.names = [] then ['/'] else dir.names.flatMap fun name => '/' :: name)

@[ext] theorem ext {dir dir' : Directory} (h : dir.names = dir'.names) : dir = dir' := by
  cases dir
  cases dir'
  cases h
  rfl

theorem walk_append (dir : Directory) (names names' : List Name) :
    dir.walk (names ++ names') = (dir.walk names).walk names' :=
  List.foldl_append

/-- Names other than `..` are entered one after the other. -/
theorem names_walk_of_notMem {names : List Name} (h : parentName ∉ names) (dir : Directory) :
    (dir.walk names).names = dir.names ++ names := by
  induction names generalizing dir with
  | nil => simp [walk]
  | cons name names ih =>
    simp only [List.mem_cons, not_or] at h
    show ((dir.enter name).walk names).names = _
    rw [ih h.2, enter, dif_neg (Ne.symm h.1)]
    simp

theorem root_walk (dir : Directory) : root.walk dir.names = dir := by
  ext1
  rw [names_walk_of_notMem dir.parent_notMem]
  rfl

end Directory

/-- `path.resolve()` of an absolute path. -/
def PurePath.resolve (path : PurePath) : Directory := Directory.root.walk path.names

/-- **Joined paths** are resolved from the directory, or from the root. -/
theorem resolve_join (dir : Directory) (path : PurePath) :
    (dir.toPath.join path).resolve =
      (if path.absolute then Directory.root else dir).walk path.names := by
  unfold PurePath.join
  split
  · rfl
  · show Directory.root.walk (dir.names ++ path.names) = _
    rw [Directory.walk_append, Directory.root_walk]

/-! ## Where a path leads -/

/-- How far a path climbs above its start, and the names that no later `..` takes back. -/
def survivors : List Name → ℕ × List Name
  | [] => (0, [])
  | name :: names =>
    if name = parentName then ((survivors names).1 + 1, (survivors names).2)
    else if (survivors names).1 = 0 then (0, name :: (survivors names).2)
    else ((survivors names).1 - 1, (survivors names).2)

/-- **Where a path leads**: above its start as far as it climbs, and then down its survivors. -/
theorem names_walk (dir : Directory) (names : List Name) :
    (dir.walk names).names =
      dir.names.take (dir.names.length - (survivors names).1) ++ (survivors names).2 := by
  induction names generalizing dir with
  | nil => simp [Directory.walk, survivors]
  | cons name names ih =>
    show ((dir.enter name).walk names).names = _
    rw [ih, survivors, Directory.enter]
    by_cases hname : name = parentName
    · -- The step up is taken off the end of the directory.
      simp only [hname, dif_pos, if_true]
      rw [List.length_dropLast, List.dropLast_eq_take, List.take_take]
      congr 2
      omega
    · simp only [hname, dif_neg, not_false_eq_true, if_false, List.length_append,
        List.length_singleton]
      by_cases hclimb : (survivors names).1 = 0
      · have hlength : (dir.names ++ [name]).length = dir.names.length + 1 := by simp
        rw [if_pos hclimb, hclimb, Nat.sub_zero, Nat.sub_zero, ← hlength, List.take_length,
          List.take_length, List.append_assoc, List.singleton_append]
      · rw [if_neg hclimb, List.take_append_of_le_length (by omega)]
        congr 2
        omega

/-- A path of one segment that is no `..`. -/
theorem survivors_singleton {name : Name} (h : name ≠ parentName) :
    survivors [name] = (0, [name]) := by
  simp [survivors, h]

theorem PurePath.parse_of_notMem {text : String} (hslash : '/' ∉ text.toList) (hne : text ≠ "")
    (hdot : text ≠ ".") : PurePath.parse text = { absolute := false, names := [text.toList] } := by
  have hsplit : text.toList.splitOn '/' = [text.toList] := by
    rw [List.splitOn_eq_splitOnP]
    refine List.splitOnP_eq_singleton fun ch hch => ?_
    simp only [beq_eq_false_iff_ne, ne_eq]
    rintro rfl
    exact hslash hch
  have hempty : text.toList ≠ [] := fun h => hne (String.toList_inj.mp h)
  have hname : text.toList ≠ ['.'] := fun h => hdot (String.toList_inj.mp h)
  have hhead : (text.toList.head? == some '/') = false := by
    rw [beq_eq_false_iff_ne]
    exact fun h => hslash (List.mem_of_head? h)
  simp [PurePath.parse, hsplit, hempty, hname, hhead]

end Foundation
