import Portex.Foundation.Path
import Mathlib.Data.List.Infix

/-!
# File trees

The files and directories of a file system without symbolic links. A path is found name by name:
each name before the last has to be that of a directory, also where a later `..` takes it back. So
`a/../b` leads to `b` whether there is an `a` or not, but it is found only where `a` is a directory.

## Main definitions

* `Directory.Below`: one path lies strictly inside another one
* `FileTree`: the entries, closed under parents
* `FileTree.find`: where a path is found
* `FileTree.makeDirs`, `FileTree.unlink`, `FileTree.removeTree`: operations on paths

## Main results

* `eq_walk_of_walk`: a path is found where it leads
* `find_join`: a path is found from a directory that exists
* `clear_walk_iff`: what is found once a directory has been emptied
* `removeTree_spec`, `exists_removeTree`: a directory is removed by a path that does not pass through
  what is inside
-/

namespace Foundation

universe u

namespace Directory

variable {dir dir' other : Directory} {name : Name}

instance : DecidableEq Directory := fun dir dir' =>
  decidable_of_iff (dir.names = dir'.names) ⟨ext, congrArg names⟩

def parent (dir : Directory) : Directory := dir.enter parentName

/-- The path up to some name. -/
def take (dir : Directory) (n : ℕ) : Directory :=
  ⟨dir.names.take n, fun hmem => dir.parent_notMem (List.take_subset _ _ hmem)⟩

/-- The other path lies inside, or is the same. -/
def Within (dir other : Directory) : Prop := dir.names <+: other.names

/-- The other path lies strictly inside. -/
def Below (dir other : Directory) : Prop := dir.Within other ∧ dir ≠ other

instance (dir other : Directory) : Decidable (dir.Within other) :=
  inferInstanceAs (Decidable (_ <+: _))

instance (dir other : Directory) : Decidable (dir.Below other) :=
  inferInstanceAs (Decidable (_ ∧ _))

@[simp] theorem names_parent (dir : Directory) : dir.parent.names = dir.names.dropLast := by
  simp [parent, enter]

theorem names_enter (h : name ≠ parentName) (dir : Directory) :
    (dir.enter name).names = dir.names ++ [name] := by
  simp [enter, h]

theorem within_refl (dir : Directory) : dir.Within dir := List.prefix_refl _

theorem Within.trans (h : dir.Within dir') (h' : dir'.Within other) : dir.Within other :=
  List.IsPrefix.trans h h'

theorem Within.antisymm (h : dir.Within other) (h' : other.Within dir) : dir = other :=
  ext (h.eq_of_length_le h'.length_le)

theorem parent_within (dir : Directory) : dir.parent.Within dir := by
  unfold Within
  rw [names_parent]
  exact List.dropLast_prefix _

/-- What lies strictly inside has its parent inside. -/
theorem Below.within_parent (h : dir.Below other) : dir.Within other.parent := by
  obtain ⟨⟨rest, hrest⟩, hne⟩ := h
  have hrest' : rest ≠ [] := by
    rintro rfl
    exact hne (ext (by rw [← hrest, List.append_nil]))
  unfold Within
  rw [names_parent, ← hrest, List.dropLast_append_of_ne_nil hrest']
  exact List.prefix_append _ _

theorem Below.trans_within (h : dir.Below other) (h' : other.Within dir') : dir.Below dir' :=
  ⟨h.1.trans h', fun heq => h.2 (h.1.antisymm (heq ▸ h'))⟩

theorem not_below_root (dir : Directory) : ¬ dir.Below root := fun h =>
  h.2 (ext (List.prefix_nil.mp h.1))

theorem not_below_self (dir : Directory) : ¬ dir.Below dir := fun h => h.2 rfl

theorem parent_root : root.parent = root := rfl

/-- A directory inside another one is one of its initial parts. -/
theorem Within.eq_take (h : dir.Within other) : dir = other.take dir.names.length :=
  ext (List.prefix_iff_eq_take.mp h)

theorem take_within (dir : Directory) (n : ℕ) : (dir.take n).Within dir := List.take_prefix n _

/-- A path other than the root is entered from its parent. -/
theorem exists_enter (h : dir ≠ root) :
    ∃ name, name ≠ parentName ∧ dir.parent.enter name = dir := by
  have hnames : dir.names ≠ [] := fun hnil => h (ext hnil)
  have hname : dir.names.getLast hnames ≠ parentName := fun heq =>
    dir.parent_notMem (heq ▸ List.getLast_mem hnames)
  refine ⟨dir.names.getLast hnames, hname, ext ?_⟩
  rw [names_enter hname, names_parent, List.dropLast_append_getLast]

end Directory

/-! ## Trees -/

inductive Entry (ν : Type u)
  | file (content : ν)
  | directory

namespace Entry

variable {ν : Type u}

def isDirectory : Entry ν → Bool
  | .directory => true
  | .file _ => false

theorem isDirectory_iff {entry : Entry ν} : entry.isDirectory = true ↔ entry = .directory := by
  cases entry with
  | file content => exact iff_of_false Bool.false_ne_true fun h => by cases h
  | directory => exact iff_of_true rfl rfl

end Entry

/-- The files and directories: what exists has a directory as its parent. -/
structure FileTree (ν : Type u) where
  get? : Directory → Option (Entry ν)
  root_directory : get? .root = some .directory
  closed : ∀ dir, (get? dir).isSome → get? dir.parent = some .directory

namespace FileTree

variable {ν : Type u} {tree : FileTree ν} {dir dir' target : Directory} {name : Name}
  {names : List Name} {path : PurePath}

def isDir (tree : FileTree ν) (dir : Directory) : Bool := (tree.get? dir).any Entry.isDirectory

/-- One name further, where this exists. -/
def enter? (tree : FileTree ν) (dir : Directory) (name : Name) : Option Directory :=
  if tree.isDir dir ∧ (tree.get? (dir.enter name)).isSome then some (dir.enter name) else none

def walk (tree : FileTree ν) : Directory → List Name → Option Directory
  | dir, [] => some dir
  | dir, name :: names => (tree.enter? dir name).bind fun next => walk tree next names

/-- Where the kernel finds a path. -/
def find (tree : FileTree ν) (path : PurePath) : Option Directory := tree.walk .root path.names

theorem isDir_iff : tree.isDir dir = true ↔ tree.get? dir = some .directory := by
  unfold isDir
  cases tree.get? dir with
  | none => exact iff_of_false Bool.false_ne_true fun h => by cases h
  | some entry => simp [Entry.isDirectory_iff]

theorem isSome_of_isDir (h : tree.isDir dir = true) : (tree.get? dir).isSome = true := by
  rw [isDir_iff.mp h]
  rfl

theorem enter?_eq_some : tree.enter? dir name = some target ↔
    (tree.isDir dir = true ∧ (tree.get? (dir.enter name)).isSome = true) ∧
      dir.enter name = target := by
  unfold enter?
  rw [Option.ite_none_right_eq_some, Option.some.injEq]

theorem walk_append (tree : FileTree ν) (dir : Directory) (names names' : List Name) :
    tree.walk dir (names ++ names') =
      (tree.walk dir names).bind fun next => tree.walk next names' := by
  induction names generalizing dir with
  | nil => rfl
  | cons name names ih =>
    simp only [List.cons_append, walk, Option.bind_assoc]
    exact Option.bind_congr fun next _ => ih next

/-- **A path is found where it leads**, and there is an entry. -/
theorem eq_walk_of_walk (h : tree.walk dir names = some target)
    (hdir : (tree.get? dir).isSome = true) :
    target = dir.walk names ∧ (tree.get? target).isSome = true := by
  induction names generalizing dir with
  | nil =>
    obtain rfl := Option.some.inj h
    exact ⟨rfl, hdir⟩
  | cons name names ih =>
    obtain ⟨next, hnext, hrest⟩ := Option.bind_eq_some_iff.mp h
    obtain ⟨⟨-, hexists⟩, rfl⟩ := enter?_eq_some.mp hnext
    exact ih hrest hexists

/-- **What exists is found.** -/
theorem walk_root_names (hdir : (tree.get? dir).isSome = true) :
    tree.walk .root dir.names = some dir := by
  induction hlength : dir.names.length generalizing dir with
  | zero =>
    obtain rfl : dir = .root := Directory.ext (List.eq_nil_of_length_eq_zero hlength)
    rfl
  | succ n ih =>
    have hne : dir ≠ .root := by
      rintro rfl
      cases hlength
    obtain ⟨name, hname, henter⟩ := Directory.exists_enter hne
    have hparent := tree.closed dir hdir
    have hwalk : tree.walk .root dir.parent.names = some dir.parent := by
      refine ih (by rw [hparent]; rfl) ?_
      rw [Directory.names_parent, List.length_dropLast, hlength]
      rfl
    have hnames : dir.names = dir.parent.names ++ [name] := by
      conv_lhs => rw [← henter]
      exact Directory.names_enter hname _
    have hlast : tree.enter? dir.parent name = some dir :=
      enter?_eq_some.mpr ⟨⟨isDir_iff.mpr hparent, by rw [henter, hdir]⟩, henter⟩
    rw [hnames, walk_append, hwalk]
    simp only [Option.bind_some, walk, hlast]

/-- A path is found from a directory that exists. -/
theorem find_join (hdir : (tree.get? dir).isSome = true) (hpath : path.absolute = false) :
    tree.find (dir.toPath.join path) = tree.walk dir path.names := by
  unfold find PurePath.join
  rw [hpath, if_neg Bool.false_ne_true]
  show tree.walk .root (dir.names ++ path.names) = _
  rw [walk_append, walk_root_names hdir]
  rfl

/-! ## Operations -/

/-- A file is in the way of a directory. -/
def blocked (tree : FileTree ν) (dir : Directory) : Bool :=
  (List.range (dir.names.length + 1)).any fun n =>
    (tree.get? (dir.take n)).any fun entry => !entry.isDirectory

theorem not_blocked (h : tree.blocked dir = false) (hwithin : dir'.Within dir) {entry : Entry ν}
    (hget : tree.get? dir' = some entry) : entry = .directory := by
  have hlength : dir'.names.length < dir.names.length + 1 :=
    Nat.lt_succ_of_le (List.IsPrefix.length_le hwithin)
  have hentry := List.any_eq_false.mp h _ (List.mem_range.mpr hlength)
  rw [← hwithin.eq_take, hget] at hentry
  exact Entry.isDirectory_iff.mp (by simpa using hentry)

/-- `path.mkdir(parents=True, exist_ok=True)`. -/
def makeDirs (tree : FileTree ν) (dir : Directory) : Option (FileTree ν) :=
  if h : tree.blocked dir = false then
    some {
      get? := fun other => if other.Within dir then some .directory else tree.get? other
      root_directory := if_pos List.nil_prefix
      closed := fun other hother => by
        split at hother
        · rename_i hwithin
          exact if_pos (other.parent_within.trans hwithin)
        · rw [tree.closed other hother]
          split <;> rfl }
  else none

/-- Everything strictly inside a directory is removed. -/
def clear (tree : FileTree ν) (dir : Directory) : FileTree ν where
  get? other := if dir.Below other then none else tree.get? other
  root_directory := by rw [if_neg dir.not_below_root, tree.root_directory]
  closed other hother := by
    split at hother
    · cases hother
    · rename_i hbelow
      rw [if_neg fun hparent => hbelow (hparent.trans_within other.parent_within)]
      exact tree.closed other hother

/-- An entry is removed, with everything inside. -/
def prune (tree : FileTree ν) (dir : Directory) (h : dir ≠ .root) : FileTree ν where
  get? other := if dir.Within other then none else tree.get? other
  root_directory := by
    have hroot : ¬ dir.Within .root := fun hwithin =>
      h (Directory.ext (List.prefix_nil.mp hwithin))
    rw [if_neg hroot, tree.root_directory]
  closed other hother := by
    split at hother
    · cases hother
    · rename_i hwithin
      rw [if_neg fun hparent => hwithin (hparent.trans other.parent_within)]
      exact tree.closed other hother

/-- `os.unlink(path)`. -/
def unlink (tree : FileTree ν) (path : PurePath) : Bool × FileTree ν :=
  match tree.find path with
  | none => (false, tree)
  | some dir =>
    if h : tree.isDir dir = false then
      (true, tree.prune dir fun heq => by
        rw [heq, isDir_iff.mpr tree.root_directory] at h
        cases h)
    else (false, tree)

/-- `shutil.rmtree(path)`, of a directory: it is emptied, and then removed by its path. -/
def removeTree (tree : FileTree ν) (path : PurePath) : Bool × FileTree ν :=
  match tree.find path with
  | none => (false, tree)
  | some dir =>
    let cleared := tree.clear dir
    -- `os.rmdir(path)` finds the path again, and refuses `/` and paths that end with `..`.
    match cleared.find path with
    | none => (false, cleared)
    | some dir =>
      if h : dir ≠ .root ∧ path.names.getLast? ≠ some parentName then
        (true, cleared.prune dir h.1)
      else (false, cleared)

theorem makeDirs_get? {made : FileTree ν} (h : tree.makeDirs dir = some made) :
    made.get? dir = some .directory ∧
      ∀ other entry, tree.get? other = some entry → made.get? other = some entry := by
  unfold makeDirs at h
  split at h
  · rename_i hfree
    obtain rfl := Option.some.inj h
    refine ⟨if_pos dir.within_refl, fun other entry hget => ?_⟩
    simp only
    split
    · rename_i hwithin
      rw [not_blocked hfree hwithin hget]
    · exact hget
  · cases h

theorem clear_isDir : (tree.clear dir).isDir dir' = true ↔
    tree.isDir dir' = true ∧ ¬ dir.Below dir' := by
  rw [isDir_iff, isDir_iff]
  show (if dir.Below dir' then none else tree.get? dir') = _ ↔ _
  split
  · rename_i hbelow
    exact iff_of_false (fun h => by cases h) fun h => h.2 hbelow
  · rename_i hbelow
    exact (and_iff_left hbelow).symm

theorem clear_isSome : ((tree.clear dir).get? dir').isSome = true ↔
    (tree.get? dir').isSome = true ∧ ¬ dir.Below dir' := by
  show (if dir.Below dir' then none else tree.get? dir').isSome = true ↔ _
  split
  · rename_i hbelow
    exact iff_of_false Bool.false_ne_true fun h => h.2 hbelow
  · rename_i hbelow
    exact (and_iff_left hbelow).symm

/-- **An emptied directory**: the paths are found that do not pass through what was inside. -/
theorem clear_walk_iff {start : Directory} (hstart : ¬ dir.Below start) :
    (tree.clear dir).walk start names = some target ↔
      tree.walk start names = some target ∧ ∀ l, l <+: names → ¬ dir.Below (start.walk l) := by
  induction names generalizing start with
  | nil =>
    refine (and_iff_left fun l hl => ?_).symm
    rw [List.prefix_nil.mp hl]
    exact hstart
  | cons name names ih =>
    simp only [walk, Option.bind_eq_some_iff, enter?_eq_some, clear_isDir, clear_isSome]
    constructor
    · rintro ⟨_, ⟨⟨⟨hdir, -⟩, hexists, hnext⟩, rfl⟩, hwalk⟩
      obtain ⟨hwalk, hprefixes⟩ := (ih hnext).mp hwalk
      refine ⟨⟨_, ⟨⟨hdir, hexists⟩, rfl⟩, hwalk⟩, fun l hl => ?_⟩
      cases l with
      | nil => exact hstart
      | cons first l =>
        obtain ⟨rfl, hrest⟩ := List.cons_prefix_cons.mp hl
        exact hprefixes l hrest
    · rintro ⟨⟨_, ⟨⟨hdir, hexists⟩, rfl⟩, hwalk⟩, hprefixes⟩
      have hnext : ¬ dir.Below (start.enter name) :=
        hprefixes [name] (List.cons_prefix_cons.mpr ⟨rfl, List.nil_prefix⟩)
      refine ⟨_, ⟨⟨⟨hdir, hstart⟩, hexists, hnext⟩, rfl⟩, (ih hnext).mpr ⟨hwalk, fun l hl => ?_⟩⟩
      exact hprefixes (name :: l) (List.cons_prefix_cons.mpr ⟨rfl, hl⟩)

/-- The parent of a path other than the root is strictly outside. -/
theorem parent_below (h : dir ≠ .root) : dir.parent.Below dir := by
  refine ⟨dir.parent_within, fun heq => h (Directory.ext ?_)⟩
  have hlength := congrArg (fun dir => dir.names.length) heq
  simp only [Directory.names_parent, List.length_dropLast] at hlength
  exact List.eq_nil_of_length_eq_zero (by omega)

/-- **A directory is removed** by a path that does not pass through what is inside. -/
theorem removeTree_spec {removed : FileTree ν} (h : tree.removeTree path = (true, removed)) :
    ∃ dir, tree.find path = some dir ∧
      (∀ l, l <+: path.names → ¬ dir.Below (Directory.root.walk l)) ∧
        ∀ other, removed.get? other = if dir.Within other then none else tree.get? other := by
  unfold removeTree at h
  cases hfind : tree.find path with
  | none =>
    rw [hfind] at h
    cases h
  | some dir =>
    rw [hfind] at h
    cases hagain : (tree.clear dir).find path with
    | none =>
      simp only [hagain] at h
      cases h
    | some dir' =>
      obtain ⟨hwalk, hprefixes⟩ := (clear_walk_iff dir.not_below_root).mp hagain
      obtain rfl := Option.some.inj (hfind.symm.trans hwalk)
      simp only [hagain] at h
      split at h
      · cases h
        refine ⟨dir, rfl, hprefixes, fun other => ?_⟩
        show (if dir.Within other then none
          else if dir.Below other then none else tree.get? other) =
            if dir.Within other then none else tree.get? other
        split
        · rfl
        · rename_i hwithin
          rw [if_neg fun hbelow => hwithin hbelow.1]
      · cases h

theorem exists_removeTree (hfind : tree.find path = some dir) (hne : dir ≠ .root)
    (hprefixes : ∀ l, l <+: path.names → ¬ dir.Below (Directory.root.walk l)) :
    ∃ removed, tree.removeTree path = (true, removed) ∧ removed.get? dir = none := by
  have hagain : (tree.clear dir).find path = some dir :=
    (clear_walk_iff dir.not_below_root).mpr ⟨hfind, hprefixes⟩
  have hlast : path.names.getLast? ≠ some parentName := by
    intro hlast
    obtain ⟨l, hl⟩ := List.getLast?_eq_some_iff.mp hlast
    have hroot : (tree.get? Directory.root).isSome = true := by
      rw [tree.root_directory]
      rfl
    have hwalk : dir = (Directory.root.walk l).parent := by
      rw [(eq_walk_of_walk hfind hroot).1, hl, Directory.walk_append]
      rfl
    -- The path comes to its directory from inside, or from the root.
    by_cases hstart : Directory.root.walk l = .root
    · exact hne (by rw [hwalk, hstart, Directory.parent_root])
    · exact hprefixes l ⟨_, hl.symm⟩ (hwalk ▸ parent_below hstart)
  unfold removeTree
  simp only [hfind, hagain]
  rw [dif_pos ⟨hne, hlast⟩]
  exact ⟨_, rfl, if_pos dir.within_refl⟩

/-- **A file is removed.** -/
theorem unlink_spec {removed : FileTree ν} (h : tree.unlink path = (true, removed)) :
    ∃ dir, tree.find path = some dir ∧ tree.isDir dir = false ∧
      ∀ other, removed.get? other = if dir.Within other then none else tree.get? other := by
  unfold unlink at h
  cases hfind : tree.find path with
  | none =>
    rw [hfind] at h
    cases h
  | some dir =>
    rw [hfind] at h
    simp only at h
    split at h
    · rename_i hfile
      cases h
      exact ⟨dir, rfl, hfile, fun other => rfl⟩
    · cases h

end FileTree

end Foundation
