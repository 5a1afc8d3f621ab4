import Portex.Foundation.FileTree

/-!
# Writing and renaming files

Operations on the files of a tree. Directories are made name by name along a path, as `mkdir` does
with the parents of a path that is not resolved, and then a file is written into a directory that is
found, or moved over another one.

## Main definitions

* `FileTree.Extends`: nothing has been lost, and no file has come
* `FileTree.makePath`: the directories along a path
* `FileTree.writeFile`, `FileTree.moveFile`: a file is written, or replaces another one

## Main results

* `makePath_spec`: the directories are there afterwards, and the files are as before
* `writeFile_spec`, `moveFile_spec`: what is where after an operation that succeeds
* `exists_writeFile`, `exists_moveFile`: when operations succeed
-/

namespace Foundation

universe u

namespace FileTree

variable {ν : Type u} {tree made after : FileTree ν} {dir target other : Directory}
  {name : Name} {names : List Name} {path : PurePath} {content : ν}

/-- The entries are still there, and the files are the same. -/
structure Extends (tree made : FileTree ν) : Prop where
  kept : ∀ dir entry, tree.get? dir = some entry → made.get? dir = some entry
  files : ∀ dir content, made.get? dir = some (.file content) → tree.get? dir = some (.file content)

theorem Extends.refl (tree : FileTree ν) : tree.Extends tree := ⟨fun _ _ h => h, fun _ _ h => h⟩

theorem Extends.trans (h : tree.Extends made) (h' : made.Extends after) : tree.Extends after :=
  ⟨fun dir entry hget => h'.kept dir entry (h.kept dir entry hget),
    fun dir content hget => h.files dir content (h'.files dir content hget)⟩

theorem Extends.file_iff (h : tree.Extends made) :
    made.get? dir = some (.file content) ↔ tree.get? dir = some (.file content) :=
  ⟨h.files dir content, h.kept dir _⟩

theorem Extends.isDir (h : tree.Extends made) (hdir : tree.isDir dir = true) :
    made.isDir dir = true :=
  isDir_iff.mpr (h.kept dir _ (isDir_iff.mp hdir))

@[ext] theorem ext (h : ∀ dir, tree.get? dir = made.get? dir) : tree = made := by
  cases tree
  cases made
  congr 1
  exact funext h

theorem isSome_root (tree : FileTree ν) : (tree.get? .root).isSome = true := by
  rw [tree.root_directory]
  rfl

/-! ## Directories along a path -/

theorem makeDirs_extends (h : tree.makeDirs dir = some made) : tree.Extends made := by
  refine ⟨(makeDirs_get? h).2, fun other content hget => ?_⟩
  unfold makeDirs at h
  split at h
  · obtain rfl := Option.some.inj h
    simp only at hget
    split at hget
    · cases hget
    · exact hget
  · cases h

/-- Directories are made name by name; the tree is what it has become. -/
def makeWalk : FileTree ν → Directory → List Name → Bool × FileTree ν
  | tree, _, [] => (true, tree)
  | tree, dir, name :: names =>
    match tree.makeDirs (dir.enter name) with
    | none => (false, tree)
    | some made => makeWalk made (dir.enter name) names

/-- `path.mkdir(parents=True, exist_ok=True)`, of a path that may pass through `..`. -/
def makePath (tree : FileTree ν) (path : PurePath) : Bool × FileTree ν :=
  tree.makeWalk .root path.names

theorem makeWalk_extends (tree : FileTree ν) (dir : Directory) (names : List Name) :
    tree.Extends (tree.makeWalk dir names).2 := by
  induction names generalizing tree dir with
  | nil => exact .refl tree
  | cons name names ih =>
    unfold makeWalk
    split
    · exact .refl tree
    · rename_i made hmade
      exact (makeDirs_extends hmade).trans (ih made (dir.enter name))

/-- What is found stays where it is. -/
theorem Extends.walk (h : tree.Extends made) (hwalk : tree.walk dir names = some target) :
    made.walk dir names = some target := by
  induction names generalizing dir with
  | nil => exact hwalk
  | cons name names ih =>
    obtain ⟨next, hnext, hrest⟩ := Option.bind_eq_some_iff.mp hwalk
    obtain ⟨⟨hdir, hexists⟩, rfl⟩ := enter?_eq_some.mp hnext
    obtain ⟨entry, hentry⟩ := Option.isSome_iff_exists.mp hexists
    refine Option.bind_eq_some_iff.mpr ⟨_, enter?_eq_some.mpr ⟨⟨h.isDir hdir, ?_⟩, rfl⟩, ih hrest⟩
    rw [h.kept _ entry hentry]
    rfl

theorem makeWalk_walk (hdir : tree.isDir dir = true) (h : tree.makeWalk dir names = (true, made)) :
    made.walk dir names = some (dir.walk names) ∧ made.isDir (dir.walk names) = true := by
  induction names generalizing tree dir with
  | nil =>
    obtain rfl := (Prod.mk.inj h).2
    exact ⟨rfl, hdir⟩
  | cons name names ih =>
    unfold makeWalk at h
    split at h
    · cases h
    · rename_i next hnext
      have hmade : next.isDir (dir.enter name) = true := isDir_iff.mpr (makeDirs_get? hnext).1
      obtain ⟨hwalk, hisDir⟩ := ih hmade h
      -- The directories that were there are there afterwards.
      have hrest : next.Extends made := by
        have hextends := next.makeWalk_extends (dir.enter name) names
        rwa [h] at hextends
      refine ⟨Option.bind_eq_some_iff.mpr ⟨_, enter?_eq_some.mpr ⟨⟨?_, ?_⟩, rfl⟩, hwalk⟩, hisDir⟩
      · exact hrest.isDir ((makeDirs_extends hnext).isDir hdir)
      · exact isSome_of_isDir (hrest.isDir hmade)

theorem makePath_extends (tree : FileTree ν) (path : PurePath) :
    tree.Extends (tree.makePath path).2 := tree.makeWalk_extends .root path.names

/-- **A path is made**: it is found afterwards, and is a directory. -/
theorem makePath_spec (h : tree.makePath path = (true, made)) :
    made.find path = some path.resolve ∧ made.isDir path.resolve = true :=
  makeWalk_walk (isDir_iff.mpr tree.root_directory) h

/-! ## Files -/

/-- An entry is set to a file; the parent is a directory, and the entry is not. -/
def put (tree : FileTree ν) (dir : Directory) (content : ν)
    (h : tree.isDir dir.parent = true ∧ tree.isDir dir = false) : FileTree ν where
  get? other := if other = dir then some (.file content) else tree.get? other
  root_directory := by
    rw [if_neg, tree.root_directory]
    rintro rfl
    rw [isDir_iff.mpr tree.root_directory] at h
    cases h.2
  closed other hother := by
    have hparent : tree.get? other.parent = some .directory := by
      split at hother
      · rename_i heq
        rw [heq]
        exact isDir_iff.mp h.1
      · exact tree.closed other hother
    rw [if_neg, hparent]
    intro heq
    have hdir := isDir_iff.mpr (heq ▸ hparent)
    rw [h.2] at hdir
    cases hdir

theorem parent_enter (h : name ≠ parentName) (dir : Directory) : (dir.enter name).parent = dir := by
  apply Directory.ext
  rw [Directory.names_parent, Directory.names_enter h, List.dropLast_concat]

/-- `path.open("wb")` and `write(content)`. -/
def writeFile (tree : FileTree ν) (path : PurePath) (content : ν) : Option (FileTree ν) :=
  match path.names.getLast? with
  | none => none
  | some name =>
    if hname : name = parentName then none
    else
      match tree.find { path with names := path.names.dropLast } with
      | none => none
      | some dir =>
        if h : tree.isDir dir = true ∧ tree.isDir (dir.enter name) = false then
          some (tree.put (dir.enter name) content (by rwa [parent_enter hname]))
        else none

/-- `os.replace(source, target)`, of a file. -/
def moveFile (tree : FileTree ν) (source target : PurePath) : Option (FileTree ν) :=
  match tree.find source with
  | none => none
  | some moved =>
    match tree.get? moved with
    | some (.file content) =>
      (tree.writeFile target content).map fun written =>
        if h : moved ≠ target.resolve ∧ moved ≠ .root then written.prune moved h.2 else written
    | _ => none

theorem resolve_eq_enter (h : path.names.getLast? = some name) :
    path.resolve = ({ path with names := path.names.dropLast } : PurePath).resolve.enter name := by
  obtain ⟨l, hl⟩ := List.getLast?_eq_some_iff.mp h
  unfold PurePath.resolve
  simp only [hl, List.dropLast_concat]
  rw [Directory.walk_append]
  rfl

/-- A file can be written: the path ends with a name, its directory is found, and there is no
directory of that name. -/
structure Writable (tree : FileTree ν) (path : PurePath) : Prop where
  name : ∃ name, path.names.getLast? = some name ∧ name ≠ parentName
  parent : ∃ dir, tree.find { path with names := path.names.dropLast } = some dir ∧
    tree.isDir dir = true
  notDir : tree.isDir path.resolve = false

/-- Where a path leads whose directory is found. -/
theorem resolve_of_find (hlast : path.names.getLast? = some name)
    (hfind : tree.find { path with names := path.names.dropLast } = some dir) :
    path.resolve = dir.enter name := by
  rw [resolve_eq_enter hlast]
  exact congrArg (fun dir => dir.enter name) (eq_walk_of_walk hfind (isSome_root tree)).1.symm

theorem writable_of_writeFile (h : tree.writeFile path content = some after) :
    tree.Writable path := by
  unfold writeFile at h
  split at h
  · cases h
  · rename_i name hlast
    split at h
    · cases h
    · rename_i hname
      split at h
      · cases h
      · rename_i dir hfind
        split at h
        · rename_i hput
          exact ⟨⟨name, hlast, hname⟩, ⟨dir, hfind, hput.1⟩,
            resolve_of_find hlast hfind ▸ hput.2⟩
        · cases h

/-- **A file is written**, and everything else is as before. -/
theorem writeFile_spec (h : tree.writeFile path content = some after) (other : Directory) :
    after.get? other =
      if other = path.resolve then some (.file content) else tree.get? other := by
  unfold writeFile at h
  split at h
  · cases h
  · rename_i name hlast
    split at h
    · cases h
    · split at h
      · cases h
      · rename_i dir hfind
        split at h
        · obtain rfl := Option.some.inj h
          rw [resolve_of_find hlast hfind]
          rfl
        · cases h

theorem exists_writeFile (h : tree.Writable path) (content : ν) :
    ∃ after, tree.writeFile path content = some after := by
  obtain ⟨⟨name, hlast, hname⟩, ⟨dir, hfind, hdir⟩, hnotDir⟩ := h
  rw [resolve_of_find hlast hfind] at hnotDir
  refine ⟨tree.put (dir.enter name) content ⟨by rwa [parent_enter hname], hnotDir⟩, ?_⟩
  unfold writeFile
  simp only [hlast, hfind]
  rw [dif_neg hname, dif_pos ⟨hdir, hnotDir⟩]

/-- A path is found again where its directories are kept and there is still an entry. -/
theorem walk_of_isDir (hdirs : ∀ dir, tree.isDir dir = true → after.isDir dir = true)
    (hwalk : tree.walk dir names = some target) (htarget : (after.get? target).isSome = true) :
    after.walk dir names = some target := by
  induction names generalizing dir with
  | nil => exact hwalk
  | cons name names ih =>
    obtain ⟨next, hnext, hrest⟩ := Option.bind_eq_some_iff.mp hwalk
    obtain ⟨⟨hdir, -⟩, rfl⟩ := enter?_eq_some.mp hnext
    -- What is entered is the target, or a directory.
    have hexists : (after.get? (dir.enter name)).isSome = true := by
      cases names with
      | nil =>
        rw [Option.some.inj hrest]
        exact htarget
      | cons name' names =>
        obtain ⟨next', hnext', -⟩ := Option.bind_eq_some_iff.mp hrest
        exact isSome_of_isDir (hdirs _ (enter?_eq_some.mp hnext').1.1)
    exact Option.bind_eq_some_iff.mpr
      ⟨_, enter?_eq_some.mpr ⟨⟨hdirs dir hdir, hexists⟩, rfl⟩, ih hrest⟩

/-- A path that is found goes through a directory to its last name. -/
theorem find_dropLast (hfind : tree.find path = some target)
    (hlast : path.names.getLast? = some name) :
    ∃ dir, tree.find { path with names := path.names.dropLast } = some dir ∧
      tree.isDir dir = true ∧ target = dir.enter name := by
  obtain ⟨l, hl⟩ := List.getLast?_eq_some_iff.mp hlast
  unfold find at hfind ⊢
  rw [hl, walk_append] at hfind
  obtain ⟨dir, hdir, hrest⟩ := Option.bind_eq_some_iff.mp hfind
  obtain ⟨next, hnext, hend⟩ := Option.bind_eq_some_iff.mp hrest
  obtain ⟨⟨hisDir, -⟩, rfl⟩ := enter?_eq_some.mp hnext
  refine ⟨dir, ?_, hisDir, (Option.some.inj hend).symm⟩
  simp only [hl, List.dropLast_concat]
  exact hdir

/-- There is nothing below a file. -/
theorem eq_none_of_below_file (hfile : tree.isDir dir = false) (hbelow : dir.Below other) :
    tree.get? other = none := by
  by_contra hsome
  -- The induction is on the length of the path: its parent is a directory.
  induction hlength : other.names.length using Nat.strong_induction_on generalizing other with
  | _ n ih =>
    have hexists : (tree.get? other).isSome = true := Option.isSome_iff_ne_none.mpr hsome
    have hparent := tree.closed other hexists
    have hne : other ≠ .root := by
      rintro rfl
      exact dir.not_below_root hbelow
    by_cases heq : dir = other.parent
    · rw [← heq] at hparent
      rw [isDir_iff.mpr hparent] at hfile
      cases hfile
    · refine ih other.parent.names.length ?_ ⟨hbelow.within_parent, heq⟩ (by simp [hparent]) rfl
      have hnames : other.names ≠ [] := fun hnil => hne (Directory.ext hnil)
      rw [Directory.names_parent, List.length_dropLast, ← hlength]
      exact Nat.sub_lt (List.length_pos_of_ne_nil hnames) Nat.one_pos

theorem isDir_writeFile (h : tree.writeFile path content = some after)
    (hdir : tree.isDir dir = true) : after.isDir dir = true := by
  have hne : dir ≠ path.resolve := by
    rintro rfl
    rw [(writable_of_writeFile h).notDir] at hdir
    cases hdir
  rwa [isDir, writeFile_spec h, if_neg hne]

theorem not_isDir_writeFile (h : tree.writeFile path content = some after)
    (hdir : tree.isDir dir = false) : after.isDir dir = false := by
  rw [isDir, writeFile_spec h]
  split
  · rfl
  · exact hdir

/-- A file that was written is found. -/
theorem find_writeFile (h : tree.writeFile path content = some after) :
    after.find path = some path.resolve := by
  obtain ⟨⟨name, hlast, -⟩, ⟨dir, hfind, hdir⟩, -⟩ := writable_of_writeFile h
  have hresolve := resolve_of_find hlast hfind
  have hfind' := walk_of_isDir (fun _ => isDir_writeFile h) hfind
    (isSome_of_isDir (isDir_writeFile h hdir))
  have hnext : after.enter? dir name = some path.resolve := by
    refine enter?_eq_some.mpr ⟨⟨isDir_writeFile h hdir, ?_⟩, hresolve.symm⟩
    rw [← hresolve, writeFile_spec h, if_pos rfl]
    rfl
  obtain ⟨l, hl⟩ := List.getLast?_eq_some_iff.mp hlast
  simp only [hl, List.dropLast_concat] at hfind'
  unfold find
  rw [hl, walk_append, hfind']
  simp only [Option.bind_some, walk, hnext]

/-- What can be written can be written after another file. -/
theorem Writable.writeFile {path' : PurePath} (h : tree.Writable path')
    (hwrite : tree.writeFile path content = some after) : after.Writable path' := by
  obtain ⟨hname, ⟨dir, hfind, hdir⟩, hnotDir⟩ := h
  refine ⟨hname, ⟨dir, walk_of_isDir (fun _ => isDir_writeFile hwrite) hfind
    (isSome_of_isDir (isDir_writeFile hwrite hdir)), isDir_writeFile hwrite hdir⟩, ?_⟩
  exact not_isDir_writeFile hwrite hnotDir

/-- No file is written below a file. -/
theorem Writable.not_below {moved : Directory} (h : tree.Writable path)
    (hfile : tree.isDir moved = false) : ¬ moved.Below path.resolve := by
  obtain ⟨⟨name, hlast, hname⟩, ⟨dir, hfind, hdir⟩, -⟩ := h
  rw [resolve_of_find hlast hfind]
  intro hbelow
  have hwithin := hbelow.within_parent
  rw [parent_enter hname] at hwithin
  by_cases heq : moved = dir
  · rw [heq, hdir] at hfile
    cases hfile
  · have hnone := eq_none_of_below_file hfile ⟨hwithin, heq⟩
    rw [isDir_iff.mp hdir] at hnone
    cases hnone

/-- **A file replaces another one**, and everything else is as before. -/
theorem moveFile_spec {source : PurePath} {moved : Directory}
    (h : tree.moveFile source path = some after) (hfind : tree.find source = some moved)
    (hne : moved ≠ path.resolve) : ∃ content, tree.get? moved = some (.file content) ∧
      ∀ other, after.get? other = if other = moved then none
        else if other = path.resolve then some (.file content) else tree.get? other := by
  unfold moveFile at h
  rw [hfind] at h
  simp only at h
  split at h
  · rename_i content hget
    have hfile : tree.isDir moved = false := by
      rw [isDir, hget]
      rfl
    have hroot : moved ≠ .root := by
      rintro rfl
      rw [isDir_iff.mpr tree.root_directory] at hfile
      cases hfile
    obtain ⟨written, hwritten, hafter⟩ := Option.map_eq_some_iff.mp h
    rw [dif_pos ⟨hne, hroot⟩] at hafter
    refine ⟨content, hget, fun other => ?_⟩
    rw [← hafter]
    show (if moved.Within other then none else written.get? other) = _
    rw [writeFile_spec hwritten]
    by_cases hmoved : other = moved
    · rw [if_pos hmoved, if_pos (hmoved ▸ moved.within_refl)]
    · rw [if_neg hmoved]
      split
      · rename_i hwithin
        -- Nothing lies below the file that is moved.
        have hbelow : moved.Below other := ⟨hwithin, fun heq => hmoved heq.symm⟩
        have hother : other ≠ path.resolve := fun heq =>
          (writable_of_writeFile hwritten).not_below hfile (heq ▸ hbelow)
        rw [if_neg hother, eq_none_of_below_file hfile hbelow]
      · rfl
  · cases h

theorem exists_moveFile {source : PurePath} {moved : Directory}
    (hfind : tree.find source = some moved) (hget : tree.get? moved = some (.file content))
    (h : tree.Writable path) : ∃ after, tree.moveFile source path = some after := by
  obtain ⟨written, hwritten⟩ := exists_writeFile h content
  unfold moveFile
  simp only [hfind, hget, hwritten, Option.map_some]
  exact ⟨_, rfl⟩

/-! ## Directories that are there -/

/-- What an entry lies in is a directory. -/
theorem isDir_of_below (hexists : (tree.get? other).isSome = true) (hbelow : dir.Below other) :
    tree.isDir dir = true := by
  by_contra hfile
  rw [eq_none_of_below_file (Bool.eq_false_iff.mpr hfile) hbelow] at hexists
  cases hexists

/-- A directory that is there need not be made. -/
theorem makeDirs_of_isDir (h : tree.isDir dir = true) : tree.makeDirs dir = some tree := by
  have hwithin : ∀ other, other.Within dir → tree.get? other = some .directory := by
    intro other hother
    by_cases heq : other = dir
    · exact heq ▸ isDir_iff.mp h
    · exact isDir_iff.mp (isDir_of_below (isSome_of_isDir h) ⟨hother, heq⟩)
  have hfree : tree.blocked dir = false := by
    unfold blocked
    rw [List.any_eq_false]
    intro n _
    rw [hwithin _ (dir.take_within n)]
    simp [Entry.isDirectory]
  unfold makeDirs
  rw [dif_pos hfree]
  congr 1
  ext1 other
  show (if other.Within dir then some .directory else tree.get? other) = _
  split
  · rename_i hother
    exact (hwithin other hother).symm
  · rfl

end FileTree

end Foundation
