import Portex.Foundation.FileTree
import Portex.Memory.Service

/-!
# Files of a workspace

The files of a group are below `<data_root>/groups/<folder>`. A path that a client sends is
normalised, joined to this directory, resolved and checked against it. `delete_path` normalises once
to refuse the empty path, and once more to find what it removes, and the check accepts the directory
itself. So a path that is empty only when it is normalised twice removes the whole workspace, as does
one that leaves the workspace and comes back to it by its name.

## Main definitions

* `normalizeCurrentPath`: `_normalize_current_path`
* `WorkspaceFileService.workspaceRoot`, `resolveCandidate`: the directory, and a path in it
* `WorkspaceFileService.deletePath`: `delete_path`
* `Confined`: the directory and everything outside are as before
* `RemovesRoot`: the paths that lead back to the directory

## Main results

* `deletePath_ok`: what a call removes that succeeds
* `deletesInside_iff`: the paths that remove nothing but what is inside
* `exists_rootDeleted`: a workspace is removed by `./.`, and by its own name
-/

namespace Portex

open Foundation

inductive WorkspaceFileError
  /-- The `ValueError` of `resolve` on a null byte. -/
  | nullByte
  | value (detail : String)
  /-- `FileNotFoundError`. -/
  | notFound (detail : String)
  /-- Any other `OSError`. -/
  | os
  deriving DecidableEq

/-- `_normalize_current_path`. -/
def normalizeCurrentPath (relativePath : String) : String :=
  let normalized := stripBy (· = '/') (strip relativePath.toList)
  if normalized = [] ∨ normalized = ['.'] then ""
  -- The path does not begin with a slash any more.
  else asPosix (PurePath.parse (String.ofList normalized)).names

/-- `_resolve_candidate`. -/
def resolveCandidate (workspaceRoot : Directory) (relativePath : String) :
    Except WorkspaceFileError PurePath :=
  let normalized := normalizeCurrentPath relativePath
  let candidate := workspaceRoot.toPath.join (.parse normalized)
  if '\x00' ∈ normalized.toList then .error .nullByte
  else if validatePath candidate.resolve [workspaceRoot] then .ok candidate
  else if (PurePath.parse relativePath).names.contains parentName then
    .error (.value "path traversal detected")
  else .error (.value "symlink traversal detected")

structure WorkspaceFileService where
  dataRoot : Directory

namespace WorkspaceFileService

universe u

variable {ν : Type u} (service : WorkspaceFileService)

def groupsRoot : Directory := service.dataRoot.enter "groups".toList

/-- `_workspace_root`: the directory, and the tree in which it was made. -/
def workspaceRoot (tree : FileTree ν) (groupFolder : String) :
    Except WorkspaceFileError (Directory × FileTree ν) :=
  if '\x00' ∈ groupFolder.toList then .error .nullByte
  else
    let candidate := (service.groupsRoot.toPath.join (.parse groupFolder)).resolve
    if ¬ validatePath candidate [service.groupsRoot] then .error (.value "invalid workspace root")
    else
      match tree.makeDirs candidate with
      | none => .error .os
      | some made => .ok (candidate, made)

def deletePath (tree : FileTree ν) (groupFolder filePath : String) :
    Except WorkspaceFileError Unit × FileTree ν :=
  match service.workspaceRoot tree groupFolder with
  | .error error => (.error error, tree)
  | .ok (root, tree) =>
    let normalized := normalizeCurrentPath filePath
    if normalized = "" then (.error (.value "cannot delete workspace root"), tree)
    else
      match resolveCandidate root normalized with
      | .error error => (.error error, tree)
      | .ok target =>
        match tree.find target with
        | none => (.error (.notFound "path not found"), tree)
        | some found =>
          let after := if tree.isDir found then tree.removeTree target else tree.unlink target
          (if after.1 then .ok () else .error .os, after.2)

end WorkspaceFileService

/-! ## Confinement -/

universe u

variable {ν : Type u} {service : WorkspaceFileService} {tree made after : FileTree ν}
  {root : Directory} {groupFolder filePath : String}

/-- The directory and everything that is not inside it are as before. -/
structure Confined (root : Directory) (tree after : FileTree ν) : Prop where
  kept : after.get? root = some .directory
  outside : ∀ dir entry, tree.get? dir = some entry → ¬ root.Below dir →
    after.get? dir = some entry

/-- A call that succeeds removes what lies strictly inside the workspace. -/
def DeletesInside (service : WorkspaceFileService) (tree : FileTree ν)
    (groupFolder filePath : String) : Prop :=
  ∀ root made after, service.workspaceRoot tree groupFolder = .ok (root, made) →
    service.deletePath tree groupFolder filePath = (.ok (), after) → Confined root tree after

/-- The path that is removed, below the workspace. -/
def relativeTarget (filePath : String) : PurePath :=
  .parse (normalizeCurrentPath (normalizeCurrentPath filePath))

/-- The path is not empty at first, and leads from the workspace back to it, through directories of
which none is inside. -/
structure RemovesRoot (tree : FileTree ν) (root : Directory) (filePath : String) : Prop where
  ne_empty : normalizeCurrentPath filePath ≠ ""
  noNull : '\x00' ∉ (normalizeCurrentPath (normalizeCurrentPath filePath)).toList
  leads : tree.walk root (relativeTarget filePath).names = some root
  outside : ∀ l, l <+: (relativeTarget filePath).names → ¬ root.Below (root.walk l)

/-! ### Normalised paths -/

theorem notMem_of_mem_splitOn {α : Type u} [DecidableEq α] {x : α} {xs l : List α}
    (h : l ∈ xs.splitOn x) : x ∉ l := by
  induction xs generalizing l with
  | nil =>
    obtain rfl := List.mem_singleton.mp h
    exact List.not_mem_nil
  | cons y ys ih =>
    rw [List.splitOn_cons_eq_if_modifyHead] at h
    split at h
    · rcases List.mem_cons.mp h with rfl | h
      · exact List.not_mem_nil
      · exact ih h
    · rename_i hne
      cases hsplit : ys.splitOn x with
      | nil => exact absurd hsplit (List.splitOn_ne_nil x ys)
      | cons first rest =>
        rw [hsplit] at h ih
        rcases List.mem_cons.mp h with rfl | h
        · rw [List.mem_cons, not_or]
          exact ⟨fun heq => hne (by simp [heq]), ih List.mem_cons_self⟩
        · exact ih (List.mem_cons_of_mem _ h)

/-- The names of a path as it is written. -/
theorem of_mem_parse {text : String} {name : Name} (h : name ∈ (PurePath.parse text).names) :
    '/' ∉ name ∧ name ≠ [] ∧ name ≠ ['.'] := by
  obtain ⟨hsplit, hname⟩ := List.mem_filter.mp h
  exact ⟨notMem_of_mem_splitOn hsplit, of_decide_eq_true hname⟩

/-- **Paths are written** so that they are read back. -/
theorem parse_asPosix {names : List Name}
    (h : ∀ name ∈ names, '/' ∉ name ∧ name ≠ [] ∧ name ≠ ['.']) :
    PurePath.parse (asPosix names) = { absolute := false, names := names } := by
  cases names with
  | nil => rfl
  | cons first rest =>
    have hnames : first :: rest ≠ [] := List.cons_ne_nil _ _
    have hsplit : (['/'].intercalate (first :: rest)).splitOn '/' = first :: rest :=
      List.splitOn_intercalate _ (fun name hname => (h name hname).1) hnames
    have hfilter : (first :: rest).filter (fun name => name ≠ [] ∧ name ≠ ['.']) = first :: rest :=
      List.filter_eq_self.mpr fun name hname => decide_eq_true (h name hname).2
    have hhead : ((['/'].intercalate (first :: rest)).head? == some '/') = false := by
      obtain ⟨hslash, hempty, -⟩ := h first List.mem_cons_self
      cases first with
      | nil => exact absurd rfl hempty
      | cons ch first =>
        have hch : ch ≠ '/' := fun heq => hslash (heq ▸ List.mem_cons_self)
        have hfirst : (['/'].intercalate ((ch :: first) :: rest)).head? = some ch := by
          cases rest <;> rfl
        rw [hfirst, beq_eq_false_iff_ne]
        exact fun heq => hch (Option.some.inj heq)
    unfold PurePath.parse asPosix
    rw [if_neg hnames, String.toList_ofList, hsplit, hfilter, hhead]

/-- **A normalised path** is relative. -/
theorem normalizeCurrentPath_relative (relativePath : String) :
    (PurePath.parse (normalizeCurrentPath relativePath)).absolute = false := by
  unfold normalizeCurrentPath
  simp only
  split
  · rfl
  · rw [parse_asPosix fun name hname => of_mem_parse hname]

/-! ### What is removed -/

theorem workspaceRoot_get? (h : service.workspaceRoot tree groupFolder = .ok (root, made)) :
    made.get? root = some .directory ∧
      ∀ dir entry, tree.get? dir = some entry → made.get? dir = some entry := by
  unfold WorkspaceFileService.workspaceRoot at h
  split at h
  · cases h
  · simp only at h
    split at h
    · cases h
    · split at h
      · cases h
      · rename_i hmade
        obtain ⟨rfl, rfl⟩ := Prod.mk.inj (Except.ok.inj h)
        exact FileTree.makeDirs_get? hmade

theorem workspaceRoot_ne_root (h : service.workspaceRoot tree groupFolder = .ok (root, made)) :
    root ≠ .root := by
  unfold WorkspaceFileService.workspaceRoot at h
  split at h
  · cases h
  · simp only at h
    split at h
    · cases h
    · rename_i hvalid
      split at h
      · cases h
      · obtain ⟨rfl, -⟩ := Prod.mk.inj (Except.ok.inj h)
        -- The directory lies inside the directory of the groups.
        intro heq
        rw [heq] at hvalid
        simp only [validatePath, List.any_cons, List.any_nil, Bool.or_false, not_not] at hvalid
        have hnames := List.prefix_nil.mp (List.isPrefixOf_iff_prefix.mp hvalid)
        rw [WorkspaceFileService.groupsRoot, Directory.names_enter (by decide)] at hnames
        exact absurd hnames (List.append_ne_nil_of_right_ne_nil _ (List.cons_ne_nil _ _))

theorem resolveCandidate_eq_ok {target : PurePath}
    (h : resolveCandidate root filePath = .ok target) :
    '\x00' ∉ (normalizeCurrentPath filePath).toList ∧
      target = root.toPath.join (.parse (normalizeCurrentPath filePath)) ∧
        root.Within target.resolve := by
  unfold resolveCandidate at h
  simp only at h
  split at h
  · cases h
  · rename_i hnull
    split at h
    · rename_i hvalid
      obtain rfl := Except.ok.inj h
      refine ⟨hnull, rfl, ?_⟩
      show root.names <+: _
      simpa [validatePath] using hvalid
    · split at h <;> cases h

/-- The initial parts of a path below a directory that lie inside the directory. -/
theorem forall_prefix_join_iff (root : Directory) {path : PurePath} (hpath : path.absolute = false) :
    (∀ l, l <+: (root.toPath.join path).names → ¬ root.Below (Directory.root.walk l)) ↔
      ∀ l, l <+: path.names → ¬ root.Below (root.walk l) := by
  have hnames : (root.toPath.join path).names = root.names ++ path.names := by
    unfold PurePath.join
    rw [hpath, if_neg Bool.false_ne_true]
    rfl
  have hwalk (l : List Name) : Directory.root.walk (root.names ++ l) = root.walk l := by
    rw [Directory.walk_append, Directory.root_walk]
  rw [hnames]
  constructor
  · intro hall l hl
    rw [← hwalk]
    exact hall _ ((List.prefix_append_right_inj _).mpr hl)
  · intro hall l hl
    rcases List.prefix_or_prefix_of_prefix hl (List.prefix_append root.names path.names) with
      hroot | ⟨rest, rfl⟩
    · -- The path has not come below the directory.
      intro hbelow
      have hmem : parentName ∉ l := fun hmem => root.parent_notMem (hroot.subset hmem)
      have hprefix : (Directory.root.walk l).Within root := by
        unfold Directory.Within
        rw [Directory.names_walk_of_notMem hmem]
        exact hroot
      exact hbelow.2 (hbelow.1.antisymm hprefix)
    · rw [hwalk]
      exact hall rest ((List.prefix_append_right_inj _).mp hl)

theorem eq_of_succeeds {removal : Bool × FileTree ν}
    (h : ((if removal.1 then .ok () else .error .os : Except WorkspaceFileError Unit), removal.2) =
      (.ok (), after)) : removal = (true, after) := by
  obtain ⟨removed, tree⟩ := removal
  obtain ⟨hresult, rfl⟩ := Prod.mk.inj h
  cases removed with
  | true => rfl
  | false => cases hresult

/-- **What a call removes** that succeeds is an entry of the workspace, or the workspace where the
path leads back to it. -/
theorem deletePath_ok (hroot : service.workspaceRoot tree groupFolder = .ok (root, made))
    (h : service.deletePath tree groupFolder filePath = (.ok (), after)) :
    ∃ dir, root.Within dir ∧ (dir = root → RemovesRoot made root filePath) ∧
      ∀ other, after.get? other = if dir.Within other then none else made.get? other := by
  have hrelative : (relativeTarget filePath).absolute = false := normalizeCurrentPath_relative _
  obtain ⟨hget, -⟩ := workspaceRoot_get? hroot
  have hisDir : made.isDir root = true := FileTree.isDir_iff.mpr hget
  have hexists := FileTree.isSome_of_isDir hisDir
  have hroot' : (made.get? Directory.root).isSome = true := by
    rw [made.root_directory]
    rfl
  unfold WorkspaceFileService.deletePath at h
  rw [hroot] at h
  simp only at h
  split at h
  · cases h
  · rename_i hempty
    cases hcandidate : resolveCandidate root (normalizeCurrentPath filePath) with
    | error error =>
      rw [hcandidate] at h
      cases h
    | ok target =>
      rw [hcandidate] at h
      simp only at h
      obtain ⟨hnull, htarget, hwithin⟩ := resolveCandidate_eq_ok hcandidate
      replace htarget : target = root.toPath.join (relativeTarget filePath) := htarget
      cases hfind : made.find target with
      | none =>
        rw [hfind] at h
        cases h
      | some found =>
        rw [hfind] at h
        simp only at h
        have hresolve : found = target.resolve := (FileTree.eq_walk_of_walk hfind hroot').1
        have hwalk : made.walk root (relativeTarget filePath).names = some found := by
          rw [← FileTree.find_join hexists hrelative, ← htarget, hfind]
        have hprefixes := forall_prefix_join_iff root hrelative
        rw [← htarget] at hprefixes
        rw [← hresolve] at hwithin
        cases hdir : made.isDir found with
        | true =>
          simp only [hdir, if_true] at h
          obtain ⟨dir, hdir', houtside, hafter⟩ := FileTree.removeTree_spec (eq_of_succeeds h)
          obtain rfl := Option.some.inj (hfind.symm.trans hdir')
          refine ⟨found, hwithin, fun heq => ?_, hafter⟩
          rw [heq] at hwalk houtside
          exact ⟨hempty, hnull, hwalk, hprefixes.mp houtside⟩
        | false =>
          simp only [hdir, Bool.false_eq_true, if_false] at h
          obtain ⟨dir, hdir', -, hafter⟩ := FileTree.unlink_spec (eq_of_succeeds h)
          obtain rfl := Option.some.inj (hfind.symm.trans hdir')
          refine ⟨found, hwithin, fun heq => ?_, hafter⟩
          rw [heq, hisDir] at hdir
          cases hdir

/-- **The workspace is removed** by the paths that lead back to it. -/
theorem RemovesRoot.deletePath (h : RemovesRoot made root filePath)
    (hroot : service.workspaceRoot tree groupFolder = .ok (root, made)) :
    ∃ after, service.deletePath tree groupFolder filePath = (.ok (), after) ∧
      after.get? root = none := by
  have hrelative : (relativeTarget filePath).absolute = false := normalizeCurrentPath_relative _
  obtain ⟨hget, -⟩ := workspaceRoot_get? hroot
  have hisDir : made.isDir root = true := FileTree.isDir_iff.mpr hget
  have hexists := FileTree.isSome_of_isDir hisDir
  have hfind : made.find (root.toPath.join (relativeTarget filePath)) = some root := by
    rw [FileTree.find_join hexists hrelative, h.leads]
  obtain ⟨removed, hremoved, hnone⟩ := FileTree.exists_removeTree hfind
    (workspaceRoot_ne_root hroot) ((forall_prefix_join_iff root hrelative).mpr h.outside)
  refine ⟨removed, ?_, hnone⟩
  have hvalid :
      validatePath (root.toPath.join (relativeTarget filePath)).resolve [root] = true := by
    have hroot' : (made.get? Directory.root).isSome = true := by
      rw [made.root_directory]
      rfl
    have hresolve : root = (root.toPath.join (relativeTarget filePath)).resolve :=
      (FileTree.eq_walk_of_walk hfind hroot').1
    rw [← hresolve]
    simp [validatePath]
  have hcandidate : resolveCandidate root (normalizeCurrentPath filePath) =
      .ok (root.toPath.join (relativeTarget filePath)) := by
    unfold resolveCandidate
    simp only
    rw [if_neg h.noNull]
    exact if_pos hvalid
  unfold WorkspaceFileService.deletePath
  simp only [hroot, if_neg h.ne_empty, hcandidate, hfind, hisDir, if_true, hremoved]

/-- **Confined removals.** A call removes nothing but what lies strictly inside the workspace, if
and only if its path does not lead back to the workspace. -/
theorem deletesInside_iff (service : WorkspaceFileService) (tree : FileTree ν)
    (groupFolder filePath : String) : DeletesInside service tree groupFolder filePath ↔
      ∀ root made, service.workspaceRoot tree groupFolder = .ok (root, made) →
        ¬ RemovesRoot made root filePath := by
  constructor
  · intro hinside root made hroot hremoves
    obtain ⟨after, hdelete, hnone⟩ := hremoves.deletePath hroot
    have hkept := (hinside root made after hroot hdelete).kept
    rw [hnone] at hkept
    cases hkept
  · intro hnot root made after hroot hdelete
    obtain ⟨dir, hwithin, hremoves, hafter⟩ := deletePath_ok hroot hdelete
    have hbelow : root.Below dir := ⟨hwithin, fun heq => hnot root made hroot (hremoves heq.symm)⟩
    obtain ⟨hget, hkept⟩ := workspaceRoot_get? hroot
    refine ⟨?_, fun other entry hentry houtside => ?_⟩
    · rw [hafter, if_neg, hget]
      exact fun hwithin' => hbelow.2 (hwithin.antisymm hwithin')
    · rw [hafter, if_neg, hkept other entry hentry]
      exact fun hwithin' => houtside (hbelow.trans_within hwithin')

/-! ### A workspace that is removed -/

def exampleFiles : WorkspaceFileService where
  dataRoot := Directory.root.enter "data".toList

def exampleRoot : Directory := exampleFiles.groupsRoot.enter "project-alpha".toList

/-- A workspace with one file. -/
def exampleTree : FileTree String where
  get? dir :=
    if dir.Within exampleRoot then some .directory
    else if dir = exampleRoot.enter "notes.txt".toList then some (.file "hello")
    else none
  root_directory := if_pos List.nil_prefix
  closed dir hdir := by
    split at hdir
    · rename_i hwithin
      exact if_pos (dir.parent_within.trans hwithin)
    · split at hdir
      · rename_i heq
        rw [heq]
        exact if_pos (by decide)
      · cases hdir

theorem exists_workspaceRoot :
    ∃ made, exampleFiles.workspaceRoot exampleTree "project-alpha" = .ok (exampleRoot, made) := by
  have hroot : ((exampleFiles.workspaceRoot exampleTree "project-alpha").toOption.map Prod.fst) =
      some exampleRoot := by decide +kernel
  cases h : exampleFiles.workspaceRoot exampleTree "project-alpha" with
  | error error =>
    rw [h] at hroot
    cases hroot
  | ok result =>
    rw [h] at hroot
    have hfst : result.1 = exampleRoot := Option.some.inj hroot
    rw [← hfst]
    exact ⟨result.2, rfl⟩

/-- **The workspace is removed** by a path that is empty when it is normalised twice, and by one
that leaves the workspace and comes back. -/
theorem exists_rootDeleted :
    (exampleFiles.deletePath exampleTree "project-alpha" "./.").1 = .ok () ∧
      ((exampleFiles.deletePath exampleTree "project-alpha" "./.").2.get? exampleRoot).isNone ∧
      (exampleFiles.deletePath exampleTree "project-alpha" "../project-alpha").1 = .ok () ∧
      ((exampleFiles.deletePath exampleTree "project-alpha" "../project-alpha").2.get?
        exampleRoot).isNone ∧
      ¬ DeletesInside exampleFiles exampleTree "project-alpha" "./." := by
  refine ⟨by decide +kernel, by decide +kernel, by decide +kernel, by decide +kernel, ?_⟩
  intro hinside
  obtain ⟨made, hroot⟩ := exists_workspaceRoot
  have hremoves : RemovesRoot made exampleRoot "./." := by
    refine ⟨by decide +kernel, by decide +kernel, rfl, fun l hl => ?_⟩
    have hnil : (relativeTarget "./.").names = [] := by decide +kernel
    rw [hnil] at hl
    rw [List.prefix_nil.mp hl]
    exact exampleRoot.not_below_self
  obtain ⟨after, hdelete, hnone⟩ := hremoves.deletePath hroot
  have hkept := (hinside exampleRoot made after hroot hdelete).kept
  rw [hnone] at hkept
  cases hkept

end Portex
