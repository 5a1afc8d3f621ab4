import Portex.Foundation.Path
import Portex.Registry.Access

/-!
# The directories of a run

A run in the mode `host` works in a directory under `<data_root>/groups`, and the runtime keeps
its session database in a directory under `<session_data_root>`. Both are the group folder, joined
to the base directory, resolved, and checked against the base directory. Nothing relates the
directories of two folders. That there are no symbolic links below the base directories is an
assumption of the model: `resolve` then only drops the dots of a path.

## Main definitions

* `ProcessExecutor.resolveGroupDir`, `OpenAIAgentsRuntime.sessionDbPath`: the two directories
* `place`: where a folder leads from a base directory
* `Apart`: two directories are different, and neither lies inside the other

## Main results

* `dirsApart_iff_placesApart`: the pairs of folders whose directories are apart
* `exists_nested_folders`: two folders of runs one of which lies inside the other
* `dirsApart_of_plain`: folders without slashes and dots
-/

namespace Portex

open Foundation

inductive DirectoryError
  /-- The `ValueError` of `resolve` on a null byte. -/
  | nullByte
  /-- `ProcessExecutionError`, `OpenAIRuntimeSessionError`. -/
  | escapes (detail : String)
  /-- The `OSError` of `mkdir`. -/
  | os
  deriving DecidableEq

/-- The file system as one call finds it. -/
structure FileSystem where
  /-- `path.mkdir(parents=True, exist_ok=True)` succeeds. -/
  makesDirectory : List Name → Bool

/-- `validate_path`, on paths that are resolved. -/
def validatePath (path : Directory) (allowedRoots : List Directory) : Bool :=
  allowedRoots.any fun root => root.names.isPrefixOf path.names

/-- The directory of a folder, resolved, validated and created. -/
def containedDirectory (base : Directory) (allowedRoots : List Directory)
    (detail : Directory → String) (fs : FileSystem) (groupFolder : String) :
    Except DirectoryError Directory :=
  if '\x00' ∈ groupFolder.toList then .error .nullByte
  else
    let groupDir := (base.toPath.join (.parse groupFolder)).resolve
    if ¬ validatePath groupDir allowedRoots then .error (.escapes (detail groupDir))
    else if ¬ fs.makesDirectory groupDir.names then .error .os
    else .ok groupDir

structure ProcessExecutor where
  dataRoot : Directory
  allowedDirectories : List Directory

/-- `data_root / "groups"`. -/
def ProcessExecutor.groupsRoot (executor : ProcessExecutor) : Directory :=
  executor.dataRoot.enter "groups".toList

def ProcessExecutor.resolveGroupDir (executor : ProcessExecutor) (fs : FileSystem)
    (groupFolder : String) : Except DirectoryError Directory :=
  containedDirectory executor.groupsRoot executor.allowedDirectories
    (fun groupDir => "Group directory '" ++ groupDir.text ++ "' is outside allowed host directories")
    fs groupFolder

structure OpenAIAgentsRuntime where
  sessionDataRoot : Directory

/-- The directory of `_session_db_path`; the database is the file `agents-sdk.sqlite3` in it. -/
def OpenAIAgentsRuntime.sessionDbPath (runtime : OpenAIAgentsRuntime) (fs : FileSystem)
    (groupFolder : String) : Except DirectoryError Directory :=
  containedDirectory runtime.sessionDataRoot [runtime.sessionDataRoot]
    (fun _ => "session path for group '" ++ groupFolder ++ "' escapes the configured root")
    fs groupFolder

/-! ## The places of folders -/

/-- Where a folder leads from a base directory, read off its names: the names that no later `..`
takes back, below the base directory as far as the folder does not climb above it. -/
def place (base : Directory) (groupFolder : String) : List Name :=
  let path := PurePath.parse groupFolder
  let start := if path.absolute then [] else base.names
  start.take (start.length - (survivors path.names).1) ++ (survivors path.names).2

/-- Two directories are different, and neither lies inside the other. -/
def Apart (names names' : List Name) : Prop := ¬ names <+: names' ∧ ¬ names' <+: names

instance (names names' : List Name) : Decidable (Apart names names') :=
  inferInstanceAs (Decidable (_ ∧ _))

/-- A call for the folder succeeds: the folder has no null byte, it leads below an allowed root,
and the directory can be made. -/
def Accessible (base : Directory) (allowedRoots : List Directory) (fs : FileSystem)
    (groupFolder : String) : Prop :=
  '\x00' ∉ groupFolder.toList ∧ (∃ root ∈ allowedRoots, root.names <+: place base groupFolder) ∧
    fs.makesDirectory (place base groupFolder) = true

theorem resolve_names (base : Directory) (groupFolder : String) :
    (base.toPath.join (.parse groupFolder)).resolve.names = place base groupFolder := by
  rw [resolve_join, names_walk, place]
  split <;> rfl

/-- A call that succeeds gives the place of its folder. -/
theorem containedDirectory_eq_ok {base groupDir : Directory} {allowedRoots : List Directory}
    {detail : Directory → String} {fs : FileSystem} {groupFolder : String} :
    containedDirectory base allowedRoots detail fs groupFolder = .ok groupDir ↔
      Accessible base allowedRoots fs groupFolder ∧ groupDir.names = place base groupFolder := by
  have hvalid : validatePath (base.toPath.join (.parse groupFolder)).resolve allowedRoots = true ↔
      ∃ root ∈ allowedRoots, root.names <+: place base groupFolder := by
    simp [validatePath, resolve_names]
  unfold containedDirectory Accessible
  rw [← hvalid, ← resolve_names]
  split
  · rename_i hnull
    simp [hnull]
  · rename_i hnull
    simp only [hnull, not_false_eq_true, true_and]
    split
    · rename_i hescapes
      simp [hescapes]
    · rename_i hinside
      simp only [not_not] at hinside
      simp only [hinside, true_and]
      split
      · rename_i hmkdir
        simp [hmkdir]
      · rename_i hmkdir
        simp only [not_not] at hmkdir
        simp only [hmkdir, true_and, Except.ok.injEq, eq_comm, Directory.ext_iff]

/-- The directories of two calls that succeed are apart just if the places of the folders are. -/
theorem containedDirectory_apart_iff {base : Directory} {allowedRoots : List Directory}
    {detail detail' : Directory → String} {fs fs' : FileSystem} {folder folder' : String} :
    (∀ dir dir', containedDirectory base allowedRoots detail fs folder = .ok dir →
        containedDirectory base allowedRoots detail' fs' folder' = .ok dir' →
          Apart dir.names dir'.names) ↔
      (Accessible base allowedRoots fs folder → Accessible base allowedRoots fs' folder' →
        Apart (place base folder) (place base folder')) := by
  simp only [containedDirectory_eq_ok]
  constructor
  · intro h haccessible haccessible'
    have hapart := h _ _ ⟨haccessible, resolve_names base folder⟩
      ⟨haccessible', resolve_names base folder'⟩
    rwa [resolve_names, resolve_names] at hapart
  · rintro h dir dir' ⟨haccessible, hdir⟩ ⟨haccessible', hdir'⟩
    rw [hdir, hdir']
    exact h haccessible haccessible'

/-! ## Pairs of folders -/

/-- The directories that the executor chooses for two folders are apart, and so are those of the
session databases. -/
def DirsApart (executor : ProcessExecutor) (runtime : OpenAIAgentsRuntime) (fs fs' : FileSystem)
    (folder folder' : String) : Prop :=
  (∀ dir dir', executor.resolveGroupDir fs folder = .ok dir →
      executor.resolveGroupDir fs' folder' = .ok dir' → Apart dir.names dir'.names) ∧
    ∀ dir dir', runtime.sessionDbPath fs folder = .ok dir →
      runtime.sessionDbPath fs' folder' = .ok dir' → Apart dir.names dir'.names

/-- The folders lead to places that are apart, wherever both calls can succeed. -/
def PlacesApart (executor : ProcessExecutor) (runtime : OpenAIAgentsRuntime) (fs fs' : FileSystem)
    (folder folder' : String) : Prop :=
  (Accessible executor.groupsRoot executor.allowedDirectories fs folder →
      Accessible executor.groupsRoot executor.allowedDirectories fs' folder' →
        Apart (place executor.groupsRoot folder) (place executor.groupsRoot folder')) ∧
    (Accessible runtime.sessionDataRoot [runtime.sessionDataRoot] fs folder →
      Accessible runtime.sessionDataRoot [runtime.sessionDataRoot] fs' folder' →
        Apart (place runtime.sessionDataRoot folder) (place runtime.sessionDataRoot folder'))

/-- **The directories of two folders** are apart if and only if the places are that the folders
lead to. -/
theorem dirsApart_iff_placesApart (executor : ProcessExecutor) (runtime : OpenAIAgentsRuntime)
    (fs fs' : FileSystem) (folder folder' : String) :
    DirsApart executor runtime fs fs' folder folder' ↔
      PlacesApart executor runtime fs fs' folder folder' :=
  and_congr containedDirectory_apart_iff containedDirectory_apart_iff

/-- One name that is neither `.` nor `..`. -/
structure Plain (groupFolder : String) : Prop where
  noSlash : '/' ∉ groupFolder.toList
  ne_empty : groupFolder ≠ ""
  ne_dot : groupFolder ≠ "."
  ne_parent : groupFolder ≠ ".."

theorem place_of_plain {groupFolder : String} (h : Plain groupFolder) (base : Directory) :
    place base groupFolder = base.names ++ [groupFolder.toList] := by
  have hparent : groupFolder.toList ≠ parentName := fun heq =>
    h.ne_parent (String.toList_inj.mp heq)
  rw [place, PurePath.parse_of_notMem h.noSlash h.ne_empty h.ne_dot]
  simp [survivors_singleton hparent]

/-- **Plain folders** have directories that are apart. -/
theorem dirsApart_of_plain {folder folder' : String} (h : Plain folder) (h' : Plain folder')
    (hne : folder ≠ folder') (executor : ProcessExecutor) (runtime : OpenAIAgentsRuntime)
    (fs fs' : FileSystem) : DirsApart executor runtime fs fs' folder folder' := by
  have hdistinct : ∀ (names : List Name) {text text' : String}, text ≠ text' →
      ¬ names ++ [text.toList] <+: names ++ [text'.toList] := by
    intro names text text' htext hpre
    rw [List.prefix_append_right_inj, List.cons_prefix_cons] at hpre
    exact htext (String.toList_inj.mp hpre.1)
  have hapart : ∀ base, Apart (place base folder) (place base folder') := by
    intro base
    rw [place_of_plain h, place_of_plain h']
    exact ⟨hdistinct _ hne, hdistinct _ (Ne.symm hne)⟩
  exact ⟨containedDirectory_apart_iff.mpr fun _ _ => hapart _,
    containedDirectory_apart_iff.mpr fun _ _ => hapart _⟩

theorem isSlug_of_validateWorkspaceFolder {folder : String}
    (h : Registry.validateWorkspaceFolder folder = .ok ()) : isSlug folder = true := by
  unfold Registry.validateWorkspaceFolder at h
  split at h
  · cases h
  · split at h
    · cases h
    · rename_i hslug
      simpa using hslug

/-- A slug is a character of `[a-z0-9]`, and then more of them and hyphens. -/
theorem isSlug_iff {folder : String} : isSlug folder = true ↔ ∃ ch rest,
    folder.toList = ch :: rest ∧ isSlugChar ch = true ∧
      ∀ ch' ∈ rest, isSlugChar ch' = true ∨ ch' = '-' := by
  unfold isSlug
  split
  · rename_i hnil
    simp [hnil]
  · rename_i ch rest hcons
    simp [hcons]

/-- The folders that a workspace can be created with are plain. -/
theorem plain_of_validateWorkspaceFolder {folder : String}
    (h : Registry.validateWorkspaceFolder folder = .ok ()) : Plain folder := by
  obtain ⟨ch, rest, hcons, hch, hrest⟩ := isSlug_iff.mp (isSlug_of_validateWorkspaceFolder h)
  have hfirst : ∀ text : String, text.toList.head? ≠ some ch → folder ≠ text := by
    rintro text hhead rfl
    exact hhead (by rw [hcons]; rfl)
  have hdot : ch ≠ '.' := by
    rintro rfl
    exact absurd hch (by decide)
  refine ⟨?_, hfirst "" (by simp), hfirst "." ?_, hfirst ".." ?_⟩
  · rw [hcons, List.mem_cons, not_or]
    constructor
    · rintro rfl
      exact absurd hch (by decide)
    · intro hmem
      exact absurd (hrest '/' hmem) (by decide)
  · exact fun heq => hdot (Option.some.inj heq).symm
  · exact fun heq => hdot (Option.some.inj heq).symm

/-! ## Two folders of runs -/

def serverExecutor : ProcessExecutor where
  dataRoot := ⟨["data".toList], by decide⟩
  allowedDirectories := [⟨["data".toList, "groups".toList], by decide⟩]

def serverRuntime : OpenAIAgentsRuntime where
  sessionDataRoot := ⟨["data".toList, "sessions".toList], by decide⟩

/-- The folder of the run that a message of a stranger submits on an empty registry. -/
def submittedFolder (groupId : String) : Option String :=
  (({} : Registry).sendMessage Registry.stranger (Registry.messageTo groupId) "run").1.toOption.map
    ExecutionRequest.groupFolder

/-- **Nested folders.** Messages submit runs in the folders `a` and `a/b`, and the directory of the
second lies inside that of the first. -/
theorem exists_nested_folders : ∃ fs, submittedFolder "a" = some "a" ∧
    submittedFolder "a/b" = some "a/b" ∧
      ¬ DirsApart serverExecutor serverRuntime fs fs "a" "a/b" := by
  refine ⟨⟨fun _ => true⟩, by decide, by decide, fun h => ?_⟩
  have hapart := h.1 ⟨["data".toList, "groups".toList, "a".toList], by decide⟩
    ⟨["data".toList, "groups".toList, "a".toList, "b".toList], by decide⟩ rfl rfl
  exact absurd hapart (by decide)

end Portex
