import Portex.Foundation.Segments
import Portex.Workspace.TextFiles

/-!
# Uploads to a workspace

An upload goes to a directory of the workspace, which is normalised, joined with the name of the
file as a text, and normalised again. The blanks at the ends of the joined text are lost: those at
the end of the name, those at its start where it is uploaded to the workspace itself, and those at
the start of the directory.

## Main definitions

* `WorkspaceFileService.saveUpload`: `save_upload`
* `WorkspaceFileService.listedDirectory`: the directory that `list_entries` lists
* `Placed`: the file has its name, in the directory that is listed
* `KeepsPlace`: nothing is lost that matters

## Main results

* `names_uploadPath`: where an upload goes
* `saveUpload_ok`: what an upload does that succeeds
* `uploadPlaced_iff`: the uploads that are placed
-/

namespace Portex

open Foundation

structure WorkspaceFileEntry where
  name : Name
  path : String
  type : String
  size : ℕ
  modifiedAt : ℕ
  deriving DecidableEq

/-- The check of `save_upload`: the name is the last name of the path that it is. -/
def isFileName (fileName : String) : Bool :=
  fileName ∉ ["", ".", ".."] &&
    (PurePath.parse fileName).names.getLast?.getD [] = fileName.toList

/-- `(_normalize_current_path(current_path) + "/" + file_name).strip("/")`. -/
def uploadPath (currentPath fileName : String) : String :=
  String.ofList (stripBy (· = '/')
    ((normalizeCurrentPath currentPath).toList ++ '/' :: fileName.toList))

/-- `target_file`. -/
def uploadTarget (root : Directory) (currentPath fileName : String) :
    Except WorkspaceFileError PurePath :=
  resolveCandidate root (uploadPath currentPath fileName)

namespace WorkspaceFileService

variable (service : WorkspaceFileService) (limits : WorkspaceFileLimits)

/-- The directory of a workspace, resolved. -/
def workspaceDirectory (groupFolder : String) : Directory :=
  (service.groupsRoot.toPath.join (.parse groupFolder)).resolve

def saveUpload (tree : FileTree (List UInt8)) (groupFolder currentPath fileName : String)
    (content : List UInt8) (now : ℕ) :
    Except WorkspaceFileError WorkspaceFileEntry × FileTree (List UInt8) :=
  if limits.maxUploadSizeBytes < content.length then
    (.error (.value "file exceeds upload size limit"), tree)
  else if isFileName fileName = false then (.error (.value "invalid file name"), tree)
  else
    match service.workspaceRoot tree groupFolder with
    | .error error => (.error error, tree)
    | .ok (root, tree) =>
      match resolveCandidate root currentPath with
      | .error error => (.error error, tree)
      | .ok targetDir =>
        match tree.makePath targetDir with
        | (false, tree) => (.error .os, tree)
        | (true, tree) =>
          -- "upload target is not a directory"
          if (tree.find targetDir).any tree.isDir = false then (.error .os, tree)
          else
            match uploadTarget root currentPath fileName with
            | .error error => (.error error, tree)
            | .ok target =>
              match tree.makePath { target with names := target.names.dropLast } with
              | (false, tree) => (.error .os, tree)
              | (true, tree) =>
                match tree.writeFile target content with
                | none => (.error .os, tree)
                | some after =>
                  (.ok
                    { name := target.names.getLast?.getD []
                      path := asPosix (target.names.drop root.names.length)
                      type := "file"
                      size := content.length
                      modifiedAt := now }, after)

/-- The directory that `list_entries` lists. -/
def listedDirectory (tree : FileTree (List UInt8)) (groupFolder currentPath : String) :
    Except WorkspaceFileError Directory :=
  match service.workspaceRoot tree groupFolder with
  | .error error => .error error
  | .ok (root, tree) =>
    match resolveCandidate root currentPath with
    | .error error => .error error
    | .ok target =>
      match tree.find target with
      | none => .error (.notFound "path not found")
      | some found => if tree.isDir found then .ok found else .error .os

end WorkspaceFileService

/-! ## Places -/

/-- Exactly one file is written: it has the name that was given, and lies in the directory that is
listed for the path that was given. -/
structure Placed (service : WorkspaceFileService) (tree after : FileTree (List UInt8))
    (groupFolder currentPath fileName : String) (content : List UInt8) (file : Directory) :
    Prop where
  written : after.get? file = some (.file content)
  others : ∀ dir, dir ≠ file → ∀ bytes,
    (after.get? dir = some (.file bytes) ↔ tree.get? dir = some (.file bytes))
  listed : service.listedDirectory after groupFolder currentPath = .ok file.parent
  name : file.names.getLast? = some fileName.toList

/-- The name does not end with a blank, it does not begin with one where it goes to the workspace
itself, and the path leads to the same directory without the blanks at its start. -/
structure KeepsPlace (root : Directory) (currentPath fileName : String) : Prop where
  nameEnd : fileName.toList.rdropWhile isSpace = fileName.toList
  nameStart : normalizeCurrentPath currentPath = "" →
    fileName.toList.dropWhile isSpace = fileName.toList
  directory : root.walk (segments ((normalizeCurrentPath currentPath).toList.dropWhile isSpace)) =
    root.walk (segments (normalizeCurrentPath currentPath).toList)

/-! ### Names of the joined path -/

variable {currentPath fileName : String}

/-- The names of a normalised path. -/
theorem names_normalizeCurrentPath (path : String) :
    (PurePath.parse (normalizeCurrentPath path)).names = segments (strip path.toList) := by
  have hstrip : segments (stripBy (· = '/') (strip path.toList)) = segments (strip path.toList) :=
    (segments_rdropWhile _).trans (segments_dropWhile _)
  unfold normalizeCurrentPath
  simp only
  split
  · rename_i hempty
    rw [← hstrip, segments_eq_nil_of hempty]
    rfl
  · rw [parse_asPosix fun name hname => of_mem_parse hname, segments_of_parse,
      String.toList_ofList, hstrip]

/-- A normalised path does not begin with a slash. -/
theorem head_normalizeCurrentPath (path : String) :
    ∀ ch ∈ (normalizeCurrentPath path).toList.head?, ch ≠ '/' := by
  intro ch hch hslash
  have habsolute := normalizeCurrentPath_relative path
  rw [Option.mem_def] at hch
  simp [PurePath.parse, hch, hslash] at habsolute

/-- A name that is accepted is a single one. -/
theorem isFileName_spec (h : isFileName fileName = true) :
    '/' ∉ fileName.toList ∧ fileName.toList ≠ [] ∧ fileName.toList ≠ ['.'] ∧
      fileName.toList ≠ parentName := by
  unfold isFileName at h
  rw [Bool.and_eq_true, decide_eq_true_eq, decide_eq_true_eq] at h
  obtain ⟨hnotIn, hlast⟩ := h
  have hparent : fileName.toList ≠ parentName := by
    intro heq
    apply hnotIn
    have hname : fileName = ".." := String.toList_inj.mp heq
    simp [hname]
  cases hnames : (PurePath.parse fileName).names.getLast? with
  | none =>
    rw [hnames] at hlast
    refine absurd ?_ hnotIn
    have hname : fileName = "" := String.toList_inj.mp hlast.symm
    simp [hname]
  | some name =>
    rw [hnames] at hlast
    obtain ⟨hslash, hempty, hdot⟩ := of_mem_parse (List.mem_of_getLast? hnames)
    rw [← show name = fileName.toList from hlast] at hparent ⊢
    exact ⟨hslash, hempty, hdot, hparent⟩

theorem strip_eq_rdropWhile (text : List Char) :
    strip text = (text.dropWhile isSpace).rdropWhile isSpace := rfl

theorem strip_eq_self_iff {text : List Char} :
    strip text = text ↔ text.dropWhile isSpace = text ∧ text.rdropWhile isSpace = text := by
  rw [strip_eq_rdropWhile]
  constructor
  · intro h
    have hend := List.rdropWhile_prefix isSpace (text.dropWhile isSpace)
    rw [h] at hend
    have hstart : text.dropWhile isSpace = text :=
      (List.dropWhile_suffix isSpace).eq_of_length_le hend.length_le
    rw [hstart] at h
    exact ⟨hstart, h⟩
  · rintro ⟨hstart, hend⟩
    rw [hstart, hend]

theorem last_ne_slash (h : '/' ∉ fileName.toList) :
    ∀ ch ∈ fileName.toList.getLast?, ch ≠ '/' := by
  rintro ch hch rfl
  exact h (List.mem_of_mem_getLast? hch)

/-- The names that follow the directory of the workspace in the path of the file: the joined path
loses the blanks at its ends, those of the name at both ends where it is the whole path, and else
those at the end of the name and at the start of the directory. -/
def uploadNames (currentPath fileName : String) : List Name :=
  if normalizeCurrentPath currentPath = "" then segments (strip fileName.toList)
  else segments ((normalizeCurrentPath currentPath).toList.dropWhile isSpace) ++
    segments (fileName.toList.rdropWhile isSpace)

/-- **Where an upload goes.** -/
theorem names_uploadPath (h : isFileName fileName = true) :
    (PurePath.parse (normalizeCurrentPath (uploadPath currentPath fileName))).names =
      uploadNames currentPath fileName := by
  obtain ⟨hslash, hempty, -, -⟩ := isFileName_spec h
  have hlast := last_ne_slash hslash
  rw [names_normalizeCurrentPath, uploadPath, uploadNames, String.toList_ofList]
  split
  · rename_i hroot
    -- The slash before the name is the start of the text.
    have hname : stripBy (· = '/') ('/' :: fileName.toList) = fileName.toList := by
      have hhead : ∀ ch ∈ fileName.toList.head?, decide (ch = '/') = false := fun ch hch =>
        decide_eq_false fun heq => hslash (heq ▸ List.mem_of_mem_head? hch)
      have hself := stripBy_eq_self hhead fun ch hch => decide_eq_false (hlast ch hch)
      exact hself
    rw [hroot]
    exact congrArg (fun text => segments (strip text)) hname
  · rename_i hroot
    have hself : stripBy (· = '/') ((normalizeCurrentPath currentPath).toList ++
        '/' :: fileName.toList) =
          (normalizeCurrentPath currentPath).toList ++ '/' :: fileName.toList := by
      apply stripBy_eq_self
      · intro ch hch
        cases hchars : (normalizeCurrentPath currentPath).toList with
        | nil => exact absurd (String.toList_inj.mp (hchars.trans rfl)) hroot
        | cons first rest =>
          rw [hchars] at hch
          have hfirst := head_normalizeCurrentPath currentPath first (by rw [hchars]; rfl)
          rw [← Option.some.inj hch]
          exact decide_eq_false hfirst
      · intro ch hch
        rw [List.getLast?_append_of_ne_nil _ (List.cons_ne_nil _ _),
          List.getLast?_cons_of_ne_nil hempty] at hch
        exact decide_eq_false (hlast ch hch)
    rw [hself, strip_eq_rdropWhile, dropWhile_append_cons_of_false (by decide),
      rdropWhile_append_of_mem List.mem_cons_self (by decide),
      rdropWhile_cons_of_false (by decide), segments_append_slash]

/-! ### Directories without their blanks -/

/-- A path from a deeper directory leads at least as deep. -/
theorem length_walk_le {dir dir' : Directory} (h : dir.names.length ≤ dir'.names.length)
    (names : List Name) : (dir.walk names).names.length ≤ (dir'.walk names).names.length := by
  induction names generalizing dir dir' with
  | nil => exact h
  | cons name names ih =>
    refine ih ?_
    by_cases hname : name = parentName
    · simp only [hname, Directory.enter, dif_pos, List.length_dropLast]
      omega
    · simp only [Directory.names_enter hname, List.length_append]
      omega

theorem length_enter_le (dir : Directory) (name : Name) :
    (dir.enter name).names.length ≤ dir.names.length + 1 := by
  unfold Directory.enter
  split
  · simp only [List.length_dropLast]
    omega
  · simp

/-- A text up to its first slash. -/
theorem segments_takeWhile (before text : List Char) : segments (before ++ text) =
    segments (before ++ text.takeWhile (· ≠ '/')) ++ segments (text.dropWhile (· ≠ '/')) := by
  have htext : text = text.takeWhile (· ≠ '/') ++ text.dropWhile (· ≠ '/') :=
    List.takeWhile_append_dropWhile.symm
  cases hrest : text.dropWhile (· ≠ '/') with
  | nil =>
    rw [hrest, List.append_nil] at htext
    rw [← htext, segments_nil, List.append_nil]
  | cons ch rest =>
    have hch : ch = '/' := by
      have hhead := head?_dropWhile (p := fun ch => decide (ch ≠ '/')) text ch (by rw [hrest]; rfl)
      simpa using hhead
    conv_lhs => rw [htext, hrest, hch, ← List.append_assoc, segments_append_slash]
    rw [hch, segments_cons_slash]

theorem length_walk_segments_le (root : Directory) {text : List Char} (h : '/' ∉ text) :
    (root.walk (segments text)).names.length ≤ root.names.length + 1 := by
  by_cases hnone : text = [] ∨ text = ['.']
  · rw [segments_eq_nil_of hnone]
    exact Nat.le_succ _
  · rw [not_or] at hnone
    rw [segments_of_notMem h hnone.1 hnone.2]
    exact length_enter_le root text

/-- Without the blanks at its start, a path does not lead deeper. -/
theorem length_walk_dropWhile_le (root : Directory) (text : List Char) :
    (root.walk (segments (text.dropWhile isSpace))).names.length ≤
      (root.walk (segments text)).names.length := by
  have htext : text.takeWhile isSpace ++ text.dropWhile isSpace = text :=
    List.takeWhile_append_dropWhile
  have hblanks : ∀ ch ∈ text.takeWhile isSpace, isSpace ch = true := fun ch hch =>
    List.mem_takeWhile_imp hch
  generalize text.takeWhile isSpace = blanks at htext hblanks
  generalize text.dropWhile isSpace = rest at htext ⊢
  subst htext
  cases blanks with
  | nil => exact Nat.le_refl _
  | cons blank blanks =>
    have hnot : ∀ ch, isSpace ch = false → ch ∉ blank :: blanks := by
      intro ch hch hmem
      rw [hblanks ch hmem] at hch
      cases hch
    have hstart : '/' ∉ rest.takeWhile (· ≠ '/') := fun hmem => by
      simpa using List.mem_takeWhile_imp hmem
    -- The first name keeps its place, and has a blank at its start.
    have hslash : '/' ∉ blank :: blanks ++ rest.takeWhile (· ≠ '/') := by
      rw [List.mem_append, not_or]
      exact ⟨hnot '/' (by decide), hstart⟩
    have hhead : ∀ name : Name, name.head? = some '.' →
        blank :: blanks ++ rest.takeWhile (· ≠ '/') ≠ name := by
      rintro name hname rfl
      exact hnot '.' (by decide) (Option.some.inj hname ▸ List.mem_cons_self)
    have hfirst : segments (blank :: blanks ++ rest.takeWhile (· ≠ '/')) =
        [blank :: blanks ++ rest.takeWhile (· ≠ '/')] :=
      segments_of_notMem hslash (List.cons_ne_nil _ _) (hhead _ rfl)
    have hrest := segments_takeWhile [] rest
    rw [List.nil_append, List.nil_append] at hrest
    rw [segments_takeWhile, hfirst, hrest, Directory.walk_append, Directory.walk_append]
    refine length_walk_le ((length_walk_segments_le root hstart).trans ?_) _
    show _ ≤ (root.enter _).names.length
    rw [Directory.names_enter (hhead _ rfl), List.length_append]
    exact Nat.le_refl _

/-! ## Uploads that succeed -/

variable {service : WorkspaceFileService} {limits : WorkspaceFileLimits}
  {tree made after : FileTree (List UInt8)} {groupFolder : String} {content : List UInt8}
  {now : ℕ} {entry : WorkspaceFileEntry}

theorem workspaceRoot_eq {root : Directory}
    (h : service.workspaceRoot tree groupFolder = .ok (root, made)) :
    root = service.workspaceDirectory groupFolder := by
  unfold WorkspaceFileService.workspaceRoot at h
  split at h
  · cases h
  · simp only at h
    split at h
    · cases h
    · split at h
      · cases h
      · exact (Prod.mk.inj (Except.ok.inj h)).1.symm

/-- The trees that an upload goes through. -/
structure Uploaded (service : WorkspaceFileService) (tree after : FileTree (List UInt8))
    (groupFolder currentPath fileName : String) (content : List UInt8)
    (root : Directory) (made ready : FileTree (List UInt8)) (targetDir target : PurePath) :
    Prop where
  named : isFileName fileName = true
  workspace : service.workspaceRoot tree groupFolder = .ok (root, made)
  dir : resolveCandidate root currentPath = .ok targetDir
  file : uploadTarget root currentPath fileName = .ok target
  kept : made.Extends ready
  found : ready.find targetDir = some targetDir.resolve
  isDir : ready.isDir targetDir.resolve = true
  write : ready.writeFile target content = some after

/-- **An upload that succeeds** has made its directories and written its file. -/
theorem saveUpload_ok (h : service.saveUpload limits tree groupFolder currentPath fileName content
    now = (.ok entry, after)) :
    ∃ root made ready targetDir target, Uploaded service tree after groupFolder currentPath
      fileName content root made ready targetDir target := by
  unfold WorkspaceFileService.saveUpload at h
  split at h
  · cases h
  · split at h
    · cases h
    · rename_i hname
      split at h
      · cases h
      · rename_i root made hroot
        split at h
        · cases h
        · rename_i targetDir hdir
          split at h
          · cases h
          · rename_i made₁ hmade₁
            split at h
            · cases h
            · split at h
              · cases h
              · rename_i target htarget
                split at h
                · cases h
                · rename_i ready hready
                  split at h
                  · cases h
                  · rename_i written hwritten
                    obtain rfl := (Prod.mk.inj h).2
                    -- The directory stays where it was found when more are made.
                    have hextends₁ : made.Extends made₁ := by
                      have hextends := made.makePath_extends targetDir
                      rwa [hmade₁] at hextends
                    have hextends : made₁.Extends ready := by
                      have hextends := made₁.makePath_extends
                        { target with names := target.names.dropLast }
                      rwa [hready] at hextends
                    obtain ⟨hfind, hisDir⟩ := FileTree.makePath_spec hmade₁
                    exact ⟨root, made, ready, targetDir, target, by simpa using hname, hroot, hdir,
                      htarget, hextends₁.trans hextends, hextends.walk hfind,
                      hextends.isDir hisDir, hwritten⟩

variable {root : Directory} {ready : FileTree (List UInt8)} {targetDir target : PurePath}

theorem resolve_of_candidate {path : String} (h : resolveCandidate root path = .ok target) :
    target.resolve = root.walk (PurePath.parse (normalizeCurrentPath path)).names := by
  obtain ⟨-, htarget, -⟩ := resolveCandidate_eq_ok h
  rw [htarget, resolve_join, normalizeCurrentPath_relative, if_neg Bool.false_ne_true]

theorem Uploaded.resolve_dir (h : Uploaded service tree after groupFolder currentPath fileName
    content root made ready targetDir target) :
    targetDir.resolve = root.walk (segments (normalizeCurrentPath currentPath).toList) := by
  rw [resolve_of_candidate h.dir, segments_of_parse]

theorem Uploaded.resolve (h : Uploaded service tree after groupFolder currentPath fileName content
    root made ready targetDir target) :
    target.resolve = root.walk (uploadNames currentPath fileName) := by
  rw [resolve_of_candidate h.file, names_uploadPath h.named]

/-- What is listed after an upload is the directory that was made for it. -/
theorem Uploaded.listedDirectory (h : Uploaded service tree after groupFolder currentPath fileName
    content root made ready targetDir target) :
    service.listedDirectory after groupFolder currentPath = .ok targetDir.resolve := by
  have hdirs : ∀ dir, ready.isDir dir = true → after.isDir dir = true := fun dir =>
    FileTree.isDir_writeFile h.write
  have hroot : after.isDir root = true :=
    hdirs _ (h.kept.isDir (FileTree.isDir_iff.mpr (workspaceRoot_get? h.workspace).1))
  have hisDir := hdirs _ h.isDir
  have hfind : after.find targetDir = some targetDir.resolve :=
    FileTree.walk_of_isDir hdirs h.found (FileTree.isSome_of_isDir hisDir)
  unfold WorkspaceFileService.listedDirectory
  simp only [workspaceRoot_again h.workspace hroot, h.dir, hfind, hisDir, if_true]

/-- An upload is placed just if its file has the name, in the directory that was made for it. -/
theorem Uploaded.placed_iff (h : Uploaded service tree after groupFolder currentPath fileName
    content root made ready targetDir target) :
    Placed service tree after groupFolder currentPath fileName content target.resolve ↔
      targetDir.resolve = target.resolve.parent ∧
        target.resolve.names.getLast? = some fileName.toList := by
  have hget := FileTree.writeFile_spec h.write
  have hextends : tree.Extends ready := (workspaceRoot_extends h.workspace).trans h.kept
  constructor
  · intro hplaced
    exact ⟨Except.ok.inj (h.listedDirectory.symm.trans hplaced.listed), hplaced.name⟩
  · rintro ⟨hparent, hname⟩
    refine ⟨by rw [hget, if_pos rfl], fun dir hne bytes => ?_, ?_, hname⟩
    · rw [hget, if_neg hne]
      exact hextends.file_iff
    · rw [h.listedDirectory, hparent]

/-- A file that is written has a last name, in the directory that the other names lead to. -/
theorem Uploaded.last (h : Uploaded service tree after groupFolder currentPath fileName content
    root made ready targetDir target) {before : List Name} {name : Name}
    (hnames : uploadNames currentPath fileName = before ++ [name]) :
    target.resolve.parent = root.walk before ∧ target.resolve.names.getLast? = some name := by
  obtain ⟨⟨last, hlast, hparent⟩, -, -⟩ := FileTree.writable_of_writeFile h.write
  obtain ⟨-, htarget, -⟩ := resolveCandidate_eq_ok h.file
  have htarget' : target.names = root.names ++ (before ++ [name]) := by
    rw [htarget, PurePath.join, normalizeCurrentPath_relative, if_neg Bool.false_ne_true, ← hnames,
      ← names_uploadPath h.named]
    rfl
  have hname : name ≠ parentName := by
    rw [htarget', ← List.append_assoc, List.getLast?_concat] at hlast
    rwa [Option.some.inj hlast]
  have hresolve : target.resolve = (root.walk before).enter name := by
    rw [h.resolve, hnames, Directory.walk_append]
    rfl
  rw [hresolve]
  refine ⟨FileTree.parent_enter hname _, ?_⟩
  rw [Directory.names_enter hname, List.getLast?_concat]

/-- The file is not the directory of the workspace. -/
theorem Uploaded.uploadNames_ne_nil (h : Uploaded service tree after groupFolder currentPath
    fileName content root made ready targetDir target) :
    uploadNames currentPath fileName ≠ [] := by
  intro hnil
  have hresolve : target.resolve = root := by
    rw [h.resolve, hnil]
    rfl
  have hnotDir := (FileTree.writable_of_writeFile h.write).notDir
  have hroot := h.kept.isDir (FileTree.isDir_iff.mpr (workspaceRoot_get? h.workspace).1)
  rw [hresolve, hroot] at hnotDir
  cases hnotDir

/-- An upload to the workspace itself. -/
theorem Uploaded.placed_iff_root (h : Uploaded service tree after groupFolder currentPath fileName
    content root made ready targetDir target) (hroot : normalizeCurrentPath currentPath = "") :
    Placed service tree after groupFolder currentPath fileName content target.resolve ↔
      KeepsPlace root currentPath fileName := by
  obtain ⟨hslash, -, -, -⟩ := isFileName_spec h.named
  have hdir : targetDir.resolve = root := by
    rw [h.resolve_dir, hroot]
    rfl
  -- The name is a single one, without the blanks at its ends.
  have hnames : uploadNames currentPath fileName = [] ++ [strip fileName.toList] := by
    have hstrip : '/' ∉ strip fileName.toList := fun hmem =>
      hslash ((List.dropWhile_suffix isSpace).subset
        ((List.rdropWhile_prefix isSpace _).subset hmem))
    have hne := h.uploadNames_ne_nil
    rw [uploadNames, if_pos hroot] at hne ⊢
    refine segments_of_notMem hstrip (fun hempty => hne ?_) fun hdot => hne ?_
    · rw [hempty, segments_nil]
    · rw [hdot, segments_dot]
  obtain ⟨hparent, hlast⟩ := h.last hnames
  rw [h.placed_iff, hdir, hparent, hlast, Option.some.injEq]
  constructor
  · rintro ⟨-, hname⟩
    obtain ⟨hstart, hend⟩ := strip_eq_self_iff.mp hname
    refine ⟨hend, fun _ => hstart, ?_⟩
    rw [hroot]
    rfl
  · intro hkeeps
    exact ⟨rfl, strip_eq_self_iff.mpr ⟨hkeeps.nameStart hroot, hkeeps.nameEnd⟩⟩

/-- An upload to a directory below it. -/
theorem Uploaded.placed_iff_below (h : Uploaded service tree after groupFolder currentPath fileName
    content root made ready targetDir target) (hroot : normalizeCurrentPath currentPath ≠ "") :
    Placed service tree after groupFolder currentPath fileName content target.resolve ↔
      KeepsPlace root currentPath fileName := by
  obtain ⟨hslash, hempty, hdot, -⟩ := isFileName_spec h.named
  have hdir := h.resolve_dir
  rw [h.placed_iff]
  by_cases hblank : fileName.toList.rdropWhile isSpace = [] ∨
      fileName.toList.rdropWhile isSpace = ['.']
  · -- Nothing is left of the name, and the path that is left leads no deeper.
    have htarget : target.resolve =
        root.walk (segments ((normalizeCurrentPath currentPath).toList.dropWhile isSpace)) := by
      rw [h.resolve, uploadNames, if_neg hroot, segments_eq_nil_of hblank, List.append_nil]
    constructor
    · rintro ⟨hparent, hlast⟩
      have hle := length_walk_dropWhile_le root (normalizeCurrentPath currentPath).toList
      rw [← hdir, ← htarget, hparent, Directory.names_parent, List.length_dropLast] at hle
      have hpos : 0 < target.resolve.names.length :=
        List.length_pos_of_mem (List.mem_of_getLast? hlast)
      omega
    · intro hkeeps
      rw [hkeeps.nameEnd] at hblank
      rcases hblank with heq | heq
      · exact absurd heq hempty
      · exact absurd heq hdot
  · rw [not_or] at hblank
    have hstrip : '/' ∉ fileName.toList.rdropWhile isSpace := fun hmem =>
      hslash ((List.rdropWhile_prefix isSpace _).subset hmem)
    have hnames : uploadNames currentPath fileName =
        segments ((normalizeCurrentPath currentPath).toList.dropWhile isSpace) ++
          [fileName.toList.rdropWhile isSpace] := by
      rw [uploadNames, if_neg hroot, segments_of_notMem hstrip hblank.1 hblank.2]
    obtain ⟨hparent, hlast⟩ := h.last hnames
    rw [hdir, hparent, hlast, Option.some.injEq]
    constructor
    · rintro ⟨hsame, hname⟩
      exact ⟨hname, fun hnil => absurd hnil hroot, hsame.symm⟩
    · intro hkeeps
      exact ⟨hkeeps.directory.symm, hkeeps.nameEnd⟩

/-- An upload that succeeds is placed just if nothing is lost that matters. -/
theorem Uploaded.placed_iff_keepsPlace (h : Uploaded service tree after groupFolder currentPath
    fileName content root made ready targetDir target) :
    Placed service tree after groupFolder currentPath fileName content target.resolve ↔
      KeepsPlace root currentPath fileName := by
  by_cases hroot : normalizeCurrentPath currentPath = ""
  · exact h.placed_iff_root hroot
  · exact h.placed_iff_below hroot

/-- The file that an upload writes is the only one, has the name that was given, and lies in the
directory that is listed. -/
def UploadPlaced (service : WorkspaceFileService) (tree after : FileTree (List UInt8))
    (groupFolder currentPath fileName : String) (content : List UInt8) : Prop :=
  ∃ target, uploadTarget (service.workspaceDirectory groupFolder) currentPath fileName =
      .ok target ∧
    Placed service tree after groupFolder currentPath fileName content target.resolve

/-- **Uploads that are placed** are those that lose no blank that matters. -/
theorem uploadPlaced_iff (h : service.saveUpload limits tree groupFolder currentPath fileName
    content now = (.ok entry, after)) :
    UploadPlaced service tree after groupFolder currentPath fileName content ↔
      KeepsPlace (service.workspaceDirectory groupFolder) currentPath fileName := by
  obtain ⟨root, made, ready, targetDir, target, huploaded⟩ := saveUpload_ok h
  have hplaced := huploaded.placed_iff_keepsPlace
  have htarget := huploaded.file
  rw [workspaceRoot_eq huploaded.workspace] at hplaced htarget
  rw [← hplaced]
  constructor
  · rintro ⟨target', htarget', hplaced'⟩
    rw [htarget] at htarget'
    rwa [Except.ok.inj htarget']
  · intro hplaced'
    exact ⟨target, htarget, hplaced'⟩

theorem uploadPlaced_iff_docs :
    UploadPlaced exampleFiles notesTree (exampleFiles.saveUpload {} notesTree "project-alpha"
      " docs/./new" "a b.txt" [0x61] 7).2 "project-alpha" " docs/./new" "a b.txt" [0x61] := by
  have hupload : (exampleFiles.saveUpload {} notesTree "project-alpha" " docs/./new" "a b.txt"
      [0x61] 7).1 =
        .ok { name := "a b.txt".toList, path := "docs/new/a b.txt", type := "file", size := 1,
              modifiedAt := 7 } := by
    decide +kernel
  have hpath : normalizeCurrentPath " docs/./new" = "docs/new" := by decide +kernel
  refine (uploadPlaced_iff (eq_ok_of_fst hupload)).mpr ⟨by decide, ?_, ?_⟩
  · rw [hpath]
    intro hroot
    exact absurd hroot (by decide)
  · rw [hpath]
    rfl

/-- The statement that every upload is placed. -/
def AllPlaced : Prop :=
  ∀ service limits tree after groupFolder currentPath fileName content now entry,
    WorkspaceFileService.saveUpload service limits tree groupFolder currentPath fileName content
      now = (.ok entry, after) →
        UploadPlaced service tree after groupFolder currentPath fileName content

/-- A file with a blank at the end of its name gets another name. -/
theorem not_allPlaced : ¬ AllPlaced := by
  intro h
  have hupload : (exampleFiles.saveUpload {} notesTree "project-alpha" "" "a " [0x61] 7).1 =
      .ok { name := "a".toList, path := "a", type := "file", size := 1, modifiedAt := 7 } := by
    decide +kernel
  have htarget : (uploadTarget (exampleFiles.workspaceDirectory "project-alpha") ""
      "a ").toOption.map PurePath.resolve = some (exampleRoot.enter "a".toList) := by
    decide +kernel
  obtain ⟨target, hok, hplaced⟩ := h exampleFiles {} notesTree _ "project-alpha" "" "a " [0x61] 7
    _ (eq_ok_of_fst hupload)
  rw [hok] at htarget
  have hname := hplaced.name
  rw [Option.some.inj htarget] at hname
  exact absurd hname (by decide)

end Portex
