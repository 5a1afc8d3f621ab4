import Portex.Foundation.FileWrites
import Portex.Foundation.TextFile
import Portex.Workspace.Files
import Mathlib.Data.List.TakeWhile

/-!
# Text files of a workspace

A text is written to a file beside its target, whose name is the name of the target with `.tmp`
at its end, and this file then replaces the target. It is read in text mode, where carriage returns
become new lines.

## Main definitions

* `WorkspaceFileService.resolveExistingFile`: the file of a path
* `WorkspaceFileService.readTextContent`, `writeTextContent`: the two operations
* `TextRoundTrips`: a text is read as it was written
* `KeepsOthers`: a call keeps all files but its target

## Main results

* `writeTextContent_ok`: what a call does that succeeds
* `textRoundTrips_iff`: the texts that are read as they were written
* `keepsOthers_iff`: the calls that keep all other files
-/

namespace Portex

open Foundation

/-- The limits that a service is configured with. -/
structure WorkspaceFileLimits where
  maxUploadSizeBytes : ℕ := 50 * 1024 * 1024
  maxTextFileSizeBytes : ℕ := 1 * 1024 * 1024

inductive TextFileError
  | file (error : WorkspaceFileError)
  | isADirectory (detail : String)
  /-- The `ValueError` of bytes that are no text. -/
  | unicodeDecode
  deriving DecidableEq

/-- `TEXT_FILE_EXTENSIONS`. -/
def textFileExtensions : List Name :=
  [".txt", ".md", ".py", ".json", ".toml", ".yaml", ".yml", ".js", ".ts", ".tsx", ".jsx", ".css",
    ".html", ".sh"].map String.toList

/-- `bytes.decode("utf-8")`. -/
def decodeStrict (bytes : List UInt8) : Option (List Char) :=
  if encodeUtf8 (decodeUtf8 bytes) = bytes then some (decodeUtf8 bytes) else none

structure WorkspaceTextFile where
  path : String
  content : List Char
  size : ℕ
  deriving DecidableEq

/-- A file of a workspace: the path that was asked for, and where it was found. -/
structure ExistingFile where
  root : Directory
  target : PurePath
  found : Directory
  bytes : List UInt8

namespace ExistingFile

variable (file : ExistingFile)

/-- `target.name`. -/
def name : Name := file.target.names.getLast?.getD []

/-- `target.suffix.lower() in TEXT_FILE_EXTENSIONS`; no other character is lowered to a letter of
these. -/
def isText : Bool := textFileExtensions.contains ((suffix file.name).map Char.toLower)

/-- `target.relative_to(workspace_root).as_posix()`. -/
def relativePath : String := asPosix (file.target.names.drop file.root.names.length)

/-- `target.with_suffix(target.suffix + ".tmp")`. -/
def temp : PurePath :=
  let stem := file.name.take (file.name.length - (suffix file.name).length)
  { file.target with
    names := file.target.names.dropLast ++ [stem ++ (suffix file.name ++ ".tmp".toList)] }

end ExistingFile

namespace WorkspaceFileService

variable (service : WorkspaceFileService) (limits : WorkspaceFileLimits)

/-- `_resolve_existing_file`, and the tree in which the directory of the workspace was made. -/
def resolveExistingFile (tree : FileTree (List UInt8)) (groupFolder filePath : String) :
    Except TextFileError ExistingFile × FileTree (List UInt8) :=
  match service.workspaceRoot tree groupFolder with
  | .error error => (.error (.file error), tree)
  | .ok (root, tree) =>
    match resolveCandidate root filePath with
    | .error error => (.error (.file error), tree)
    | .ok target =>
      match tree.find target with
      | none => (.error (.file (.notFound "file not found")), tree)
      | some found =>
        match tree.get? found with
        | some (.file bytes) => (.ok { root, target, found, bytes }, tree)
        | _ => (.error (.isADirectory "path is a directory"), tree)

def readTextContent (tree : FileTree (List UInt8)) (groupFolder filePath : String) :
    Except TextFileError WorkspaceTextFile × FileTree (List UInt8) :=
  match service.resolveExistingFile tree groupFolder filePath with
  | (.error error, tree) => (.error error, tree)
  | (.ok file, tree) =>
    if file.isText = false then
      (.error (.file (.value "file type not supported for text content")), tree)
    else if limits.maxTextFileSizeBytes < file.bytes.length then
      (.error (.file (.value "text file exceeds size limit")), tree)
    else
      match decodeStrict file.bytes with
      | none => (.error .unicodeDecode, tree)
      | some text =>
        (.ok
          { path := file.relativePath
            content := universalNewlines text
            size := file.bytes.length }, tree)

def writeTextContent (tree : FileTree (List UInt8)) (groupFolder filePath : String)
    (content : List Char) : Except TextFileError WorkspaceTextFile × FileTree (List UInt8) :=
  match service.resolveExistingFile tree groupFolder filePath with
  | (.error error, tree) => (.error error, tree)
  | (.ok file, tree) =>
    if file.isText = false then
      (.error (.file (.value "file type not supported for text content")), tree)
    else
      let encoded := encodeUtf8 content
      if limits.maxTextFileSizeBytes < encoded.length then
        (.error (.file (.value "text content exceeds size limit")), tree)
      else
        match tree.writeFile file.temp encoded with
        | none => (.error (.file .os), tree)
        | some written =>
          match written.moveFile file.temp file.target with
          | none => (.error (.file .os), written)
          | some after =>
            (.ok { path := file.relativePath, content, size := encoded.length }, after)

end WorkspaceFileService

/-! ## The file of a path -/

variable {service : WorkspaceFileService} {limits : WorkspaceFileLimits}
  {tree made after : FileTree (List UInt8)} {groupFolder filePath : String}
  {file : ExistingFile} {written : WorkspaceTextFile} {content : List Char}

/-- The file has been found where its path leads, in the directory of a workspace. -/
structure ExistingFile.Found (service : WorkspaceFileService) (tree made : FileTree (List UInt8))
    (groupFolder filePath : String) (file : ExistingFile) : Prop where
  root : service.workspaceRoot tree groupFolder = .ok (file.root, made)
  candidate : resolveCandidate file.root filePath = .ok file.target
  find : made.find file.target = some file.found
  get : made.get? file.found = some (.file file.bytes)

theorem resolveExistingFile_eq_ok :
    service.resolveExistingFile tree groupFolder filePath = (.ok file, made) ↔
      file.Found service tree made groupFolder filePath := by
  constructor
  · intro h
    unfold WorkspaceFileService.resolveExistingFile at h
    split at h
    · cases h
    · rename_i root made' hroot
      split at h
      · cases h
      · rename_i target hcandidate
        split at h
        · cases h
        · rename_i found hfind
          split at h
          · rename_i bytes hget
            obtain ⟨hfile, rfl⟩ := Prod.mk.inj h
            obtain rfl := Except.ok.inj hfile
            exact ⟨hroot, hcandidate, hfind, hget⟩
          · cases h
  · rintro ⟨hroot, hcandidate, hfind, hget⟩
    simp only [WorkspaceFileService.resolveExistingFile, hroot, hcandidate, hfind, hget]

/-! ### The file beside it -/

theorem suffix_isSuffix (name : Name) : suffix name <:+ name := by
  unfold suffix
  simp only
  split
  · rename_i h
    -- Read from its end, the name has its last period behind the ending.
    have hsplit := List.takeWhile_append_dropWhile (p := fun ch => decide (ch ≠ '.'))
      (l := name.reverse)
    cases hrest : name.reverse.dropWhile fun ch => decide (ch ≠ '.') with
    | nil =>
      have hall := List.dropWhile_eq_nil_iff.mp hrest '.' (List.mem_reverse.mpr h.1)
      simp at hall
    | cons ch rest =>
      have hch : ch = '.' := by
        have hhead := head?_dropWhile (p := fun ch => decide (ch ≠ '.')) name.reverse ch
          (by rw [hrest]; rfl)
        simpa using hhead
      refine ⟨rest.reverse, ?_⟩
      rw [hrest, hch] at hsplit
      have hname := congrArg List.reverse hsplit
      rwa [List.reverse_append, List.reverse_cons, List.reverse_reverse, List.append_assoc,
        List.singleton_append] at hname
  · exact List.nil_suffix

theorem ExistingFile.temp_eq (file : ExistingFile) : file.temp =
    { file.target with names := file.target.names.dropLast ++ [file.name ++ ".tmp".toList] } := by
  have hstem : file.name.take (file.name.length - (suffix file.name).length) ++
      suffix file.name = file.name := by
    obtain ⟨stem, hname⟩ := suffix_isSuffix file.name
    have htake : file.name.take (file.name.length - (suffix file.name).length) = stem := by
      have hlength : file.name.length - (suffix file.name).length = stem.length := by
        rw [← congrArg List.length hname, List.length_append, Nat.add_sub_cancel]
      rw [hlength]
      exact (congrArg (List.take stem.length) hname.symm).trans List.take_left
    rw [htake, hname]
  unfold ExistingFile.temp
  simp only
  rw [← List.append_assoc, hstem]

/-- The name of a text file. -/
theorem ExistingFile.name_of_isText (h : file.isText = true) :
    file.target.names.getLast? = some file.name ∧ file.name ≠ parentName := by
  have hsuffix : ∀ name, textFileExtensions.contains ((suffix name).map Char.toLower) = true →
      name ≠ [] ∧ name ≠ parentName := by
    intro name hmem
    constructor
    · rintro rfl
      exact absurd hmem (by decide)
    · rintro rfl
      exact absurd hmem (by decide)
  obtain ⟨hne, hparent⟩ := hsuffix file.name h
  refine ⟨?_, hparent⟩
  unfold ExistingFile.name at hne ⊢
  cases hlast : file.target.names.getLast? with
  | none =>
    rw [hlast] at hne
    exact absurd rfl hne
  | some name => rfl

theorem ExistingFile.Found.not_isDir (h : file.Found service tree made groupFolder filePath) :
    made.isDir file.found = false := by
  rw [FileTree.isDir, h.get]
  rfl

/-- A text file can be written, and so can the file beside it unless that is a directory. -/
structure ExistingFile.Beside (made : FileTree (List UInt8)) (file : ExistingFile) : Prop where
  found : file.found = file.target.resolve
  ne : file.found ≠ file.temp.resolve
  target : made.Writable file.target
  temp : made.isDir file.temp.resolve = false → made.Writable file.temp

theorem ExistingFile.Found.beside (h : file.Found service tree made groupFolder filePath)
    (htext : file.isText = true) : file.Beside made := by
  obtain ⟨hlast, hparent⟩ := file.name_of_isText htext
  obtain ⟨dir, hfind, hdir, hfound⟩ := FileTree.find_dropLast h.find hlast
  have hresolve := FileTree.resolve_of_find hlast hfind
  have hlast' : file.temp.names.getLast? = some (file.name ++ ".tmp".toList) := by
    rw [file.temp_eq]
    simp
  have hfind' : made.find { file.temp with names := file.temp.names.dropLast } = some dir := by
    rw [file.temp_eq]
    simpa using hfind
  have hname : file.name ++ ".tmp".toList ≠ parentName := by
    intro heq
    have hlength := congrArg List.length heq
    simp [parentName] at hlength
  refine ⟨hfound.trans hresolve.symm, ?_,
    ⟨⟨_, hlast, hparent⟩, ⟨dir, hfind, hdir⟩, hfound.trans hresolve.symm ▸ h.not_isDir⟩,
    fun hnotDir => ⟨⟨_, hlast', hname⟩, ⟨dir, hfind', hdir⟩, hnotDir⟩⟩
  rw [hfound, FileTree.resolve_of_find hlast' hfind']
  -- One of the two names is longer.
  intro heq
  have hnames := congrArg Directory.names heq
  rw [Directory.names_enter hparent, Directory.names_enter hname] at hnames
  have hlength := congrArg List.length (List.cons.inj (List.append_cancel_left hnames)).1
  simp at hlength

/-! ## Writing -/

/-- The text is written: the file beside the target is gone, and the target has the text. -/
structure Replaced (made after : FileTree (List UInt8)) (file : ExistingFile)
    (content : List Char) : Prop where
  notDir : made.isDir file.temp.resolve = false
  temp : after.get? file.temp.resolve = none
  target : after.get? file.found = some (.file (encodeUtf8 content))
  others : ∀ dir, dir ≠ file.temp.resolve → dir ≠ file.found → after.get? dir = made.get? dir

/-- **What a call does** for a text file and a text that is not too long. -/
theorem writeTextContent_of_found (h : file.Found service tree made groupFolder filePath)
    (htext : file.isText = true) (hsize : sizeOf8 content ≤ limits.maxTextFileSizeBytes) :
    (made.isDir file.temp.resolve = true ∧
      service.writeTextContent limits tree groupFolder filePath content =
        (.error (.file .os), made)) ∨
    ∃ after, service.writeTextContent limits tree groupFolder filePath content =
      (.ok { path := file.relativePath, content, size := sizeOf8 content }, after) ∧
        Replaced made after file content := by
  obtain ⟨hresolve, hne, htarget, hwritable⟩ := h.beside htext
  have hcall : service.writeTextContent limits tree groupFolder filePath content =
      match made.writeFile file.temp (encodeUtf8 content) with
      | none => (.error (.file .os), made)
      | some written =>
        match written.moveFile file.temp file.target with
        | none => (.error (.file .os), written)
        | some after =>
          (.ok { path := file.relativePath, content, size := sizeOf8 content }, after) := by
    have hnotLong : ¬ limits.maxTextFileSizeBytes < (encodeUtf8 content).length :=
      Nat.not_lt.mpr hsize
    unfold WorkspaceFileService.writeTextContent
    rw [resolveExistingFile_eq_ok.mpr h]
    simp only [htext, hnotLong, if_false, Bool.true_eq_false]
    rfl
  rw [hcall]
  cases hdir : made.isDir file.temp.resolve with
  | true =>
    left
    cases hwrite : made.writeFile file.temp (encodeUtf8 content) with
    | none => exact ⟨rfl, rfl⟩
    | some written =>
      have hnotDir := (FileTree.writable_of_writeFile hwrite).notDir
      rw [hdir] at hnotDir
      cases hnotDir
  | false =>
    right
    obtain ⟨written, hwrite⟩ := FileTree.exists_writeFile (hwritable hdir) (encodeUtf8 content)
    have hget := FileTree.writeFile_spec hwrite
    -- The file beside the target is found again, and the target can be replaced.
    have hfind := FileTree.find_writeFile hwrite
    have hmoved : written.get? file.temp.resolve = some (.file (encodeUtf8 content)) := by
      rw [hget, if_pos rfl]
    obtain ⟨after, hafter⟩ := FileTree.exists_moveFile hfind hmoved (htarget.writeFile hwrite)
    obtain ⟨bytes, hbytes, hspec⟩ := FileTree.moveFile_spec hafter hfind
      (by rw [← hresolve]; exact hne.symm)
    obtain rfl : bytes = encodeUtf8 content := by
      rw [hmoved] at hbytes
      injection hbytes with hbytes
      injection hbytes with hbytes
      exact hbytes.symm
    rw [← hresolve] at hspec
    refine ⟨after, by simp only [hwrite, hafter], hdir, ?_, ?_, fun dir htemp hfound => ?_⟩
    · rw [hspec, if_pos rfl]
    · rw [hspec, if_neg hne, if_pos rfl]
    · rw [hspec, if_neg htemp, if_neg hfound, hget, if_neg htemp]

/-- The calls that come to write something. -/
structure Accepted (service : WorkspaceFileService) (limits : WorkspaceFileLimits)
    (tree made : FileTree (List UInt8)) (groupFolder filePath : String) (content : List Char)
    (file : ExistingFile) : Prop where
  found : file.Found service tree made groupFolder filePath
  isText : file.isText = true
  size : sizeOf8 content ≤ limits.maxTextFileSizeBytes

/-- **A call that succeeds** has been accepted, and replaces its target. -/
theorem writeTextContent_ok
    (h : service.writeTextContent limits tree groupFolder filePath content = (.ok written, after)) :
    ∃ file made, Accepted service limits tree made groupFolder filePath content file ∧
      Replaced made after file content := by
  have hcall := h
  unfold WorkspaceFileService.writeTextContent at hcall
  split at hcall
  · cases hcall
  · rename_i file made hexisting
    have hfound := resolveExistingFile_eq_ok.mp hexisting
    split at hcall
    · cases hcall
    · rename_i htext
      simp only at hcall
      split at hcall
      · cases hcall
      · rename_i hsize
        replace htext : file.isText = true := by simpa using htext
        replace hsize : sizeOf8 content ≤ limits.maxTextFileSizeBytes := Nat.not_lt.mp hsize
        refine ⟨file, made, ⟨hfound, htext, hsize⟩, ?_⟩
        rcases writeTextContent_of_found hfound htext hsize with
          ⟨-, hresult⟩ | ⟨after', hresult, hreplaced⟩
        · rw [h] at hresult
          cases hresult
        · rw [h] at hresult
          rw [(Prod.mk.inj hresult).2]
          exact hreplaced

theorem workspaceRoot_extends {root : Directory}
    (h : service.workspaceRoot tree groupFolder = .ok (root, made)) : tree.Extends made := by
  unfold WorkspaceFileService.workspaceRoot at h
  split at h
  · cases h
  · simp only at h
    split at h
    · cases h
    · split at h
      · cases h
      · rename_i hmade
        obtain ⟨rfl, rfl⟩ := Prod.mk.inj (Except.ok.inj h)
        exact FileTree.makeDirs_extends hmade

/-- The directory of the workspace is there, so that it is not made again. -/
theorem workspaceRoot_again {root : Directory}
    (h : service.workspaceRoot tree groupFolder = .ok (root, made))
    (hdir : after.isDir root = true) :
    service.workspaceRoot after groupFolder = .ok (root, after) := by
  unfold WorkspaceFileService.workspaceRoot at h ⊢
  split at h
  · cases h
  · rename_i hnull
    simp only at h
    split at h
    · cases h
    · rename_i hvalid
      split at h
      · cases h
      · obtain ⟨rfl, -⟩ := Prod.mk.inj (Except.ok.inj h)
        rw [if_neg hnull]
        simp only [if_neg hvalid, FileTree.makeDirs_of_isDir hdir]

theorem resolveExistingFile_extends (service : WorkspaceFileService)
    (tree : FileTree (List UInt8)) (groupFolder filePath : String) :
    tree.Extends (service.resolveExistingFile tree groupFolder filePath).2 := by
  unfold WorkspaceFileService.resolveExistingFile
  split
  · exact .refl tree
  · rename_i root made hroot
    have hextends := workspaceRoot_extends hroot
    split
    · exact hextends
    · split
      · exact hextends
      · split
        · exact hextends
        · exact hextends

/-- **A call that is not accepted** changes no file. -/
theorem writeTextContent_rejected
    (h : ¬ ∃ file made, Accepted service limits tree made groupFolder filePath content file) :
    tree.Extends (service.writeTextContent limits tree groupFolder filePath content).2 := by
  have hextends := resolveExistingFile_extends service tree groupFolder filePath
  unfold WorkspaceFileService.writeTextContent
  split
  · rename_i error made hexisting
    rwa [hexisting] at hextends
  · rename_i file made hexisting
    rw [hexisting] at hextends
    split
    · exact hextends
    · rename_i htext
      simp only
      split
      · exact hextends
      · rename_i hsize
        exact absurd ⟨file, made, resolveExistingFile_eq_ok.mp hexisting, by simpa using htext,
          Nat.not_lt.mp hsize⟩ h

/-! ## Reading what was written -/

theorem decodeStrict_encodeUtf8 (content : List Char) :
    decodeStrict (encodeUtf8 content) = some content := by
  unfold decodeStrict
  rw [decodeUtf8_encodeUtf8, if_pos rfl]

/-- What is read of a file that has the bytes of a text. -/
theorem readTextContent_of_found (h : file.Found service tree made groupFolder filePath)
    (htext : file.isText = true) (hbytes : file.bytes = encodeUtf8 content)
    (hsize : sizeOf8 content ≤ limits.maxTextFileSizeBytes) :
    service.readTextContent limits tree groupFolder filePath =
      (.ok
        { path := file.relativePath
          content := universalNewlines content
          size := sizeOf8 content }, made) := by
  have hnotLong : ¬ limits.maxTextFileSizeBytes < (encodeUtf8 content).length :=
    Nat.not_lt.mpr hsize
  unfold WorkspaceFileService.readTextContent
  rw [resolveExistingFile_eq_ok.mpr h]
  simp only [htext, hbytes, hnotLong, decodeStrict_encodeUtf8, if_false, Bool.true_eq_false]
  rfl

/-- The target is found again, and has the text. -/
theorem Replaced.found (h : Replaced made after file content)
    (hfound : file.Found service tree made groupFolder filePath) :
    ExistingFile.Found service after after groupFolder filePath
      { file with bytes := encodeUtf8 content } := by
  have hdirs : ∀ dir, made.isDir dir = true → after.isDir dir = true := by
    intro dir hdir
    have hnotTemp : dir ≠ file.temp.resolve := by
      rintro rfl
      rw [h.notDir] at hdir
      cases hdir
    have hnotFound : dir ≠ file.found := by
      rintro rfl
      rw [hfound.not_isDir] at hdir
      cases hdir
    rwa [FileTree.isDir, h.others dir hnotTemp hnotFound]
  have hroot : made.isDir file.root = true :=
    FileTree.isDir_iff.mpr (workspaceRoot_get? hfound.root).1
  exact ⟨workspaceRoot_again hfound.root (hdirs _ hroot), hfound.candidate,
    FileTree.walk_of_isDir hdirs hfound.find (by rw [h.target]; rfl), h.target⟩

/-- A text is read as it was written, with the size of its UTF-8 form. -/
def TextRoundTrips (service : WorkspaceFileService) (limits : WorkspaceFileLimits)
    (after : FileTree (List UInt8)) (groupFolder filePath : String) (content : List Char) : Prop :=
  ∃ file, (service.readTextContent limits after groupFolder filePath).1 = .ok file ∧
    file.content = content ∧ file.size = sizeOf8 content

/-- **Texts that are read as they were written** are those without carriage returns. -/
theorem textRoundTrips_iff
    (h : service.writeTextContent limits tree groupFolder filePath content = (.ok written, after)) :
    TextRoundTrips service limits after groupFolder filePath content ↔ '\r' ∉ content := by
  obtain ⟨file, made, haccepted, hreplaced⟩ := writeTextContent_ok h
  have hread := readTextContent_of_found (hreplaced.found haccepted.found) haccepted.isText rfl
    haccepted.size
  rw [← universalNewlines_eq_self]
  constructor
  · rintro ⟨read, hok, hcontent, -⟩
    rw [hread] at hok
    rw [← Except.ok.inj hok] at hcontent
    exact hcontent
  · intro hcontent
    exact ⟨_, by rw [hread], hcontent, rfl⟩

/-! ## The other files -/

/-- All files are as before but the target of a call that is accepted. -/
def KeepsOthers (service : WorkspaceFileService) (limits : WorkspaceFileLimits)
    (tree : FileTree (List UInt8)) (groupFolder filePath : String) (content : List Char) : Prop :=
  ∀ dir, (∀ file made, Accepted service limits tree made groupFolder filePath content file →
      dir ≠ file.found) → ∀ bytes,
    ((service.writeTextContent limits tree groupFolder filePath content).2.get? dir =
      some (.file bytes) ↔ tree.get? dir = some (.file bytes))

theorem Accepted.unique {made' : FileTree (List UInt8)} {file' : ExistingFile}
    (h : Accepted service limits tree made groupFolder filePath content file)
    (h' : Accepted service limits tree made' groupFolder filePath content file') :
    file = file' ∧ made = made' := by
  have heq := (resolveExistingFile_eq_ok.mpr h.found).symm.trans
    (resolveExistingFile_eq_ok.mpr h'.found)
  exact ⟨Except.ok.inj (Prod.mk.inj heq).1, (Prod.mk.inj heq).2⟩

/-- **The calls that keep all other files** are those that are not accepted, and those beside whose
target there is no file with the name of the target and `.tmp`. -/
theorem keepsOthers_iff (service : WorkspaceFileService) (limits : WorkspaceFileLimits)
    (tree : FileTree (List UInt8)) (groupFolder filePath : String) (content : List Char) :
    KeepsOthers service limits tree groupFolder filePath content ↔
      ∀ file made, Accepted service limits tree made groupFolder filePath content file →
        ∀ bytes, tree.get? file.temp.resolve ≠ some (.file bytes) := by
  by_cases haccepted : ∃ file made, Accepted service limits tree made groupFolder filePath content
    file
  · obtain ⟨file, made, haccepted⟩ := haccepted
    have hextends : tree.Extends made := workspaceRoot_extends haccepted.found.root
    have hbeside := haccepted.found.beside haccepted.isText
    have hother : ∀ dir, (∀ file made, Accepted service limits tree made groupFolder filePath
        content file → dir ≠ file.found) ↔ dir ≠ file.found := by
      intro dir
      constructor
      · exact fun hall => hall file made haccepted
      · intro hne file' made' haccepted'
        rw [← (haccepted.unique haccepted').1]
        exact hne
    unfold KeepsOthers
    simp only [hother]
    rcases writeTextContent_of_found haccepted.found haccepted.isText haccepted.size with
      ⟨htemp, hresult⟩ | ⟨after, hresult, hreplaced⟩
    · -- A directory has the name, and nothing is written.
      rw [hresult]
      refine iff_of_true (fun dir _ bytes => hextends.file_iff) ?_
      intro file' made' haccepted' bytes hfile
      rw [← (haccepted.unique haccepted').1] at hfile
      rw [FileTree.isDir, hextends.kept _ _ hfile] at htemp
      cases htemp
    · rw [hresult]
      constructor
      · intro hkeeps file' made' haccepted' bytes hfile
        rw [← (haccepted.unique haccepted').1] at hfile
        have hkept := (hkeeps _ hbeside.ne.symm bytes).mpr hfile
        rw [hreplaced.temp] at hkept
        cases hkept
      · intro hnone dir hdir bytes
        by_cases htemp : dir = file.temp.resolve
        · rw [htemp, hreplaced.temp]
          exact iff_of_false (fun h => by cases h) (hnone file made haccepted bytes)
        · rw [hreplaced.others dir htemp hdir]
          exact hextends.file_iff
  · refine iff_of_true (fun dir _ bytes => ?_) fun file made haccepted' =>
      absurd ⟨file, made, haccepted'⟩ haccepted
    exact (writeTextContent_rejected haccepted).file_iff

/-! ### Texts that change, and a file that is lost -/

/-- A workspace with files in its directory. -/
def workspaceTree (files : List (Name × List UInt8)) : FileTree (List UInt8) where
  get? dir :=
    if dir.Within exampleRoot then some .directory
    else if dir.parent = exampleRoot then
      (files.lookup (dir.names.getLast?.getD [])).map Entry.file
    else none
  root_directory := if_pos List.nil_prefix
  closed dir hdir := by
    split at hdir
    · rename_i hwithin
      exact if_pos (dir.parent_within.trans hwithin)
    · split at hdir
      · rename_i hparent
        rw [hparent]
        exact if_pos exampleRoot.within_refl
      · cases hdir

/-- The statement that every text is read as it was written. -/
def AllRoundTrip : Prop :=
  ∀ service limits tree groupFolder filePath content written after,
    service.writeTextContent limits tree groupFolder filePath content = (.ok written, after) →
      TextRoundTrips service limits after groupFolder filePath content

/-- The statement that every call keeps all other files. -/
def AllKeepOthers : Prop :=
  ∀ service limits tree groupFolder filePath content,
    KeepsOthers service limits tree groupFolder filePath content

/-- A workspace with the file `notes.txt`. -/
def notesTree : FileTree (List UInt8) :=
  workspaceTree [("notes.txt".toList, encodeUtf8 "before".toList)]

/-- And with a file `notes.txt.tmp` beside it. -/
def draftTree : FileTree (List UInt8) :=
  workspaceTree [("notes.txt".toList, encodeUtf8 "before".toList),
    ("notes.txt.tmp".toList, encodeUtf8 "draft".toList)]

theorem eq_ok_of_fst {ε α σ : Type} {result : Except ε α × σ} {value : α}
    (h : result.1 = .ok value) : result = (.ok value, result.2) := by
  rw [← h]

theorem textRoundTrips_iff_after :
    TextRoundTrips exampleFiles {} (exampleFiles.writeTextContent {} notesTree "project-alpha"
      "notes.txt" "é\n".toList).2 "project-alpha" "notes.txt" "é\n".toList := by
  have hwrite : (exampleFiles.writeTextContent {} notesTree "project-alpha" "notes.txt"
      "é\n".toList).1 = .ok { path := "notes.txt", content := "é\n".toList, size := 3 } := by
    decide +kernel
  exact (textRoundTrips_iff (eq_ok_of_fst hwrite)).mpr (by decide)

/-- A line ending of another system is lost. -/
theorem not_allRoundTrip : ¬ AllRoundTrip := by
  intro h
  have hwrite : (exampleFiles.writeTextContent {} notesTree "project-alpha" "notes.txt"
      "a\r\nb".toList).1 = .ok { path := "notes.txt", content := "a\r\nb".toList, size := 4 } := by
    decide +kernel
  have hread : (exampleFiles.readTextContent {} (exampleFiles.writeTextContent {} notesTree
      "project-alpha" "notes.txt" "a\r\nb".toList).2 "project-alpha" "notes.txt").1 =
        .ok { path := "notes.txt", content := "a\nb".toList, size := 4 } := by
    decide +kernel
  obtain ⟨file, hfile, hcontent, -⟩ := h exampleFiles {} notesTree "project-alpha" "notes.txt"
    "a\r\nb".toList _ _ (eq_ok_of_fst hwrite)
  rw [hread] at hfile
  rw [← Except.ok.inj hfile] at hcontent
  exact absurd hcontent (by decide)

/-- The file `notes.txt.tmp` is lost when `notes.txt` is written. -/
theorem not_allKeepOthers : ¬ AllKeepOthers := by
  intro h
  have hdraft : draftTree.get? (exampleRoot.enter "notes.txt.tmp".toList) =
      some (.file (encodeUtf8 "draft".toList)) := by rfl
  have hlost : ((exampleFiles.writeTextContent {} draftTree "project-alpha" "notes.txt"
      "after".toList).2.get? (exampleRoot.enter "notes.txt.tmp".toList)).isNone = true := by
    decide +kernel
  have hfound : (exampleFiles.resolveExistingFile draftTree "project-alpha"
      "notes.txt").1.toOption.map ExistingFile.found =
        some (exampleRoot.enter "notes.txt".toList) := by
    decide +kernel
  have hother : ∀ file made, Accepted exampleFiles {} draftTree made "project-alpha" "notes.txt"
      "after".toList file → exampleRoot.enter "notes.txt.tmp".toList ≠ file.found := by
    intro file made haccepted
    rw [resolveExistingFile_eq_ok.mpr haccepted.found] at hfound
    rw [Option.some.inj hfound]
    decide
  have hkept := (h exampleFiles {} draftTree "project-alpha" "notes.txt" "after".toList _ hother
    _).mpr hdraft
  rw [hkept] at hlost
  cases hlost

end Portex
