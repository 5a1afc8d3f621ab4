import Portex.Exec.Directories
import Mathlib.Data.List.Infix

/-!
# The memory service

Users have a memory file `<data_dir>/memory/user-global/<user_id>/AGENTS.md`, and groups have
markdown files below `<data_dir>/memory/<group_folder>`. The files of a group are listed, searched,
read and written through the service, and a container gets their directory as a volume.

There are no symbolic links, so a path that is resolved is a `Directory`, whatever it names.

## Main definitions

* `Disk`: the files and directories
* `MemoryService`: the data directory, the day and the limit on sizes
* `listGroupMemoryFiles`, `searchMemory`, `getGroupMemoryFile`, `updateGroupMemoryFile`,
  `appendDailyMemory`: the operations on the memory of a group
* `buildVolumes`: the volumes of a container
-/

namespace Portex

open Foundation

inductive MemoryError
  /-- The `ValueError` of a path with a null byte. -/
  | nullByte
  | value (detail : String)
  | isADirectory
  | os
  deriving DecidableEq

/-! ## The disk -/

structure Disk extends FileSystem where
  /-- The regular files, and their text. -/
  files : List (List Name × String) := []
  directories : List (List Name) := []

namespace Disk

def read? (disk : Disk) (names : List Name) : Option String := disk.files.lookup names

def isDir (disk : Disk) (names : List Name) : Bool := names ∈ disk.directories

/-- `path.exists()`. -/
def has (disk : Disk) (names : List Name) : Bool :=
  disk.isDir names || (disk.read? names).isSome

/-- `path.mkdir(parents=True, exist_ok=True)`. -/
def mkdir (disk : Disk) (names : List Name) : Except MemoryError Disk :=
  if disk.makesDirectory names then
    .ok { disk with directories := names.inits ++ disk.directories }
  else .error .os

/-- `path.write_text(content)`. -/
def write (disk : Disk) (names : List Name) (content : String) : Disk :=
  { disk with files := (names, content) :: disk.files.filter fun file => file.1 ≠ names }

/-- `path.open("a")` and `handle.write(content)`. -/
def append (disk : Disk) (names : List Name) (content : String) : Disk :=
  disk.write names ((disk.read? names).getD "" ++ content)

end Disk

/-! ## Paths -/

/-- `path.suffix`. -/
def suffix (name : Name) : Name :=
  let ending := (name.reverse.takeWhile (· ≠ '.')).reverse
  if '.' ∈ name ∧ ending ≠ [] ∧ ending.length + 1 < name.length then '.' :: ending else []

/-- `path.as_posix()` of a relative path. -/
def asPosix (names : List Name) : String :=
  String.ofList (if names = [] then ['.'] else ['/'].intercalate names)

/-- A day, as `date.isoformat` writes it. -/
structure Day where
  year : ℕ
  month : ℕ
  day : ℕ

def digits (width n : ℕ) : List Char :=
  ((List.range width).map fun i => Nat.digitChar (n / Nat.pow 10 i % 10)).reverse

def Day.isoformat (day : Day) : Name :=
  digits 4 day.year ++ ['-'] ++ digits 2 day.month ++ ['-'] ++ digits 2 day.day

/-! ## The service -/

structure MemoryService where
  dataDir : Directory
  today : Day
  maxGroupMemoryFileSizeBytes : ℕ := 1 * 1024 * 1024

structure GroupMemoryFileEntry where
  path : String
  name : Name
  size : ℕ
  deriving DecidableEq

structure GroupMemoryFileContent where
  path : String
  content : String
  size : ℕ
  deriving DecidableEq

namespace MemoryService

variable (service : MemoryService)

def memoryRoot : Directory := service.dataDir.enter "memory".toList

/-- `_get_user_memory_path`, resolved. -/
def userMemoryPath (userId : String) : Directory :=
  (((service.memoryRoot.enter "user-global".toList).toPath.join (.parse userId)).join
    { absolute := false, names := ["AGENTS.md".toList] }).resolve

def getGroupMemoryDir (groupFolder : String) : Except MemoryError Directory :=
  if '\x00' ∈ groupFolder.toList then .error .nullByte
  else
    let candidate := (service.memoryRoot.toPath.join (.parse groupFolder)).resolve
    if validatePath candidate [service.memoryRoot] then .ok candidate
    else .error (.value "invalid group memory root")

/-- `_get_daily_memory_path`. -/
def getDailyMemoryPath (groupFolder : String) : Except MemoryError Directory :=
  (service.getGroupMemoryDir groupFolder).map fun dir =>
    dir.enter (service.today.isoformat ++ ".md".toList)

/-- `_normalize_group_memory_relative_path`: the names of the path. -/
def normalizeGroupMemoryRelativePath (relativePath : String) : Except MemoryError (List Name) :=
  let normalized := stripBy (· = '/') (strip relativePath.toList)
  if normalized = [] ∨ normalized = ['.'] then .error (.value "memory file path is required")
  else
    let names := (PurePath.parse (String.ofList normalized)).names
    if (suffix (names.getLast?.getD [])).map Char.toLower ≠ ".md".toList then
      .error (.value "only markdown memory files are supported")
    else .ok names

/-- `_resolve_group_memory_file`: the path is resolved, and given with its names below the
directory of the group. -/
def resolveGroupMemoryFile (groupFolder relativePath : String) :
    Except MemoryError (Directory × List Name) := do
  let memoryDir ← service.getGroupMemoryDir groupFolder
  let names ← normalizeGroupMemoryRelativePath relativePath
  if '\x00' ∈ relativePath.toList then .error .nullByte
  else
    let candidate := memoryDir.walk names
    if validatePath candidate [memoryDir] then .ok (candidate, names)
    else if parentName ∈ (PurePath.parse relativePath).names then
      .error (.value "path traversal detected")
    else .error (.value "symlink traversal detected")

/-- The files of `sorted(memory_dir.rglob("*.md"))`. -/
def groupMemoryFiles (disk : Disk) (memoryDir : Directory) : List (List Name × String) :=
  (disk.files.filter fun file => memoryDir.names.isPrefixOf file.1 && file.1 ≠ memoryDir.names &&
    ".md".toList.isSuffixOf (file.1.getLast?.getD [])).mergeSort fun file file' =>
      file.1 ≤ file'.1

def listGroupMemoryFiles (disk : Disk) (groupFolder : String) :
    Except MemoryError (List GroupMemoryFileEntry) := do
  let memoryDir ← service.getGroupMemoryDir groupFolder
  if disk.has memoryDir.names then
    .ok ((groupMemoryFiles disk memoryDir).map fun file =>
      { path := asPosix (file.1.drop memoryDir.names.length)
        name := file.1.getLast?.getD []
        size := file.2.utf8ByteSize })
  else .ok []

/-- `search_memory`: the paths of the files that hold the query, in any case. What `str.lower` makes
of a text is a parameter. -/
def searchMemory (lower : List Char → List Char) (disk : Disk) (groupFolder query : String) :
    Except MemoryError (List String) :=
  let query := lower (strip query.toList)
  if query = [] then .ok []
  else do
    let memoryDir ← service.getGroupMemoryDir groupFolder
    if disk.has memoryDir.names then
      .ok (((groupMemoryFiles disk memoryDir).filter fun file =>
        decide (query <:+: lower file.2.toList)).map fun file =>
          asPosix (file.1.drop memoryDir.names.length))
    else .ok []

def getGroupMemoryFile (disk : Disk) (groupFolder relativePath : String) :
    Except MemoryError GroupMemoryFileContent := do
  let (candidate, names) ← service.resolveGroupMemoryFile groupFolder relativePath
  if disk.isDir candidate.names then .error .isADirectory
  else
    match disk.read? candidate.names with
    | none => .ok { path := asPosix names, content := "", size := 0 }
    | some content =>
      if content.utf8ByteSize > service.maxGroupMemoryFileSizeBytes then
        .error (.value "memory file exceeds size limit")
      else .ok { path := asPosix names, content, size := content.utf8ByteSize }

def updateGroupMemoryFile (disk : Disk) (groupFolder relativePath content : String) :
    Except MemoryError (GroupMemoryFileContent × Disk) := do
  let (candidate, names) ← service.resolveGroupMemoryFile groupFolder relativePath
  if content.utf8ByteSize > service.maxGroupMemoryFileSizeBytes then
    .error (.value "memory content exceeds size limit")
  else if disk.isDir candidate.names then .error .isADirectory
  else do
    let disk ← disk.mkdir candidate.names.dropLast
    .ok ({ path := asPosix names, content, size := content.utf8ByteSize },
      disk.write candidate.names content)

def appendDailyMemory (disk : Disk) (groupFolder content : String) : Except MemoryError Disk := do
  let dailyMemoryPath ← service.getDailyMemoryPath groupFolder
  let disk ← disk.mkdir dailyMemoryPath.names.dropLast
  .ok (disk.append dailyMemoryPath.names ("\n" ++ content ++ "\n"))

end MemoryService

/-! ## Volumes -/

inductive MountMode
  | readOnly | readWrite
  deriving DecidableEq

/-- An item of the mapping that `build_volumes` returns. -/
structure Volume where
  hostPath : Directory
  bind : String
  mode : MountMode

/-- `SAFE_PATH_SEGMENT.fullmatch(value)`. -/
def isSafePathSegment (value : String) : Bool :=
  match value.toList with
  | [] => false
  | ch :: rest => ch.isAlphanum && rest.all fun ch => ch.isAlphanum || ch ∈ ['.', '_', '-']

inductive DockerError
  | invalid (detail : String)
  | os
  deriving DecidableEq

/-- `_scoped_directory`, below a directory of the data root. -/
def scopedDirectory (fs : FileSystem) (root : Directory) (part : String) (rest : List Name)
    (label : String) : Except DockerError Directory :=
  if ¬ fs.makesDirectory root.names then .error .os
  else
    let candidate := ((root.toPath.join (.parse part)).join
      { absolute := false, names := rest }).resolve
    if ¬ validatePath candidate [root] then
      .error (.invalid ("Invalid " ++ label ++ " '" ++ part ++ "': resolved path '" ++
        candidate.text ++ "' is outside allowed roots"))
    else if ¬ fs.makesDirectory candidate.names then .error .os
    else .ok candidate

def validatePathSegment (value label : String) : Except DockerError String :=
  if isSafePathSegment value then .ok value
  else .error (.invalid ("Invalid " ++ label ++ " '" ++ value ++
    "': resolved path is outside allowed roots"))

def memoryContainerPath : String := "/workspace/memory"

def buildVolumes (fs : FileSystem) (dataRoot : Directory) (groupFolder userId : String)
    (readonlyMounts : List String) : Except DockerError (List Volume) := do
  let groupFolder ← validatePathSegment groupFolder "group_folder"
  let userId ← validatePathSegment userId "user_id"
  let hostDir (name part : String) (rest : List Name) (label : String) :=
    scopedDirectory fs (dataRoot.enter name.toList) part rest label
  let mode (name : String) := if name ∈ readonlyMounts then MountMode.readOnly else .readWrite
  let sessionsDir ← hostDir "sessions" groupFolder [".claude".toList] "group_folder"
  let memoryDir ← hostDir "memory" groupFolder [] "group_folder"
  let ipcDir ← hostDir "ipc" groupFolder [] "group_folder"
  let groupDir ← hostDir "groups" groupFolder [] "group_folder"
  let skillsDir ← hostDir "skills" userId [] "user_id"
  .ok [⟨sessionsDir, "/home/portex/.claude", mode "sessions"⟩,
    ⟨memoryDir, memoryContainerPath, mode "memory"⟩,
    ⟨ipcDir, "/workspace/ipc", mode "ipc"⟩,
    ⟨groupDir, "/workspace/group", mode "group"⟩,
    ⟨skillsDir, "/workspace/skills", .readOnly⟩]

end Portex
