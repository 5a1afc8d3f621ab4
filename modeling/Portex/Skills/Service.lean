import Portex.Foundation.TextFile
import Portex.Mcp.Servers
import Portex.Workspace.TextFiles

/-!
# Skills

The skills of a user are directories below `data/skills/{user_id}`, one for each skill id. A skill
is enabled where its directory holds `SKILL.md`, and disabled where it holds only
`SKILL.md.disabled`. There are no symbolic links here, so no resolved path leaves its directory.

## Main definitions

* `SkillsRoot`: the directories of the users
* `resolveSkillFile`: which of the two files counts
* `SkillsService.listUserSkills`, `getUserSkill`, `upsertUserSkill`, `setUserSkillEnabled`,
  `deleteUserSkill`: the operations
* `SkillOp`, `SkillsService.step`: the operations that change skills
-/

namespace Portex

open Foundation

inductive SkillsError
  | value (detail : String)
  /-- `FileNotFoundError`. -/
  | fileNotFound (detail : String)
  /-- `IsADirectoryError`. -/
  | isADirectory (detail : String)
  /-- The `ValueError` of bytes that are no text. -/
  | unicodeDecode
  /-- An `OSError` that the system raises. -/
  | os
  deriving DecidableEq

/-! ## Directories -/

/-- What is in the directory of a skill: a file, or a directory of some `st_size`. -/
inductive SkillNode
  | file (bytes : List UInt8)
  | directory (size : ℕ)
  deriving DecidableEq

def SkillNode.isDir : SkillNode → Bool
  | .file _ => false
  | .directory _ => true

/-- `path.stat().st_size`. -/
def SkillNode.size : SkillNode → ℕ
  | .file bytes => bytes.length
  | .directory size => size

/-- `path.read_text(encoding="utf-8")`. -/
def SkillNode.readText : SkillNode → Except SkillsError (List Char)
  | .directory _ => .error .os
  | .file bytes =>
    match decodeStrict bytes with
    | none => .error .unicodeDecode
    | some text => .ok (universalNewlines text)

abbrev SkillDir := Dict Name SkillNode

/-- What is in the directory of a user. -/
inductive UserEntry
  | file
  | directory (dir : SkillDir)

abbrev UserRoot := Dict Name UserEntry

/-- The directories of the users. -/
abbrev SkillsRoot := Dict Name UserRoot

def skillFilename : Name := "SKILL.md".toList

def disabledSkillFilename : Name := "SKILL.md.disabled".toList

/-- The file that `_resolve_skill_file` finds. -/
structure SkillFile where
  name : Name
  enabled : Bool
  node : SkillNode

/-- `_resolve_skill_file`: `SKILL.md` hides `SKILL.md.disabled`. -/
def resolveSkillFile (dir : SkillDir) : Option SkillFile :=
  match dir.get? skillFilename with
  | some node => some { name := skillFilename, enabled := true, node }
  | none =>
    (dir.get? disabledSkillFilename).map fun node =>
      { name := disabledSkillFilename, enabled := false, node }

structure SkillEntry where
  skillId : Name
  enabled : Bool
  size : ℕ
  deriving DecidableEq

structure SkillDetail where
  skillId : Name
  enabled : Bool
  size : ℕ
  content : List Char
  deriving DecidableEq

/-- `_validate_segment`. -/
def validateSkillSegment (value : Str) (label : String) : Except SkillsError Name :=
  if isSafeSegment (strip value) then .ok (strip value) else .error (.value ("invalid " ++ label))

/-! ## The service -/

structure SkillsService where
  maxSkillFileSizeBytes : ℕ := 256 * 1024
  /-- `str.lower`. -/
  lower : Name → Name

namespace SkillsService

variable (service : SkillsService)

/-- `_user_root`, which makes the directory of the user, and then what is done below it. -/
def withUserRoot {α : Type} (root : SkillsRoot) (userId : Str)
    (body : UserRoot → Except SkillsError α × UserRoot) : Except SkillsError α × SkillsRoot :=
  match validateSkillSegment userId "user id" with
  | .error error => (.error error, root)
  | .ok safeUserId =>
    let result := body (root.getD safeUserId ∅)
    (result.1, root.insert safeUserId result.2)

/-- `_build_skill_entry`. -/
def buildSkillEntry (skillId : Name) (file : SkillFile) : Except SkillsError SkillEntry :=
  if service.maxSkillFileSizeBytes < file.node.size then
    .error (.value "skill file exceeds size limit")
  else .ok { skillId, enabled := file.enabled, size := file.node.size }

/-- The loop of `_list_user_skills`, over the entries that are left. -/
def buildSkillEntries : List (Name × UserEntry) → Except SkillsError (List SkillEntry)
  | [] => .ok []
  | (_, .file) :: candidates => buildSkillEntries candidates
  | (name, .directory dir) :: candidates =>
    match resolveSkillFile dir with
    | none => buildSkillEntries candidates
    | some file => do
      let entry ← service.buildSkillEntry name file
      let entries ← buildSkillEntries candidates
      return entry :: entries

/-- `user_root.iterdir()`, sorted. -/
def sortedCandidates (userRoot : UserRoot) : List (Name × UserEntry) :=
  userRoot.items.mergeSort fun candidate candidate' =>
    service.lower candidate.1 ≤ service.lower candidate'.1

def listUserSkills (root : SkillsRoot) (userId : Str) :
    Except SkillsError (List SkillEntry) × SkillsRoot :=
  withUserRoot root userId fun userRoot =>
    (service.buildSkillEntries (service.sortedCandidates userRoot), userRoot)

/-- `_get_user_skill`, below the directory of the user. -/
def getSkill (userRoot : UserRoot) (skillId : Str) : Except SkillsError SkillDetail :=
  match validateSkillSegment skillId "skill id" with
  | .error error => .error error
  | .ok safeSkillId =>
    match userRoot.get? safeSkillId with
    | some (.directory dir) =>
      match resolveSkillFile dir with
      | none => .error (.fileNotFound "skill not found")
      | some file =>
        if service.maxSkillFileSizeBytes < file.node.size then
          .error (.value "skill file exceeds size limit")
        else file.node.readText.map fun content =>
          { skillId := safeSkillId, enabled := file.enabled, size := file.node.size, content }
    | _ => .error (.fileNotFound "skill not found")

def getUserSkill (root : SkillsRoot) (userId skillId : Str) :
    Except SkillsError SkillDetail × SkillsRoot :=
  withUserRoot root userId fun userRoot => (service.getSkill userRoot skillId, userRoot)

/-- `skill_dir.mkdir(parents=True, exist_ok=True)`. -/
def makeSkillDir (userRoot : UserRoot) (skillId : Name) : Option SkillDir :=
  match userRoot.get? skillId with
  | none => some ∅
  | some (.directory dir) => some dir
  | some .file => none

/-- `_upsert_user_skill`, below the directory of the user. -/
def upsertSkill (userRoot : UserRoot) (skillId : Str) (encoded : List UInt8) :
    Except SkillsError SkillDetail × UserRoot :=
  match validateSkillSegment skillId "skill id" with
  | .error error => (.error error, userRoot)
  | .ok safeSkillId =>
    match makeSkillDir userRoot safeSkillId with
    | none => (.error .os, userRoot)
    | some dir =>
      let target := ((resolveSkillFile dir).map SkillFile.name).getD skillFilename
      if (dir.get? target).any SkillNode.isDir then
        (.error (.isADirectory "skill path is a directory"),
          userRoot.insert safeSkillId (.directory dir))
      else
        let written := userRoot.insert safeSkillId (.directory (dir.insert target (.file encoded)))
        (service.getSkill written skillId, written)

def upsertUserSkill (root : SkillsRoot) (userId skillId : Str) (content : List Char) :
    Except SkillsError SkillDetail × SkillsRoot :=
  let encoded := encodeUtf8 content
  if service.maxSkillFileSizeBytes < encoded.length then
    (.error (.value "skill content exceeds size limit"), root)
  else withUserRoot root userId fun userRoot => service.upsertSkill userRoot skillId encoded

/-- `_set_user_skill_enabled`, below the directory of the user. -/
def setSkillEnabled (userRoot : UserRoot) (skillId : Str) (enabled : Bool) :
    Except SkillsError SkillDetail × UserRoot :=
  match validateSkillSegment skillId "skill id" with
  | .error error => (.error error, userRoot)
  | .ok safeSkillId =>
    match userRoot.get? safeSkillId with
    | some (.directory dir) =>
      match resolveSkillFile dir with
      | none => (.error (.fileNotFound "skill not found"), userRoot)
      | some current =>
        if current.enabled = enabled then (service.getSkill userRoot skillId, userRoot)
        else
          let target := if enabled then skillFilename else disabledSkillFilename
          if (dir.get? target).any SkillNode.isDir then
            (.error (.isADirectory "skill path is a directory"), userRoot)
          else
            -- The target is unlinked, and the current file is renamed to it.
            let renamed := ((dir.erase target).erase current.name).insert target current.node
            let switched := userRoot.insert safeSkillId (.directory renamed)
            (service.getSkill switched skillId, switched)
    | _ => (.error (.fileNotFound "skill not found"), userRoot)

def setUserSkillEnabled (root : SkillsRoot) (userId skillId : Str) (enabled : Bool) :
    Except SkillsError SkillDetail × SkillsRoot :=
  withUserRoot root userId fun userRoot => service.setSkillEnabled userRoot skillId enabled

/-- `_delete_user_skill`, below the directory of the user. -/
def deleteSkill (userRoot : UserRoot) (skillId : Str) : Except SkillsError Unit × UserRoot :=
  match validateSkillSegment skillId "skill id" with
  | .error error => (.error error, userRoot)
  | .ok safeSkillId =>
    match userRoot.get? safeSkillId with
    | some (.directory _) => (.ok (), userRoot.erase safeSkillId)
    | _ => (.error (.fileNotFound "skill not found"), userRoot)

def deleteUserSkill (root : SkillsRoot) (userId skillId : Str) :
    Except SkillsError Unit × SkillsRoot :=
  withUserRoot root userId fun userRoot => deleteSkill userRoot skillId

end SkillsService

/-! ## Operations -/

/-- The operations that change skills. -/
inductive SkillOp
  | upsert (userId skillId : Str) (content : List Char)
  | setEnabled (userId skillId : Str) (enabled : Bool)
  | delete (userId skillId : Str)

namespace SkillsService

variable (service : SkillsService)

/-- The directories after an operation, which may have failed. -/
def step (root : SkillsRoot) : SkillOp → Option SkillsRoot
  | .upsert userId skillId content => some (service.upsertUserSkill root userId skillId content).2
  | .setEnabled userId skillId enabled =>
    some (service.setUserSkillEnabled root userId skillId enabled).2
  | .delete userId skillId => some (deleteUserSkill root userId skillId).2

end SkillsService

end Portex
