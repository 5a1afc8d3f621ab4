import Portex.Foundation.Transition
import Portex.Skills.Service

/-!
# The skills as a map

Whether a skill is enabled is told by which of two files its directory holds, and either of them, both
or none may be there. The operations handle the four cases so that the directories stand for a map
from skill ids to a flag and a content: an upsert replaces the content and keeps the flag, a switch
changes nothing but the flag, and a deletion takes its own skill away.

## Main definitions

* `SkillView`, `Skills`: a skill as users see it, and the map
* `SkillOp.apply`: what an operation does to the map
* `skillsOf`: the map that some directories stand for
* `SkillsService.Accepts`: the operations that are not refused

## Main results

* `skillsOf_step`: an operation does to the directories what it does to the map
* `skills_refine`: after any operations, `get` and `list` answer as the map does
-/

namespace Portex

open Foundation

/-! ## The map -/

/-- A skill: its flag, and what is read from its file. -/
structure SkillView where
  enabled : Bool
  content : Except SkillsError (List Char)

/-- The skills of every user, by their ids. -/
abbrev Skills := Name → Name → Option SkillView

/-- The map with one skill changed. -/
def Skills.put (skills : Skills) (userId skillId : Name) (view : Option SkillView) : Skills :=
  Function.update skills userId (Function.update (skills userId) skillId view)

/-- The map after an operation. A new skill is enabled. -/
def SkillOp.apply (skills : Skills) : SkillOp → Skills
  | .upsert userId skillId content =>
    skills.put (strip userId) (strip skillId) (some
      { enabled := ((skills (strip userId) (strip skillId)).map SkillView.enabled).getD true
        content := .ok content })
  | .setEnabled userId skillId enabled =>
    skills.put (strip userId) (strip skillId)
      ((skills (strip userId) (strip skillId)).map fun view => { view with enabled })
  | .delete userId skillId => skills.put (strip userId) (strip skillId) none

/-! ## The map of some directories -/

def SkillFile.view (file : SkillFile) : SkillView :=
  { enabled := file.enabled, content := file.node.readText }

/-- The skill of an entry. -/
def UserEntry.view : UserEntry → Option SkillView
  | .file => none
  | .directory dir => (resolveSkillFile dir).map SkillFile.view

def skillsBelow (userRoot : UserRoot) : Name → Option SkillView :=
  fun skillId => (userRoot.get? skillId).bind UserEntry.view

def skillsOf (root : SkillsRoot) : Skills := fun userId => skillsBelow (root.getD userId ∅)

variable {root root' : SkillsRoot} {userRoot : UserRoot} {dir : SkillDir} {service : SkillsService}
  {userId skillId : Str} {content : List Char} {enabled : Bool}

theorem getD_insert (root : SkillsRoot) (userId other : Name) (userRoot : UserRoot) :
    (root.insert userId userRoot).getD other ∅ =
      if other = userId then userRoot else root.getD other ∅ := by
  unfold Dict.getD
  rw [Dict.get?_insert]
  split <;> rfl

theorem skillsOf_insert (root : SkillsRoot) (userId : Name) (userRoot : UserRoot) :
    skillsOf (root.insert userId userRoot) =
      Function.update (skillsOf root) userId (skillsBelow userRoot) := by
  funext other
  unfold skillsOf
  rw [getD_insert, Function.update_apply]
  split <;> rfl

theorem skillsBelow_insert (userRoot : UserRoot) (skillId : Name) (entry : UserEntry) :
    skillsBelow (userRoot.insert skillId entry) =
      Function.update (skillsBelow userRoot) skillId entry.view := by
  funext other
  unfold skillsBelow
  rw [Dict.get?_insert, Function.update_apply]
  split <;> rfl

theorem skillsBelow_erase (userRoot : UserRoot) (skillId : Name) :
    skillsBelow (userRoot.erase skillId) = Function.update (skillsBelow userRoot) skillId none := by
  funext other
  unfold skillsBelow
  rw [Dict.get?_erase, Function.update_apply]
  split <;> rfl

/-- An entry that is no directory is no skill. -/
theorem skillsBelow_eq_none {skillId : Name}
    (h : ∀ dir, userRoot.get? skillId = some (.directory dir) → False) :
    skillsBelow userRoot skillId = none := by
  unfold skillsBelow
  cases hget : userRoot.get? skillId with
  | none => rfl
  | some entry =>
    cases entry with
    | file => rfl
    | directory dir => exact absurd hget (h dir)

theorem skillsBelow_directory {skillId : Name}
    (h : userRoot.get? skillId = some (.directory dir)) :
    skillsBelow userRoot skillId = (resolveSkillFile dir).map SkillFile.view := by
  unfold skillsBelow
  rw [h]
  rfl

/-! ## Which file counts -/

theorem skillFilename_ne : disabledSkillFilename ≠ skillFilename := by decide

/-- The file that counts is there, under the name that belongs to its flag. -/
theorem resolveSkillFile_eq_some {file : SkillFile} (h : resolveSkillFile dir = some file) :
    dir.get? file.name = some file.node ∧
      file.name = if file.enabled then skillFilename else disabledSkillFilename := by
  unfold resolveSkillFile at h
  cases hget : dir.get? skillFilename with
  | some node =>
    rw [hget] at h
    obtain rfl := Option.some.inj h
    exact ⟨hget, rfl⟩
  | none =>
    rw [hget] at h
    obtain ⟨node, hdisabled, rfl⟩ := Option.map_eq_some_iff.mp h
    exact ⟨hdisabled, rfl⟩

/-- A file that is disabled is not hidden. -/
theorem get?_of_disabled {file : SkillFile} (h : resolveSkillFile dir = some file)
    (hdisabled : file.enabled = false) : dir.get? skillFilename = none := by
  unfold resolveSkillFile at h
  cases hget : dir.get? skillFilename with
  | none => rfl
  | some node =>
    rw [hget] at h
    obtain rfl := Option.some.inj h
    cases hdisabled

/-- Under the name of the file that counts, or `SKILL.md` for a new skill, a file counts once it is
written, with the flag of before. -/
theorem resolveSkillFile_insert (dir : SkillDir) (node : SkillNode) :
    resolveSkillFile
        (dir.insert (((resolveSkillFile dir).map SkillFile.name).getD skillFilename) node) =
      some
        { name := ((resolveSkillFile dir).map SkillFile.name).getD skillFilename
          enabled := ((resolveSkillFile dir).map SkillFile.enabled).getD true
          node } := by
  cases hfile : resolveSkillFile dir with
  | none => simp [resolveSkillFile]
  | some file =>
    obtain ⟨-, hname⟩ := resolveSkillFile_eq_some hfile
    obtain ⟨name, enabled, node'⟩ := file
    cases enabled with
    | true =>
      obtain rfl : name = skillFilename := hname
      simp [resolveSkillFile]
    | false =>
      obtain rfl : name = disabledSkillFilename := hname
      have hnone := get?_of_disabled hfile rfl
      simp [resolveSkillFile, hnone, skillFilename_ne.symm]

/-- A file that is renamed counts under its new name, whatever was there. -/
theorem resolveSkillFile_rename {current : SkillFile} (h : resolveSkillFile dir = some current)
    (hne : current.enabled ≠ enabled) :
    resolveSkillFile
        (((dir.erase (if enabled then skillFilename else disabledSkillFilename)).erase
          current.name).insert (if enabled then skillFilename else disabledSkillFilename)
            current.node) =
      some
        { name := if enabled then skillFilename else disabledSkillFilename
          enabled
          node := current.node } := by
  obtain ⟨-, hname⟩ := resolveSkillFile_eq_some h
  obtain ⟨name, was, node⟩ := current
  cases enabled with
  | true => simp [resolveSkillFile]
  | false =>
    -- What was enabled leaves the name that would hide it.
    obtain rfl : was = true := eq_true_of_ne_false hne
    obtain rfl : name = skillFilename := hname
    simp [resolveSkillFile, skillFilename_ne.symm]

/-! ## At most one file -/

/-- Not both of the two files are there. -/
def OneFile (dir : SkillDir) : Prop :=
  ¬ (dir.contains skillFilename = true ∧ dir.contains disabledSkillFilename = true)

def OneFileBelow (userRoot : UserRoot) : Prop :=
  ∀ skillId dir, userRoot.get? skillId = some (.directory dir) → OneFile dir

theorem OneFileBelow.insert (h : OneFileBelow userRoot) {skillId : Name} (hdir : OneFile dir) :
    OneFileBelow (userRoot.insert skillId (.directory dir)) := by
  intro other dir' hget
  rw [Dict.get?_insert] at hget
  split at hget
  · obtain rfl := UserEntry.directory.inj (Option.some.inj hget)
    exact hdir
  · exact h other dir' hget

/-- The file that counts is written where it is, or alone. -/
theorem OneFile.write (h : OneFile dir) (node : SkillNode) :
    OneFile (dir.insert (((resolveSkillFile dir).map SkillFile.name).getD skillFilename) node) := by
  rintro ⟨henabled, hdisabled⟩
  cases hfile : resolveSkillFile dir with
  | none =>
    have hnone : dir.get? disabledSkillFilename = none := by
      unfold resolveSkillFile at hfile
      cases hget : dir.get? skillFilename with
      | none =>
        rw [hget] at hfile
        exact Option.map_eq_none_iff.mp hfile
      | some node =>
        rw [hget] at hfile
        cases hfile
    rw [hfile] at hdisabled
    simp [Dict.contains, skillFilename_ne, hnone] at hdisabled
  | some file =>
    obtain ⟨hget, -⟩ := resolveSkillFile_eq_some hfile
    rw [hfile] at henabled hdisabled
    have hkept (name : Name) (hname : (dir.insert file.name node).contains name = true) :
        dir.contains name = true := by
      unfold Dict.contains at hname ⊢
      rw [Dict.get?_insert] at hname
      split at hname
      · rename_i heq
        rw [heq, hget]
        rfl
      · exact hname
    exact h ⟨hkept _ henabled, hkept _ hdisabled⟩

/-- A file that is renamed leaves nothing under the other name. -/
theorem oneFile_rename {current : SkillFile} (h : resolveSkillFile dir = some current)
    (hne : current.enabled ≠ enabled) :
    OneFile (((dir.erase (if enabled then skillFilename else disabledSkillFilename)).erase
      current.name).insert (if enabled then skillFilename else disabledSkillFilename)
        current.node) := by
  obtain ⟨-, hname⟩ := resolveSkillFile_eq_some h
  obtain ⟨name, was, node⟩ := current
  rintro ⟨henabled, hdisabled⟩
  cases enabled with
  | true =>
    obtain rfl : was = false := eq_false_of_ne_true hne
    obtain rfl : name = disabledSkillFilename := hname
    simp [Dict.contains, skillFilename_ne] at hdisabled
  | false =>
    obtain rfl : was = true := eq_true_of_ne_false hne
    obtain rfl : name = skillFilename := hname
    simp [Dict.contains, skillFilename_ne.symm] at henabled

/-! ## Domains -/

namespace SkillsService

/-- The two files of a skill are files within the size limit, where they are there. -/
def FitsDir (service : SkillsService) (dir : SkillDir) : Prop :=
  ∀ name node, name = skillFilename ∨ name = disabledSkillFilename → dir.get? name = some node →
    node.isDir = false ∧ node.size ≤ service.maxSkillFileSizeBytes

def FitsBelow (service : SkillsService) (userRoot : UserRoot) : Prop :=
  ∀ skillId dir, userRoot.get? skillId = some (.directory dir) → service.FitsDir dir

/-- A state of the directories: both, either or none of the two files of a skill are there. -/
def Fits (service : SkillsService) (root : SkillsRoot) : Prop :=
  ∀ userId, service.FitsBelow (root.getD userId ∅)

/-- The ids are accepted. -/
def AcceptsIds (userId skillId : Str) : Prop :=
  isSafeSegment (strip userId) = true ∧ isSafeSegment (strip skillId) = true

/-- An operation with accepted ids. The content of an upsert is within the size limit and without
carriage returns, and its skill is not the name of a plain file. -/
def Accepts (service : SkillsService) (root : SkillsRoot) : SkillOp → Prop
  | .upsert userId skillId content => AcceptsIds userId skillId ∧ '\r' ∉ content ∧
    (encodeUtf8 content).length ≤ service.maxSkillFileSizeBytes ∧
    (makeSkillDir (root.getD (strip userId) ∅) (strip skillId)).isSome = true
  | .setEnabled userId skillId _ | .delete userId skillId => AcceptsIds userId skillId

instance (userId skillId : Str) : Decidable (AcceptsIds userId skillId) :=
  inferInstanceAs (Decidable (_ ∧ _))

instance (service : SkillsService) (root : SkillsRoot) : DecidablePred (service.Accepts root)
  | .upsert userId skillId content =>
    inferInstanceAs (Decidable (AcceptsIds userId skillId ∧ '\r' ∉ content ∧
      (encodeUtf8 content).length ≤ service.maxSkillFileSizeBytes ∧
      (makeSkillDir (root.getD (strip userId) ∅) (strip skillId)).isSome = true))
  | .setEnabled userId skillId _ | .delete userId skillId =>
    inferInstanceAs (Decidable (AcceptsIds userId skillId))

/-! ## One operation -/

theorem validate_of_safe {text : Str} (h : isSafeSegment (strip text) = true) (label : String) :
    validateSkillSegment text label = .ok (strip text) := if_pos h

theorem withUserRoot_eq {α : Type} (h : isSafeSegment (strip userId) = true)
    (body : UserRoot → Except SkillsError α × UserRoot) :
    withUserRoot root userId body =
      ((body (root.getD (strip userId) ∅)).1,
        root.insert (strip userId) (body (root.getD (strip userId) ∅)).2) := by
  unfold withUserRoot
  rw [validate_of_safe h]

/-- What an operation does below the directory of its user: it changes one skill. -/
structure Switches (service : SkillsService) (userRoot after : UserRoot) (skillId : Name)
    (view : Option SkillView) : Prop where
  below : skillsBelow after = Function.update (skillsBelow userRoot) skillId view
  fits : service.FitsBelow after
  oneFile : OneFileBelow userRoot → OneFileBelow after

theorem FitsBelow.insert (h : service.FitsBelow userRoot) {skillId : Name}
    (hdir : service.FitsDir dir) : service.FitsBelow (userRoot.insert skillId (.directory dir)) := by
  intro other dir' hget
  rw [Dict.get?_insert] at hget
  split at hget
  · obtain rfl := UserEntry.directory.inj (Option.some.inj hget)
    exact hdir
  · exact h other dir' hget

theorem FitsDir.insert (h : service.FitsDir dir) {name : Name} {node : SkillNode}
    (hfile : node.isDir = false) (hsize : node.size ≤ service.maxSkillFileSizeBytes) :
    service.FitsDir (dir.insert name node) := by
  intro other node' hother hget
  rw [Dict.get?_insert] at hget
  split at hget
  · obtain rfl := Option.some.inj hget
    exact ⟨hfile, hsize⟩
  · exact h other node' hother hget

theorem FitsDir.erase (h : service.FitsDir dir) (name : Name) : service.FitsDir (dir.erase name) := by
  intro other node hother hget
  rw [Dict.get?_erase] at hget
  split at hget
  · cases hget
  · exact h other node hother hget

theorem fitsDir_empty (service : SkillsService) : service.FitsDir ∅ := by
  intro name node _ hget
  cases hget

theorem FitsDir.node (h : service.FitsDir dir) {file : SkillFile}
    (hfile : resolveSkillFile dir = some file) :
    file.node.isDir = false ∧ file.node.size ≤ service.maxSkillFileSizeBytes := by
  obtain ⟨hget, hname⟩ := resolveSkillFile_eq_some hfile
  refine h _ _ ?_ hget
  rw [hname]
  split
  · exact .inl rfl
  · exact .inr rfl

/-- What is under a name that a skill file may have is no directory. -/
theorem FitsDir.not_isDir (h : service.FitsDir dir) {name : Name}
    (hname : name = skillFilename ∨ name = disabledSkillFilename) :
    (dir.get? name).any SkillNode.isDir = false := by
  cases hget : dir.get? name with
  | none => rfl
  | some node => exact (h name node hname hget).1

/-- The directory of a skill that can be written. -/
theorem FitsBelow.makeSkillDir (h : service.FitsBelow userRoot) {skillId : Name}
    (hmade : makeSkillDir userRoot skillId = some dir) :
    service.FitsDir dir ∧
      skillsBelow userRoot skillId = (resolveSkillFile dir).map SkillFile.view := by
  unfold SkillsService.makeSkillDir at hmade
  unfold skillsBelow
  split at hmade
  · rename_i hget
    obtain rfl := Option.some.inj hmade
    rw [hget]
    exact ⟨fitsDir_empty service, rfl⟩
  · rename_i dir' hget
    obtain rfl := Option.some.inj hmade
    rw [hget]
    exact ⟨h _ _ hget, rfl⟩
  · cases hmade

theorem readText_encodeUtf8 (h : '\r' ∉ content) :
    (SkillNode.file (encodeUtf8 content)).readText = .ok content := by
  simp only [SkillNode.readText, decodeStrict_encodeUtf8, universalNewlines_eq_self.mpr h]

/-- An upsert replaces the content of its skill and keeps the flag. -/
theorem upsertSkill_switches (h : service.FitsBelow userRoot)
    (hid : isSafeSegment (strip skillId) = true) (hcontent : '\r' ∉ content)
    (hsize : (encodeUtf8 content).length ≤ service.maxSkillFileSizeBytes)
    (hdir : (SkillsService.makeSkillDir userRoot (strip skillId)).isSome = true) :
    Switches service userRoot (service.upsertSkill userRoot skillId (encodeUtf8 content)).2
      (strip skillId) (some
        { enabled := ((skillsBelow userRoot (strip skillId)).map SkillView.enabled).getD true
          content := .ok content }) := by
  obtain ⟨dir, hmade⟩ := Option.isSome_iff_exists.mp hdir
  obtain ⟨hfits, hview⟩ := h.makeSkillDir hmade
  have htarget : ((resolveSkillFile dir).map SkillFile.name).getD skillFilename = skillFilename ∨
      ((resolveSkillFile dir).map SkillFile.name).getD skillFilename = disabledSkillFilename := by
    cases hfile : resolveSkillFile dir with
    | none => exact .inl rfl
    | some file =>
      obtain ⟨-, hname⟩ := resolveSkillFile_eq_some hfile
      show file.name = _ ∨ file.name = _
      rw [hname]
      split
      · exact .inl rfl
      · exact .inr rfl
  simp only [upsertSkill, validate_of_safe hid, hmade, hfits.not_isDir htarget, Bool.false_eq_true,
    if_false]
  constructor
  · rw [skillsBelow_insert]
    congr 1
    show (resolveSkillFile (dir.insert _ _)).map SkillFile.view = _
    rw [resolveSkillFile_insert, hview, Option.map_some, Option.map_map]
    simp only [SkillFile.view, readText_encodeUtf8 hcontent]
    rfl
  · exact h.insert (hfits.insert rfl hsize)
  · intro hone
    refine hone.insert (OneFile.write ?_ _)
    unfold SkillsService.makeSkillDir at hmade
    split at hmade
    · -- A new directory is empty.
      obtain rfl := Option.some.inj hmade
      simp [OneFile, Dict.contains]
    · rename_i dir' hget
      obtain rfl := Option.some.inj hmade
      exact hone _ _ hget
    · cases hmade

/-- A switch changes nothing but the flag of its skill. -/
theorem setSkillEnabled_switches (h : service.FitsBelow userRoot)
    (hid : isSafeSegment (strip skillId) = true) :
    Switches service userRoot (service.setSkillEnabled userRoot skillId enabled).2
      (strip skillId)
      ((skillsBelow userRoot (strip skillId)).map fun view => { view with enabled }) := by
  have hsame (hview : (skillsBelow userRoot (strip skillId)).map
      (fun view : SkillView => { view with enabled }) = skillsBelow userRoot (strip skillId)) :
      Switches service userRoot userRoot (strip skillId)
        ((skillsBelow userRoot (strip skillId)).map fun view => { view with enabled }) := by
    refine ⟨?_, h, id⟩
    rw [hview, Function.update_eq_self]
  simp only [setSkillEnabled, validate_of_safe hid]
  split
  · rename_i dir hget
    have hview := skillsBelow_directory hget
    have hfits := h _ _ hget
    cases hfile : resolveSkillFile dir with
    | none =>
      refine hsame ?_
      rw [hview, hfile]
      rfl
    | some current =>
      simp only
      split
      · -- The skill has the flag already.
        rename_i heq
        refine hsame ?_
        rw [hview, hfile, ← heq]
        rfl
      · rename_i hne
        have htarget : (if enabled = true then skillFilename else disabledSkillFilename) =
            skillFilename ∨ (if enabled = true then skillFilename else disabledSkillFilename) =
              disabledSkillFilename := by
          split
          · exact .inl rfl
          · exact .inr rfl
        simp only [hfits.not_isDir htarget, Bool.false_eq_true, if_false]
        obtain ⟨hnode, hsize⟩ := hfits.node hfile
        constructor
        · rw [skillsBelow_insert]
          congr 1
          show (resolveSkillFile _).map SkillFile.view = _
          rw [resolveSkillFile_rename hfile hne, hview, hfile]
          rfl
        · exact h.insert (((hfits.erase _).erase _).insert hnode hsize)
        · exact fun hone => hone.insert (oneFile_rename hfile hne)
  · rename_i hnot
    refine hsame ?_
    rw [skillsBelow_eq_none hnot]
    rfl

/-- A deletion takes its skill away. -/
theorem deleteSkill_switches (h : service.FitsBelow userRoot)
    (hid : isSafeSegment (strip skillId) = true) :
    Switches service userRoot (deleteSkill userRoot skillId).2 (strip skillId) none := by
  simp only [deleteSkill, validate_of_safe hid]
  split
  · have hkept (other : Name) (dir : SkillDir)
        (hget : (userRoot.erase (strip skillId)).get? other = some (.directory dir)) :
        userRoot.get? other = some (.directory dir) := by
      rw [Dict.get?_erase] at hget
      split at hget
      · cases hget
      · exact hget
    exact ⟨skillsBelow_erase userRoot (strip skillId), fun other dir hget => h _ _ (hkept _ _ hget),
      fun hone other dir hget => hone _ _ (hkept _ _ hget)⟩
  · rename_i hnot
    refine ⟨?_, h, id⟩
    rw [Function.update_eq_self_iff.mpr (skillsBelow_eq_none hnot).symm]

/-- Below the directory of its user an operation does all it does. -/
theorem Switches.insert {after : UserRoot} {view : Option SkillView} {userId skillId : Name}
    (hfits : service.Fits root) (h : Switches service (root.getD userId ∅) after skillId view) :
    skillsOf (root.insert userId after) = (skillsOf root).put userId skillId view ∧
      service.Fits (root.insert userId after) ∧
      ∀ other, OneFileBelow (root.getD other ∅) →
        OneFileBelow ((root.insert userId after).getD other ∅) := by
  refine ⟨?_, fun other => ?_, fun other hone => ?_⟩
  · rw [skillsOf_insert, h.below]
    rfl
  · rw [getD_insert]
    split
    · exact h.fits
    · exact hfits other
  · rw [getD_insert]
    split
    · rename_i heq
      exact h.oneFile (heq ▸ hone)
    · exact hone

/-- **Operations** do to the directories what they do to the map. -/
theorem skillsOf_step {op : SkillOp} (hfits : service.Fits root) (haccepts : service.Accepts root op)
    (hstep : service.step root op = some root') :
    skillsOf root' = op.apply (skillsOf root) ∧ service.Fits root' ∧
      ∀ other, OneFileBelow (root.getD other ∅) → OneFileBelow (root'.getD other ∅) := by
  cases op with
  | upsert userId skillId content =>
    obtain ⟨⟨huser, hskill⟩, hcontent, hsize, hdir⟩ := haccepts
    obtain rfl := Option.some.inj hstep
    simp only [upsertUserSkill, if_neg (Nat.not_lt.mpr hsize), withUserRoot_eq huser]
    exact (upsertSkill_switches (hfits _) hskill hcontent hsize hdir).insert hfits
  | setEnabled userId skillId enabled =>
    obtain ⟨huser, hskill⟩ := haccepts
    obtain rfl := Option.some.inj hstep
    simp only [setUserSkillEnabled, withUserRoot_eq huser]
    exact (setSkillEnabled_switches (hfits _) hskill).insert hfits
  | delete userId skillId =>
    obtain ⟨huser, hskill⟩ := haccepts
    obtain rfl := Option.some.inj hstep
    simp only [deleteUserSkill, withUserRoot_eq huser]
    exact (deleteSkill_switches (hfits _) hskill).insert hfits

theorem skillsOf_run {ops : List SkillOp} (hfits : service.Fits root)
    (hrun : Run service.step service.Accepts root ops root') :
    skillsOf root' = ops.foldl SkillOp.apply (skillsOf root) ∧ service.Fits root' ∧
      ∀ other, OneFileBelow (root.getD other ∅) → OneFileBelow (root'.getD other ∅) := by
  induction hrun with
  | nil => exact ⟨rfl, hfits, fun _ => id⟩
  | snoc _ haccepts hstep ih =>
    obtain ⟨hskills, hfits', hone⟩ := ih
    obtain ⟨hskills', hfits'', hone'⟩ := skillsOf_step hfits' haccepts hstep
    rw [List.foldl_append, ← hskills]
    exact ⟨hskills', hfits'', fun other h => hone' other (hone other h)⟩

/-! ## The answers -/

/-- What `get` answers is what the map has under the id. -/
def GetAgrees (service : SkillsService) (root : SkillsRoot) (skills : Skills)
    (userId skillId : Str) : Prop :=
  ((service.getUserSkill root userId skillId).1.map fun detail =>
      (detail.skillId, detail.enabled, detail.content)) =
    match skills (strip userId) (strip skillId) with
    | none => .error (.fileNotFound "skill not found")
    | some view => view.content.map fun content => (strip skillId, view.enabled, content)

/-- What `list` answers is all that the map has for the user, each skill once and in the order of
the lowered ids. -/
def ListAgrees (service : SkillsService) (root : SkillsRoot) (skills : Skills) (userId : Str) :
    Prop :=
  ∃ entries, (service.listUserSkills root userId).1 = .ok entries ∧
    (entries.map SkillEntry.skillId).Nodup ∧
    entries.Pairwise (fun entry entry' =>
      service.lower entry.skillId ≤ service.lower entry'.skillId) ∧
    ∀ skillId enabled, (∃ entry ∈ entries, entry.skillId = skillId ∧ entry.enabled = enabled) ↔
      (skills (strip userId) skillId).map SkillView.enabled = some enabled

theorem getAgrees_of_fits (hfits : service.Fits root) (hids : AcceptsIds userId skillId) :
    GetAgrees service root (skillsOf root) userId skillId := by
  unfold GetAgrees getUserSkill
  rw [withUserRoot_eq hids.1]
  have hbelow := hfits (strip userId)
  simp only [getSkill, validate_of_safe hids.2, skillsOf]
  split
  · rename_i dir hget
    rw [skillsBelow_directory hget]
    cases hfile : resolveSkillFile dir with
    | none => rfl
    | some file =>
      obtain ⟨-, hsize⟩ := (hbelow _ _ hget).node hfile
      simp only [if_neg (Nat.not_lt.mpr hsize), Option.map_some]
      cases hread : file.node.readText with
      | error error => simp [SkillFile.view, hread, Except.map]
      | ok content => simp [SkillFile.view, hread, Except.map]
  · rename_i hnot
    rw [skillsBelow_eq_none hnot]
    rfl

/-- The entry of a candidate, if it is a skill. -/
def entryOf (candidate : Name × UserEntry) : Option SkillEntry :=
  match candidate.2 with
  | .file => none
  | .directory dir => (resolveSkillFile dir).map fun file =>
    { skillId := candidate.1, enabled := file.enabled, size := file.node.size }

theorem buildSkillEntries_eq (candidates : List (Name × UserEntry))
    (h : ∀ name dir, (name, UserEntry.directory dir) ∈ candidates → service.FitsDir dir) :
    service.buildSkillEntries candidates = .ok (candidates.filterMap entryOf) := by
  induction candidates with
  | nil => rfl
  | cons candidate candidates ih =>
    have hrest := ih fun name dir hmem => h name dir (List.mem_cons_of_mem _ hmem)
    obtain ⟨name, entry⟩ := candidate
    cases entry with
    | file => exact hrest
    | directory dir =>
      unfold buildSkillEntries
      cases hfile : resolveSkillFile dir with
      | none =>
        rw [List.filterMap_cons_none (by simp [entryOf, hfile])]
        exact hrest
      | some file =>
        obtain ⟨-, hsize⟩ := (h name dir List.mem_cons_self).node hfile
        rw [List.filterMap_cons_some (b := { skillId := name, enabled := file.enabled
                                             size := file.node.size }) (by simp [entryOf, hfile])]
        simp only [buildSkillEntry, if_neg (Nat.not_lt.mpr hsize), hrest]
        rfl

theorem entryOf_eq_some {candidate : Name × UserEntry} {entry : SkillEntry}
    (h : entryOf candidate = some entry) : entry.skillId = candidate.1 ∧
      candidate.2.view.map SkillView.enabled = some entry.enabled := by
  obtain ⟨name, userEntry⟩ := candidate
  cases userEntry with
  | file => cases h
  | directory dir =>
    obtain ⟨file, hfile, rfl⟩ := Option.map_eq_some_iff.mp h
    refine ⟨rfl, ?_⟩
    show ((resolveSkillFile dir).map SkillFile.view).map SkillView.enabled = _
    rw [hfile]
    rfl

theorem exists_entryOf {candidate : Name × UserEntry} {enabled : Bool}
    (h : candidate.2.view.map SkillView.enabled = some enabled) :
    ∃ entry, entryOf candidate = some entry := by
  obtain ⟨name, userEntry⟩ := candidate
  cases userEntry with
  | file => cases h
  | directory dir =>
    obtain ⟨view, hview, -⟩ := Option.map_eq_some_iff.mp h
    obtain ⟨file, hfile, -⟩ := Option.map_eq_some_iff.mp hview
    exact ⟨{ skillId := name, enabled := file.enabled, size := file.node.size },
      by simp only [entryOf, hfile, Option.map_some]⟩

theorem listAgrees_of_fits (hfits : service.Fits root)
    (huser : isSafeSegment (strip userId) = true) :
    ListAgrees service root (skillsOf root) userId := by
  unfold ListAgrees listUserSkills
  rw [withUserRoot_eq huser]
  generalize hbelow : root.getD (strip userId) ∅ = userRoot
  have hmem {candidate : Name × UserEntry}
      (hcandidate : candidate ∈ service.sortedCandidates userRoot) :
      userRoot.get? candidate.1 = some candidate.2 :=
    Dict.mem_items.mp (List.mem_mergeSort.mp hcandidate)
  have hentries := buildSkillEntries_eq (service.sortedCandidates userRoot)
    fun name dir hcandidate => hfits (strip userId) name dir (hbelow ▸ hmem hcandidate)
  refine ⟨_, hentries, ?_, ?_, fun skillId enabled => ?_⟩
  · -- No name is that of two candidates.
    have hdistinct : (service.sortedCandidates userRoot).Pairwise fun candidate candidate' =>
        candidate.1 ≠ candidate'.1 := by
      have hnodup : ((service.sortedCandidates userRoot).map Prod.fst).Nodup := by
        refine ((List.mergeSort_perm _ _).map Prod.fst).nodup_iff.mpr ?_
        rw [Dict.map_fst_items]
        exact userRoot.nodup
      exact List.pairwise_map.mp hnodup
    refine List.pairwise_map.mpr (hdistinct.filterMap _ ?_)
    intro candidate candidate' hne entry hentry entry' hentry' heq
    rw [(entryOf_eq_some hentry).1, (entryOf_eq_some hentry').1] at heq
    exact hne heq
  · have hsorted : (service.sortedCandidates userRoot).Pairwise fun candidate candidate' =>
        decide (service.lower candidate.1 ≤ service.lower candidate'.1) = true := by
      refine List.pairwise_mergeSort (fun _ _ _ h h' => ?_) (fun candidate candidate' => ?_) _
      · exact decide_eq_true (le_trans (of_decide_eq_true h) (of_decide_eq_true h'))
      · rcases le_total (service.lower candidate.1) (service.lower candidate'.1) with h | h
        · simp [h]
        · simp [h]
    refine hsorted.filterMap _ ?_
    intro candidate candidate' hle entry hentry entry' hentry'
    rw [(entryOf_eq_some hentry).1, (entryOf_eq_some hentry').1]
    exact of_decide_eq_true hle
  · simp only [skillsOf, hbelow]
    constructor
    · rintro ⟨entry, hentry, rfl, rfl⟩
      obtain ⟨candidate, hcandidate, hof⟩ := List.mem_filterMap.mp hentry
      obtain ⟨hid, henabled⟩ := entryOf_eq_some hof
      rw [hid, skillsBelow, hmem hcandidate]
      exact henabled
    · intro henabled
      unfold skillsBelow at henabled
      obtain ⟨entry, hget⟩ : ∃ entry, userRoot.get? skillId = some entry := by
        cases hget : userRoot.get? skillId with
        | none =>
          rw [hget] at henabled
          cases henabled
        | some entry => exact ⟨entry, rfl⟩
      rw [hget] at henabled
      obtain ⟨skill, hof⟩ : ∃ skill, entryOf (skillId, entry) = some skill :=
        exists_entryOf henabled
      obtain ⟨hid, henabled'⟩ := entryOf_eq_some hof
      exact ⟨skill, List.mem_filterMap.mpr
        ⟨_, List.mem_mergeSort.mpr (Dict.mem_items.mpr hget), hof⟩, hid,
        Option.some.inj (henabled'.symm.trans henabled)⟩

/-- **The store refines a map.** After any accepted operations, from any state of the directories,
`get` and `list` answer as the map does that the operations lead to; and of a user whose directory
was empty, no skill has two files. -/
theorem skills_refine {ops : List SkillOp} (hfits : service.Fits root)
    (hrun : Run service.step service.Accepts root ops root') :
    (∀ userId skillId, AcceptsIds userId skillId →
      GetAgrees service root' (ops.foldl SkillOp.apply (skillsOf root)) userId skillId) ∧
    (∀ userId, isSafeSegment (strip userId) = true →
      ListAgrees service root' (ops.foldl SkillOp.apply (skillsOf root)) userId) ∧
    ∀ userId, root.getD userId ∅ = ∅ → OneFileBelow (root'.getD userId ∅) := by
  obtain ⟨hskills, hfits', hone⟩ := skillsOf_run hfits hrun
  rw [← hskills]
  refine ⟨fun _ _ hids => getAgrees_of_fits hfits' hids, fun _ huser => listAgrees_of_fits hfits' huser,
    fun userId hempty => hone userId ?_⟩
  rw [hempty]
  intro skillId dir hget
  cases hget

/-- The skill `notes` of a user has both files, the hidden one with another content. -/
def notesRoot : SkillsRoot :=
  Dict.insert ∅ "u".toList (Dict.insert ∅ "notes".toList (.directory
    ((Dict.insert ∅ skillFilename (.file (encodeUtf8 "new".toList))).insert disabledSkillFilename
      (.file (encodeUtf8 "old".toList)))))

/-- The skill is disabled, which replaces the hidden file, and then written; another one is made and
deleted. -/
def notesOps : List SkillOp :=
  [.setEnabled "u".toList "notes".toList false, .upsert "u".toList " notes ".toList "next".toList,
    .upsert "u".toList "plan".toList "x".toList, .delete "u".toList "plan".toList]

def asciiService : SkillsService := { lower := List.map Char.toLower }

theorem fits_notesRoot : asciiService.Fits notesRoot := by
  intro userId skillId dir hdir name node _ hget
  unfold notesRoot at hdir
  rw [getD_insert] at hdir
  split at hdir
  · rw [Dict.get?_insert] at hdir
    split at hdir
    · obtain rfl := UserEntry.directory.inj (Option.some.inj hdir)
      rw [Dict.get?_insert, Dict.get?_insert] at hget
      split at hget
      · obtain rfl := Option.some.inj hget
        exact ⟨rfl, by decide⟩
      · split at hget
        · obtain rfl := Option.some.inj hget
          exact ⟨rfl, by decide⟩
        · cases hget
    · cases hdir
  · cases hdir

theorem skills_refine_notes : ∃ root', Run asciiService.step asciiService.Accepts notesRoot notesOps
      root' ∧
    GetAgrees asciiService root' (notesOps.foldl SkillOp.apply (skillsOf notesRoot)) "u".toList
      "notes".toList := by
  have hrun : Run asciiService.step asciiService.Accepts notesRoot notesOps _ :=
    .of_execute (by decide)
  exact ⟨_, hrun, (skills_refine fits_notesRoot hrun).1 _ _ ⟨by decide, by decide⟩⟩

end SkillsService

end Portex
