import Portex.Exec.Directories
import Portex.Coordinator.SessionStore
import Portex.Foundation.Segments

/-!
# The names of containers

A container is started, and later stopped, by a name that is made of the group folder and of the
session id. Both parts lose the hyphens at their ends, and the parts are joined with hyphens, of
which they may hold some themselves. So two slots of a workspace share a name when they differ in
the hyphens at their ends only, and two workspaces do when the slot of one spells out the other.

## Main definitions

* `sanitizeContainerNameSegment`, `buildContainerName`: the name
* `withoutHyphens`: a text without the hyphens at its end
* `SpellsOut`: the slot of a workspace spells out a slot of another one
* `NamedApart`: the condition for different names

## Main results

* `slotContainerName_eq`: the name of a slot
* `slotContainerName_ne_iff`: the names are different exactly under the condition
-/

namespace Portex

open Foundation

/-! ## The name -/

/-- A character that `[^A-Za-z0-9_.-]+` does not match. -/
def isNameChar (ch : Char) : Bool := ch.isAlphanum || ch == '_' || ch == '.' || ch == '-'

/-- `_CONTAINER_NAME_SEGMENT.sub("-", value)`; the flag tells whether a match goes on. -/
def substituteRuns : Bool → List Char → List Char
  | _, [] => []
  | inRun, ch :: rest =>
    if isNameChar ch then ch :: substituteRuns false rest
    else if inRun then substituteRuns true rest
    else '-' :: substituteRuns true rest

def sanitizeContainerNameSegment (value default : List Char) : List Char :=
  let sanitized := stripBy (fun ch => ch = '-' || ch = '.') (substituteRuns false value)
  if sanitized = [] then default else sanitized

/-- `CONTAINER_NAME_PREFIX`. -/
def containerNamePrefix : List Char := "portex-agent".toList

def buildContainerName (groupFolder : String) (sessionId : Option String) : List Char :=
  let safeGroup := sanitizeContainerNameSegment groupFolder.toList "group".toList
  let safeSession := sanitizeContainerNameSegment (sessionId.getD "").toList []
  if safeSession ≠ [] then containerNamePrefix ++ '-' :: safeGroup ++ '-' :: safeSession
  else containerNamePrefix ++ '-' :: safeGroup

/-- The name for the first run of a slot, whose session id is the key of the workspace. -/
def slotContainerName (groupFolder slotId : String) : List Char :=
  buildContainerName groupFolder (some (buildSlotWorkspaceKey groupFolder slotId))

/-! ## When names are different -/

/-- The text without the hyphens at its end. -/
def withoutHyphens (text : String) : List Char := text.toList.rdropWhile (· = '-')

/-- The folder and the slot, as they stand in the name. -/
def slotPart (groupFolder slotId : String) : List Char :=
  groupFolder.toList ++ "-slot-".toList ++ withoutHyphens slotId

/-- The second folder goes on where the first one ends, and the first slot repeats how it goes on,
the second folder and the second slot. -/
def SpellsOut (groupFolder slotId groupFolder' slotId' : String) : Prop :=
  ∃ rest, withoutHyphens groupFolder' = withoutHyphens groupFolder ++ '-' :: rest ∧
    slotPart groupFolder slotId = rest ++ '-' :: slotPart groupFolder' slotId'

/-- The slots of a workspace differ in more than the hyphens at their ends, and neither pair spells
out the other one. -/
structure NamedApart (groupFolder slotId groupFolder' slotId' : String) : Prop where
  slots : groupFolder = groupFolder' → withoutHyphens slotId ≠ withoutHyphens slotId'
  notSpelled : ¬ SpellsOut groupFolder slotId groupFolder' slotId'
  notSpelled' : ¬ SpellsOut groupFolder' slotId' groupFolder slotId

/-! ### Trailing hyphens -/

variable {xs : List Char} {text : String}

/-- A text without periods that does not begin with a hyphen. -/
theorem stripBy_eq_rdropWhile {ch : Char} {rest : List Char} (hhead : ch ≠ '-')
    (hperiod : '.' ∉ ch :: rest) :
    stripBy (fun ch => ch = '-' || ch = '.') (ch :: rest) = (ch :: rest).rdropWhile (· = '-') := by
  have hkept : (decide (ch = '-') || decide (ch = '.')) = false := by
    have hne : ch ≠ '.' := fun h => hperiod (h ▸ List.mem_cons_self)
    simp [hhead, hne]
  unfold stripBy List.rdropWhile
  rw [List.dropWhile_cons, if_neg (by simp [hkept])]
  congr 1
  apply dropWhile_congr
  intro c hc
  have hne : c ≠ '.' := fun h => hperiod (h ▸ List.mem_reverse.mp hc)
  simp [hne]

theorem withoutHyphens_append_hyphens (text : String) :
    ∃ hyphens, text.toList = withoutHyphens text ++ hyphens ∧ ∀ ch ∈ hyphens, ch = '-' := by
  refine ⟨text.toList.rtakeWhile (· = '-'), List.rdropWhile_append_rtakeWhile.symm,
    fun ch hch => ?_⟩
  have hdash := List.mem_rtakeWhile_imp hch
  simpa using hdash

/-! ### Slugs -/

theorem isNameChar_of_isSlugChar {ch : Char} (h : isSlugChar ch = true ∨ ch = '-') :
    isNameChar ch = true ∧ ch ≠ '.' := by
  rcases h with h | rfl
  · constructor
    · simp [isNameChar, isAlphanum_of_isSlugChar h]
    · rintro rfl
      exact absurd h (by decide)
  · decide

/-- What a folder or a slot id is made of. -/
theorem isSlug_cons (h : isSlug text = true) : ∃ ch rest, text.toList = ch :: rest ∧ ch ≠ '-' ∧
    ∀ c ∈ ch :: rest, isNameChar c = true ∧ c ≠ '.' := by
  obtain ⟨ch, rest, hcons, hch, hrest⟩ := isSlug_iff.mp h
  refine ⟨ch, rest, hcons, ?_, fun c hc => isNameChar_of_isSlugChar ?_⟩
  · rintro rfl
    exact absurd hch (by decide)
  · rcases List.mem_cons.mp hc with rfl | hc
    · exact .inl hch
    · exact hrest c hc

theorem substituteRuns_append (h : ∀ ch ∈ xs, isNameChar ch = true) (ys : List Char) :
    substituteRuns false (xs ++ ys) = xs ++ substituteRuns false ys := by
  induction xs with
  | nil => rfl
  | cons ch xs ih =>
    rw [List.cons_append, substituteRuns, if_pos (h ch List.mem_cons_self),
      ih fun c hc => h c (List.mem_cons_of_mem ch hc), List.cons_append]

theorem substituteRuns_eq_self (h : ∀ ch ∈ xs, isNameChar ch = true) :
    substituteRuns false xs = xs := by
  have happend := substituteRuns_append h []
  rwa [List.append_nil, substituteRuns, List.append_nil] at happend

theorem withoutHyphens_ne_nil (h : isSlug text = true) : withoutHyphens text ≠ [] := by
  obtain ⟨ch, rest, hcons, hch, -⟩ := isSlug_cons h
  intro hnil
  have hall := List.rdropWhile_eq_nil_iff.mp hnil ch (by rw [hcons]; exact List.mem_cons_self)
  exact hch (by simpa using hall)

theorem sanitize_folder (h : isSlug text = true) (default : List Char) :
    sanitizeContainerNameSegment text.toList default = withoutHyphens text := by
  obtain ⟨ch, rest, hcons, hch, hrest⟩ := isSlug_cons h
  have hstrip : stripBy (fun ch => ch = '-' || ch = '.') (substituteRuns false text.toList) =
      withoutHyphens text := by
    rw [hcons, substituteRuns_eq_self fun c hc => (hrest c hc).1,
      stripBy_eq_rdropWhile hch fun hmem => (hrest _ hmem).2 rfl, withoutHyphens, hcons]
  unfold sanitizeContainerNameSegment
  rw [hstrip, if_neg (withoutHyphens_ne_nil h)]

theorem sanitize_key {groupFolder slotId : String} (hfolder : isSlug groupFolder = true)
    (hslot : isSlug slotId = true) (default : List Char) :
    sanitizeContainerNameSegment (buildSlotWorkspaceKey groupFolder slotId).toList default =
      slotPart groupFolder slotId := by
  obtain ⟨ch, rest, hcons, hch, hrest⟩ := isSlug_cons hfolder
  obtain ⟨ch', rest', hcons', hch', hrest'⟩ := isSlug_cons hslot
  have hkey : (buildSlotWorkspaceKey groupFolder slotId).toList =
      groupFolder.toList ++ '#' :: ("slot".toList ++ ':' :: slotId.toList) := by
    simp [buildSlotWorkspaceKey]
  -- The two marks are replaced, each of them by a hyphen.
  have hsub : substituteRuns false (buildSlotWorkspaceKey groupFolder slotId).toList =
      groupFolder.toList ++ ("-slot-".toList ++ slotId.toList) := by
    rw [hkey, substituteRuns_append fun c hc => (hrest c (hcons ▸ hc)).1]
    have hslotId := substituteRuns_eq_self fun c hc => (hrest' c (hcons' ▸ hc)).1
    have hstart : substituteRuns true (ch' :: rest') = ch' :: rest' := by
      rw [← hcons']
      rw [hcons'] at hslotId ⊢
      have hname := (hrest' ch' List.mem_cons_self).1
      rw [substituteRuns, if_pos hname] at hslotId ⊢
      exact hslotId
    show groupFolder.toList ++ '-' :: 's' :: 'l' :: 'o' :: 't' :: '-' ::
      substituteRuns true slotId.toList = _
    rw [hcons', hstart]
    rfl
  have hstrip : stripBy (fun ch => ch = '-' || ch = '.')
      (groupFolder.toList ++ ("-slot-".toList ++ slotId.toList)) = slotPart groupFolder slotId := by
    have hperiod : '.' ∉ ch :: (rest ++ ("-slot-".toList ++ slotId.toList)) := by
      intro hmem
      rw [← List.cons_append] at hmem
      rcases List.mem_append.mp hmem with hmem | hmem
      · exact (hrest _ hmem).2 rfl
      · rcases List.mem_append.mp hmem with hmem | hmem
        · exact absurd hmem (by decide)
        · exact (hrest' _ (hcons' ▸ hmem)).2 rfl
    have hmem : ch' ∈ slotId.toList := by
      rw [hcons']
      exact List.mem_cons_self
    rw [hcons, List.cons_append, stripBy_eq_rdropWhile hch hperiod, ← List.cons_append, ← hcons,
      ← List.append_assoc, rdropWhile_append_of_mem hmem (by simp [hch'])]
    rfl
  have hne : slotPart groupFolder slotId ≠ [] := by
    unfold slotPart
    rw [hcons]
    exact List.cons_ne_nil _ _
  unfold sanitizeContainerNameSegment
  rw [hsub, hstrip, if_neg hne]

/-- **The name of a slot.** -/
theorem slotContainerName_eq {groupFolder slotId : String} (hfolder : isSlug groupFolder = true)
    (hslot : isSlug slotId = true) : slotContainerName groupFolder slotId =
      containerNamePrefix ++ '-' :: (withoutHyphens groupFolder ++
        '-' :: slotPart groupFolder slotId) := by
  have hne : slotPart groupFolder slotId ≠ [] := by simp [slotPart]
  unfold slotContainerName buildContainerName
  simp only [Option.getD_some, sanitize_folder hfolder, sanitize_key hfolder hslot, ne_eq, hne,
    not_false_eq_true, if_true, List.append_assoc, List.cons_append]

/-! ## Two names -/

variable {groupFolder slotId groupFolder' slotId' : String}

/-- Hyphens in front of `-slot-` can be counted. -/
theorem hyphens_slot_inj {hyphens hyphens' rest rest' : List Char}
    (h : ∀ ch ∈ hyphens, ch = '-') (h' : ∀ ch ∈ hyphens', ch = '-')
    (heq : hyphens ++ ("-slot-".toList ++ rest) = hyphens' ++ ("-slot-".toList ++ rest')) :
    hyphens = hyphens' ∧ rest = rest' := by
  induction hyphens generalizing hyphens' with
  | nil =>
    cases hyphens' with
    | nil => exact ⟨rfl, List.append_cancel_left heq⟩
    | cons ch hyphens' =>
      -- After its first hyphen, one text goes on with `s` and the other one with a hyphen.
      have hnext := (List.cons.inj heq).2
      cases hyphens' with
      | nil => cases hnext
      | cons ch' hyphens' =>
        have hdash := h' ch' (by simp)
        have hs : 's' = ch' := (List.cons.inj hnext).1
        rw [← hs] at hdash
        exact absurd hdash (by decide)
  | cons ch hyphens ih =>
    cases hyphens' with
    | nil =>
      have hnext := (List.cons.inj heq).2
      cases hyphens with
      | nil => cases hnext
      | cons ch' hyphens =>
        have hdash := h ch' (by simp)
        have hs : ch' = 's' := (List.cons.inj hnext).1
        rw [hs] at hdash
        exact absurd hdash (by decide)
    | cons ch' hyphens' =>
      obtain ⟨hhead, htail⟩ := List.cons.inj heq
      obtain ⟨htrailing, hrest⟩ := ih (fun c hc => h c (List.mem_cons_of_mem _ hc))
        (fun c hc => h' c (List.mem_cons_of_mem _ hc)) htail
      exact ⟨by rw [hhead, htrailing], hrest⟩

/-- Folders that are the same up to the hyphens at their ends. -/
theorem slotPart_inj (htrimmed : withoutHyphens groupFolder = withoutHyphens groupFolder')
    (h : slotPart groupFolder slotId = slotPart groupFolder' slotId') :
    groupFolder = groupFolder' ∧ withoutHyphens slotId = withoutHyphens slotId' := by
  obtain ⟨hyphens, htext, hhyphens⟩ := withoutHyphens_append_hyphens groupFolder
  obtain ⟨hyphens', htext', hhyphens'⟩ := withoutHyphens_append_hyphens groupFolder'
  unfold slotPart at h
  rw [htext, htext', htrimmed, List.append_assoc, List.append_assoc, List.append_assoc,
    List.append_assoc] at h
  obtain ⟨rfl, hslot⟩ := hyphens_slot_inj hhyphens hhyphens' (List.append_cancel_left h)
  exact ⟨String.toList_inj.mp (by rw [htext, htext', htrimmed]), hslot⟩

/-- **Two slots share a name** when they are the same up to hyphens, or one spells out the other. -/
theorem slotContainerName_inj_iff (hfolder : isSlug groupFolder = true)
    (hslot : isSlug slotId = true) (hfolder' : isSlug groupFolder' = true)
    (hslot' : isSlug slotId' = true) :
    slotContainerName groupFolder slotId = slotContainerName groupFolder' slotId' ↔
      (groupFolder = groupFolder' ∧ withoutHyphens slotId = withoutHyphens slotId') ∨
        SpellsOut groupFolder slotId groupFolder' slotId' ∨
          SpellsOut groupFolder' slotId' groupFolder slotId := by
  rw [slotContainerName_eq hfolder hslot, slotContainerName_eq hfolder' hslot',
    List.append_cancel_left_eq, List.cons.injEq, and_iff_right rfl]
  constructor
  · intro h
    -- One of the folders ends within the other one, or they end at the same place.
    rcases List.append_eq_append_iff.mp h with ⟨rest, hrest, htail⟩ | ⟨rest, hrest, htail⟩
    · cases rest with
      | nil =>
        rw [List.append_nil] at hrest
        exact .inl (slotPart_inj hrest.symm (List.cons.inj htail).2)
      | cons ch rest =>
        obtain ⟨rfl, hspelled⟩ := List.cons.inj htail
        exact .inr (.inl ⟨rest, hrest, hspelled⟩)
    · cases rest with
      | nil =>
        rw [List.append_nil] at hrest
        obtain ⟨hsame, htrimmed⟩ := slotPart_inj hrest.symm (List.cons.inj htail).2
        exact .inl ⟨hsame.symm, htrimmed.symm⟩
      | cons ch rest =>
        obtain ⟨rfl, hspelled⟩ := List.cons.inj htail
        exact .inr (.inr ⟨rest, hrest, hspelled⟩)
  · rintro (⟨rfl, htrimmed⟩ | ⟨rest, hrest, htail⟩ | ⟨rest, hrest, htail⟩)
    · rw [slotPart, slotPart, htrimmed]
    · rw [hrest, htail]
      simp
    · rw [hrest, htail]
      simp

/-- **Names are different** exactly for slots that are named apart. -/
theorem slotContainerName_ne_iff
    (hfolder : Registry.validateWorkspaceFolder groupFolder = .ok ())
    (hslot : isSlug slotId = true)
    (hfolder' : Registry.validateWorkspaceFolder groupFolder' = .ok ())
    (hslot' : isSlug slotId' = true) :
    slotContainerName groupFolder slotId ≠ slotContainerName groupFolder' slotId' ↔
      NamedApart groupFolder slotId groupFolder' slotId' := by
  have hiff := slotContainerName_inj_iff (isSlug_of_validateWorkspaceFolder hfolder) hslot
    (isSlug_of_validateWorkspaceFolder hfolder') hslot'
  rw [ne_eq, hiff]
  constructor
  · intro h
    exact ⟨fun hsame htrimmed => h (.inl ⟨hsame, htrimmed⟩),
      fun hspelled => h (.inr (.inl hspelled)), fun hspelled => h (.inr (.inr hspelled))⟩
  · rintro ⟨hslots, hnot, hnot'⟩ (⟨hsame, htrimmed⟩ | hspelled | hspelled)
    · exact hslots hsame htrimmed
    · exact hnot hspelled
    · exact hnot' hspelled

theorem slotContainerName_ne_iff_alpha : NamedApart "alpha" "b" "beta" "b" :=
  (slotContainerName_ne_iff rfl (by decide) rfl (by decide)).mp (by decide)

/-- A folder that does not go on where the other one ends cannot be spelled out. -/
theorem not_spellsOut (h : ¬ withoutHyphens groupFolder ++ ['-'] <+: groupFolder'.toList) :
    ¬ SpellsOut groupFolder slotId groupFolder' slotId' := by
  rintro ⟨rest, hrest, -⟩
  apply h
  obtain ⟨hyphens, htext, -⟩ := withoutHyphens_append_hyphens groupFolder'
  exact ⟨rest ++ hyphens, by rw [htext, hrest]; simp⟩

/-- The names of different slots are different. -/
def NamesUnique : Prop :=
  ∀ groupFolder slotId groupFolder' slotId',
    Registry.validateWorkspaceFolder groupFolder = .ok () → isSlug slotId = true →
    Registry.validateWorkspaceFolder groupFolder' = .ok () → isSlug slotId' = true →
      (groupFolder, slotId) ≠ (groupFolder', slotId') →
        slotContainerName groupFolder slotId ≠ slotContainerName groupFolder' slotId'

/-- Two slots of a workspace share a name, and so do slots of two workspaces. -/
theorem not_namesUnique : ¬ NamesUnique ∧
    slotContainerName "alpha" "b" = slotContainerName "alpha" "b-" ∧
      slotContainerName "a" "b-a-a-slot-b-slot-x" = slotContainerName "a-a-slot-b" "x" := by
  refine ⟨fun h => ?_, by decide, by decide⟩
  exact h "alpha" "b" "alpha" "b-" rfl (by decide) rfl (by decide) (by decide) (by decide)

end Portex
