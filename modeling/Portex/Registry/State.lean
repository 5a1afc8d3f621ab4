import Portex.Foundation.Table

/-!
# The state of the group registry

The tables `registered_groups`, `group_members` and `conversation_slots`, and the strings that
identify their rows.

## Main definitions

* `RegisteredGroup`, `GroupMember`, `ConversationSlot`: the rows
* `Registry`: the database of the registry
* `isBlank`, `isSlug`, `startsWith`: the tests the services make on strings
-/

namespace Portex

open Foundation

structure RegisteredGroup where
  jid : String
  name : String
  folder : String
  addedAt : ℕ
  createdBy : Option String := none
  isHome : Bool := false
  targetWorkspaceJid : Option String := none
  deriving DecidableEq

structure GroupMember where
  groupFolder : String
  userId : String
  role : String
  joinedAt : ℕ
  addedBy : Option String := none
  deriving DecidableEq

/-- The primary key of `group_members`. -/
def GroupMember.key (member : GroupMember) : String × String := (member.groupFolder, member.userId)

structure ConversationSlot where
  workspaceFolder : String
  slotId : String
  title : String
  createdBy : Option String := none
  createdAt : ℕ
  deriving DecidableEq

/-- The primary key of `conversation_slots`. -/
def ConversationSlot.key (slot : ConversationSlot) : String × String :=
  (slot.workspaceFolder, slot.slotId)

structure Registry where
  groups : Table RegisteredGroup.jid := ∅
  members : Table GroupMember.key := ∅
  slots : Table ConversationSlot.key := ∅
  /-- The clock. -/
  now : ℕ := 0

/-! ## Strings -/

/-- `string.startswith(start)`. -/
def startsWith (string start : String) : Bool := start.toList.isPrefixOf string.toList

/-- The characters that `str.strip` strips. -/
def isSpace (ch : Char) : Bool :=
  (9 ≤ ch.toNat && ch.toNat ≤ 13) || (28 ≤ ch.toNat && ch.toNat ≤ 32) ||
    ch.toNat ∈ [0x85, 0xA0, 0x1680, 0x2028, 0x2029, 0x202F, 0x205F, 0x3000] ||
      (0x2000 ≤ ch.toNat && ch.toNat ≤ 0x200A)

/-- `text.strip(chars)`, for the characters that satisfy `p`. -/
def stripBy (p : Char → Bool) (text : List Char) : List Char :=
  ((text.dropWhile p).reverse.dropWhile p).reverse

/-- `text.strip()`. -/
def strip (text : List Char) : List Char := stripBy isSpace text

/-- `string.strip() == ""`. -/
def isBlank (string : String) : Bool := string.toList.all isSpace

/-- A character of `[a-z0-9]`. -/
def isSlugChar (ch : Char) : Bool := ch.isLower || ch.isDigit

/-- `^[a-z0-9][a-z0-9-]*$`, the pattern of workspace folders and slot ids. -/
def isSlug (string : String) : Bool :=
  match string.toList with
  | [] => false
  | ch :: rest => isSlugChar ch && rest.all fun ch => isSlugChar ch || ch == '-'

theorem isAlphanum_of_isSlugChar {ch : Char} (h : isSlugChar ch = true) : ch.isAlphanum = true := by
  have halphanum : ch.isAlphanum = (ch.isUpper || ch.isLower || ch.isDigit) := rfl
  rw [halphanum]
  rcases Bool.or_eq_true_iff.mp h with hlower | hdigit
  · rw [hlower, Bool.or_true, Bool.true_or]
  · rw [hdigit, Bool.or_true]

/-! ### Stripping -/

theorem not_isAlphanum_of_isSpace {ch : Char} (h : isSpace ch = true) :
    ch.isAlpha = false ∧ ch.isDigit = false := by
  simp only [isSpace, Bool.or_eq_true, Bool.and_eq_true, decide_eq_true_eq, List.mem_cons,
    List.not_mem_nil, or_false] at h
  constructor
  · by_contra halpha
    -- A letter is in one of two ranges, and no space is in either.
    have hranges :
        (65 ≤ ch.toNat ∧ ch.toNat ≤ 90) ∨ (97 ≤ ch.toNat ∧ ch.toNat ≤ 122) := by
      have hletter : (ch.isUpper || ch.isLower) = true := eq_true_of_ne_false halpha
      rcases Bool.or_eq_true_iff.mp hletter with hupper | hlower
      · have hboth : decide (ch.val ≥ 'A'.val ∧ ch.val ≤ 'Z'.val) = true := hupper
        rw [decide_eq_true_eq] at hboth
        exact .inl ⟨UInt32.le_iff_toNat_le.mp hboth.1, UInt32.le_iff_toNat_le.mp hboth.2⟩
      · have hboth : (decide (ch.val ≥ 97) && decide (ch.val ≤ 122)) = true := hlower
        rw [Bool.and_eq_true, decide_eq_true_eq, decide_eq_true_eq] at hboth
        exact .inr ⟨UInt32.le_iff_toNat_le.mp hboth.1, UInt32.le_iff_toNat_le.mp hboth.2⟩
    omega
  · rw [Bool.eq_false_iff]
    intro hdigit
    obtain ⟨hlow, hhigh⟩ := Char.isDigit_iff_toNat.mp hdigit
    simp only [Char.reduceToNat] at hlow hhigh
    omega

variable {p : Char → Bool}

theorem head?_dropWhile (text : List Char) : ∀ ch ∈ (text.dropWhile p).head?, p ch = false := by
  induction text with
  | nil => simp
  | cons ch text ih =>
    rw [List.dropWhile_cons]
    split
    · exact ih
    · rename_i hch
      rintro _ ⟨⟩
      exact Bool.eq_false_iff.mpr hch

theorem dropWhile_eq_self {text : List Char} (h : ∀ ch ∈ text.head?, p ch = false) :
    text.dropWhile p = text := by
  cases text with
  | nil => rfl
  | cons ch text => simp [h ch rfl]

/-- Neither end of the text is stripped. -/
theorem stripBy_eq_self {text : List Char} (hhead : ∀ ch ∈ text.head?, p ch = false)
    (hlast : ∀ ch ∈ text.getLast?, p ch = false) : stripBy p text = text := by
  rw [stripBy, dropWhile_eq_self hhead, dropWhile_eq_self (by rwa [List.head?_reverse]),
    List.reverse_reverse]

theorem getLast?_stripBy (text : List Char) : ∀ ch ∈ (stripBy p text).getLast?, p ch = false := by
  rw [stripBy, List.getLast?_reverse]
  exact head?_dropWhile _

theorem head?_stripBy (text : List Char) : ∀ ch ∈ (stripBy p text).head?, p ch = false := by
  have hinitial : stripBy p text <+: text.dropWhile p := by
    have hsuffix := List.dropWhile_suffix (l := (text.dropWhile p).reverse) p
    have hreverse := List.reverse_prefix.mpr hsuffix
    rwa [List.reverse_reverse] at hreverse
  intro ch hch
  obtain ⟨rest, hrest⟩ := hinitial
  refine head?_dropWhile text ch ?_
  rw [← hrest, List.head?_append, hch]
  rfl

/-- **Stripping is idempotent.** -/
theorem stripBy_stripBy (text : List Char) : stripBy p (stripBy p text) = stripBy p text :=
  stripBy_eq_self (head?_stripBy text) (getLast?_stripBy text)

theorem strip_strip (text : List Char) : strip (strip text) = strip text := stripBy_stripBy text

theorem stripBy_eq_self_of_forall {text : List Char} (h : ∀ ch ∈ text, p ch = false) :
    stripBy p text = text :=
  stripBy_eq_self (fun ch hch => h ch (List.mem_of_mem_head? hch))
    fun ch hch => h ch (List.mem_of_mem_getLast? hch)

theorem startsWith_append (start string : String) : startsWith (start ++ string) start = true := by
  simp [startsWith]

end Portex
