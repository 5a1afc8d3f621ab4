import Portex.Foundation.Partition
import Portex.Terminal.MatchKinds

/-!
# The separators of plain exact tags

What follows a plain exact tag is put into one of six classes, each by a scanner of its own. Behind
the closing bracket a plain exact tag has nothing or whitespace, and its class is a matter of the
first two characters there and of whether the line goes on.

## Main definitions

* `Separator`, `Whitespace.separatorOf`: the classes, and that of what follows a tag
* `Whitespace.isPlainExactTag`: the exact tags that are no markers
* `Whitespace.isSeparatorMatch`: the predicate of each class

## Main results

* `Whitespace.isSeparatorMatch_eq`: each scanner accepts its class
* `Whitespace.separators_partition`: the classes partition the plain exact tags
-/

namespace Portex

open Foundation

/-- The classes of separators. -/
inductive Separator
  | payloadless | singleSpace | tabPrefixed | multiSpace | spacePrefixedMixed | otherLeading
  deriving DecidableEq

def Separator.all : List Separator :=
  [.payloadless, .singleSpace, .tabPrefixed, .multiSpace, .spacePrefixedMixed, .otherLeading]

theorem slice_add (text : List Char) (start count : ℕ) :
    slice text start (start + count) = (text.drop start).take count := by
  rw [slice, List.drop_take, Nat.add_sub_cancel_left]

namespace Whitespace

variable (w : Whitespace)

/-- An exact tag that is no marker. -/
def isPlainExactTag (text : List Char) (offset queryLength : ℕ) : Bool :=
  w.isLineStartExactTagMatch text offset queryLength &&
    !w.isLineStartExactTagMarkerMatch text offset queryLength

/-- The class of what follows a tag. -/
def separatorOf (after : List Char) : Separator :=
  if w.blankToLineEnd after then .payloadless
  else if after.take 1 = ['\t'] then .tabPrefixed
  else if after.take 1 ≠ [' '] then .otherLeading
  else if (after.drop 1).take 1 = [' '] then .multiSpace
  else if w.isSpaceText ((after.drop 1).take 1) then .spacePrefixedMixed
  else .singleSpace

/-- The predicate of each class. -/
def isSeparatorMatch : Separator → List Char → ℕ → ℕ → Bool
  | .payloadless => w.isLineStartPlainExactTagPayloadlessSeparatorMatch
  | .singleSpace => w.isLineStartPlainExactTagSingleSpaceSeparatorMatch
  | .tabPrefixed => w.isLineStartPlainExactTagTabPrefixedPayloadMatch
  | .multiSpace => w.isLineStartPlainExactTagMultiSpacePayloadMatch
  | .spacePrefixedMixed => w.isLineStartPlainExactTagSpacePrefixedMixedWhitespacePayloadMatch
  | .otherLeading => w.isLineStartPlainExactTagOtherLeadingWhitespacePayloadMatch

variable {w} {text : List Char} {offset queryLength : ℕ}

/-! ## What follows a tag -/

theorem payloadToLineEnd_eq (after : List Char) :
    w.payloadToLineEnd after = !w.blankToLineEnd after := by
  induction after with
  | nil => rfl
  | cons char rest ih =>
    unfold payloadToLineEnd blankToLineEnd
    split
    · rfl
    · split
      · rfl
      · exact ih

theorem slice_separator (text : List Char) (i count : ℕ) :
    slice text (i + count) (i + count + 1) = ((text.drop i).drop count).take 1 := by
  rw [slice_add, List.drop_drop]

/-- Behind a plain exact tag there is nothing or whitespace. -/
theorem isSpace_of_plain (h : w.isPlainExactTag text offset queryLength = true) {first : Char}
    {rest : List Char} (hafter : text.drop (offset + queryLength + 1) = first :: rest) :
    w.isSpace first = true := by
  rw [isPlainExactTag, Bool.and_eq_true, Bool.not_eq_true'] at h
  obtain ⟨hexact, hmarker⟩ := h
  have hfirst : text[offset + queryLength + 1]? = some first := by
    rw [← List.head?_drop, hafter]
    rfl
  by_contra hspace
  rw [isLineStartExactTagMarkerMatch, hexact] at hmarker
  simp only [slice_add, slice_separator, hafter, Bool.not_true, Bool.false_eq_true,
    if_false] at hmarker
  unfold isLineStartExactTagMatch at hexact
  split at hexact
  · cases hexact
  · simp only [hfirst, hspace, if_false, slice_add, slice_separator, hafter] at hexact
    split at hexact
    · -- A colon makes it a marker.
      rename_i hcolon
      rw [List.drop_one, List.tail_cons] at hexact
      simp [hcolon, hexact] at hmarker
    · split at hexact
      · -- A dash has a space before it.
        rename_i hdash
        obtain rfl : first = ' ' := by
          cases rest with
          | nil => simp at hdash
          | cons second rest => simpa using congrArg List.head? hdash
        exact hspace w.space
      · cases hexact

/-! ## The scanners -/

/-- No scanner accepts anything but a plain exact tag. -/
theorem isSeparatorMatch_of_not_plain (h : w.isPlainExactTag text offset queryLength = false)
    (kind : Separator) : w.isSeparatorMatch kind text offset queryLength = false := by
  have hcases : w.isLineStartExactTagMatch text offset queryLength = false ∨
      w.isLineStartExactTagMarkerMatch text offset queryLength = true := by
    simpa [isPlainExactTag, or_iff_not_imp_left] using h
  rcases hcases with hexact | hmarker
  · cases kind <;> simp [isSeparatorMatch, isLineStartPlainExactTagPayloadlessSeparatorMatch,
      isLineStartPlainExactTagSingleSpaceSeparatorMatch,
      isLineStartPlainExactTagTabPrefixedPayloadMatch,
      isLineStartPlainExactTagMultiSpacePayloadMatch,
      isLineStartPlainExactTagSpacePrefixedMixedWhitespacePayloadMatch,
      isLineStartPlainExactTagOtherLeadingWhitespacePayloadMatch, hexact]
  · cases kind <;> simp [isSeparatorMatch, isLineStartPlainExactTagPayloadlessSeparatorMatch,
      isLineStartPlainExactTagSingleSpaceSeparatorMatch,
      isLineStartPlainExactTagTabPrefixedPayloadMatch,
      isLineStartPlainExactTagMultiSpacePayloadMatch,
      isLineStartPlainExactTagSpacePrefixedMixedWhitespacePayloadMatch,
      isLineStartPlainExactTagOtherLeadingWhitespacePayloadMatch, hmarker]

section Plain

variable (hexact : w.isLineStartExactTagMatch text offset queryLength = true)
  (hmarker : w.isLineStartExactTagMarkerMatch text offset queryLength = false)
  {after : List Char} (hafter : text.drop (offset + queryLength + 1) = after)

include hexact hmarker hafter

theorem payloadless_eq :
    w.isLineStartPlainExactTagPayloadlessSeparatorMatch text offset queryLength =
      w.blankToLineEnd after := by
  simp only [isLineStartPlainExactTagPayloadlessSeparatorMatch, hexact, hmarker, hafter,
    Bool.not_true, Bool.false_eq_true, if_false]
  split
  · -- The source answers at the end of the text without the loop.
    rename_i hend
    rw [← hafter, List.drop_eq_nil_iff.mpr hend]
    rfl
  · rfl

theorem singleSpace_eq :
    w.isLineStartPlainExactTagSingleSpaceSeparatorMatch text offset queryLength =
      (after.take 1 = [' '] && (after.drop 1).take 1 ≠ [] &&
        !w.isSpaceText ((after.drop 1).take 1)) := by
  simp only [isLineStartPlainExactTagSingleSpaceSeparatorMatch, hexact, hmarker, slice_add,
    slice_separator, hafter]
  by_cases hfirst : after.take 1 = [' '] <;> simp [hfirst]

theorem tabPrefixed_eq : w.isLineStartPlainExactTagTabPrefixedPayloadMatch text offset queryLength =
    (!w.blankToLineEnd after && after.take 1 = ['\t']) := by
  simp only [isLineStartPlainExactTagTabPrefixedPayloadMatch,
    payloadless_eq hexact hmarker hafter, hexact, hmarker, slice_add, hafter, payloadToLineEnd_eq]
  cases w.blankToLineEnd after <;> simp

theorem multiSpace_eq : w.isLineStartPlainExactTagMultiSpacePayloadMatch text offset queryLength =
    (!w.blankToLineEnd after && after.take 1 = [' '] && (after.drop 1).take 1 = [' ']) := by
  simp only [isLineStartPlainExactTagMultiSpacePayloadMatch,
    payloadless_eq hexact hmarker hafter, tabPrefixed_eq hexact hmarker hafter, hexact, hmarker,
    slice_add, slice_separator, hafter, payloadToLineEnd_eq]
  cases w.blankToLineEnd after <;> by_cases hfirst : after.take 1 = [' '] <;> simp [hfirst]

theorem spacePrefixedMixed_eq :
    w.isLineStartPlainExactTagSpacePrefixedMixedWhitespacePayloadMatch text offset queryLength =
      (!w.blankToLineEnd after && after.take 1 = [' '] && (after.drop 1).take 1 ≠ [] &&
        w.isSpaceText ((after.drop 1).take 1) && (after.drop 1).take 1 ≠ [' ']) := by
  simp only [isLineStartPlainExactTagSpacePrefixedMixedWhitespacePayloadMatch,
    payloadless_eq hexact hmarker hafter, tabPrefixed_eq hexact hmarker hafter,
    multiSpace_eq hexact hmarker hafter, hexact, hmarker, slice_add, slice_separator, hafter,
    payloadToLineEnd_eq]
  cases w.blankToLineEnd after <;> by_cases hfirst : after.take 1 = [' '] <;> simp [hfirst]

theorem otherLeading_eq :
    w.isLineStartPlainExactTagOtherLeadingWhitespacePayloadMatch text offset queryLength =
      (!w.blankToLineEnd after && w.isSpaceText (after.take 1) && after.take 1 ≠ [' '] &&
        after.take 1 ≠ ['\t']) := by
  simp only [isLineStartPlainExactTagOtherLeadingWhitespacePayloadMatch,
    payloadless_eq hexact hmarker hafter, tabPrefixed_eq hexact hmarker hafter,
    multiSpace_eq hexact hmarker hafter, spacePrefixedMixed_eq hexact hmarker hafter, hexact,
    hmarker, slice_add, hafter, payloadToLineEnd_eq]
  have hempty : w.isSpaceText (after.take 1) = true → after ≠ [] := by
    rintro hspace rfl
    cases hspace
  cases w.blankToLineEnd after <;> by_cases hfirst : after.take 1 = [' '] <;>
    by_cases htab : after.take 1 = ['\t'] <;> simp [hfirst, htab]
  exact hempty

end Plain

/-- What a single space separates is a payload. -/
theorem isSpaceText_of_blank {after : List Char} (hblank : w.blankToLineEnd after = true)
    (hfirst : after.take 1 = [' ']) (hsecond : (after.drop 1).take 1 ≠ []) :
    w.isSpaceText ((after.drop 1).take 1) = true := by
  match after with
  | [] | [_] => simp at hsecond
  | first :: second :: rest =>
    obtain rfl : first = ' ' := by simpa using hfirst
    -- On a blank line what follows is whitespace, or the end of the line, which is that too.
    suffices hspace : w.isSpace second = true by simp [isSpaceText, hspace]
    by_cases hnewline : second = '\n'
    · rw [hnewline]
      exact w.newline
    · by_contra hspace
      simp [blankToLineEnd, w.space, hnewline, hspace] at hblank

theorem ne_nil_of_not_blank {after : List Char} (hblank : w.blankToLineEnd after = false)
    (hfirst : after.take 1 = [' ']) : (after.drop 1).take 1 ≠ [] := by
  match after with
  | [] => simp at hfirst
  | [first] =>
    obtain rfl : first = ' ' := by simpa using hfirst
    simp [blankToLineEnd, w.space] at hblank
  | first :: second :: rest => simp

/-- What the scanners ask of a plain exact tag: whether the rest of the line is blank, and the first
two characters behind the tag. -/
def accepts (w : Whitespace) (blank : Bool) (first second : List Char) : Separator → Bool
  | .payloadless => blank
  | .singleSpace => first = [' '] && second ≠ [] && !w.isSpaceText second
  | .tabPrefixed => !blank && first = ['\t']
  | .multiSpace => !blank && first = [' '] && second = [' ']
  | .spacePrefixedMixed =>
    !blank && first = [' '] && second ≠ [] && w.isSpaceText second && second ≠ [' ']
  | .otherLeading => !blank && w.isSpaceText first && first ≠ [' '] && first ≠ ['\t']

theorem isSeparatorMatch_of_plain (h : w.isPlainExactTag text offset queryLength = true)
    {after : List Char} (hafter : text.drop (offset + queryLength + 1) = after) (kind : Separator) :
    w.isSeparatorMatch kind text offset queryLength =
      w.accepts (w.blankToLineEnd after) (after.take 1) ((after.drop 1).take 1) kind := by
  obtain ⟨hexact, hmarker⟩ : w.isLineStartExactTagMatch text offset queryLength = true ∧
      w.isLineStartExactTagMarkerMatch text offset queryLength = false := by
    simpa [isPlainExactTag] using h
  cases kind with
  | payloadless => exact payloadless_eq hexact hmarker hafter
  | singleSpace => exact singleSpace_eq hexact hmarker hafter
  | tabPrefixed => exact tabPrefixed_eq hexact hmarker hafter
  | multiSpace => exact multiSpace_eq hexact hmarker hafter
  | spacePrefixedMixed => exact spacePrefixedMixed_eq hexact hmarker hafter
  | otherLeading => exact otherLeading_eq hexact hmarker hafter

/-- **The scanners.** Each accepts the plain exact tags with a separator of its class. -/
theorem isSeparatorMatch_eq (kind : Separator) (text : List Char) (offset queryLength : ℕ) :
    w.isSeparatorMatch kind text offset queryLength =
      (w.isPlainExactTag text offset queryLength &&
        w.separatorOf (text.drop (offset + queryLength + 1)) = kind) := by
  -- Only plain exact tags are accepted, and of these the scanners see what is behind them.
  cases hplain : w.isPlainExactTag text offset queryLength with
  | false => rw [isSeparatorMatch_of_not_plain hplain, Bool.false_and]
  | true =>
    generalize hafter : text.drop (offset + queryLength + 1) = after
    rw [isSeparatorMatch_of_plain hplain hafter, Bool.true_and]
    -- The tag ends at whitespace, or else it would not be exact.
    have hleading : w.blankToLineEnd after = false → w.isSpaceText (after.take 1) = true := by
      intro hblank
      cases after with
      | nil => cases hblank
      | cons first rest => simp [isSpaceText, isSpace_of_plain hplain hafter]
    have hsecond := @isSpaceText_of_blank w after
    have hnext := @ne_nil_of_not_blank w after
    unfold separatorOf
    -- From here on it is a matter of the two characters and of the line.
    generalize w.blankToLineEnd after = blank at *
    generalize after.take 1 = first at *
    generalize (after.drop 1).take 1 = second at *
    have hspace : w.isSpaceText [' '] = true := by simp [isSpaceText, w.space]
    cases blank with
    | true =>
      by_cases hfirst : first = [' ']
      · by_cases hempty : second = []
        · cases kind <;> simp [accepts, hempty]
        · cases kind <;> simp [accepts, hsecond rfl hfirst hempty]
      · cases kind <;> simp [accepts, hfirst]
    | false =>
      by_cases hfirst : first = [' ']
      · by_cases hspaces : second = [' ']
        · cases kind <;> simp [accepts, hfirst, hspaces, hspace]
        · cases htext : w.isSpaceText second <;>
            cases kind <;> simp [accepts, hfirst, hspaces, htext, hnext rfl hfirst]
      · by_cases htab : first = ['\t']
        · cases kind <;> simp [accepts, htab]
        · cases kind <;> simp [accepts, hfirst, htab, hleading rfl]

theorem partitions_separators (w : Whitespace) (text : List Char) (queryLength : ℕ) :
    Partitions (fun kind offset => w.isSeparatorMatch kind text offset queryLength)
      fun offset => w.isPlainExactTag text offset queryLength :=
  ⟨fun offset => w.separatorOf (text.drop (offset + queryLength + 1)), fun kind offset => by
    simp only [isSeparatorMatch_eq, Bool.and_eq_true, decide_eq_true_iff]⟩

/-! ## Counts -/

theorem countHits_fst (isMatch : List Char → ℕ → ℕ → Bool) (text : List Char) (offsets : List ℕ)
    (queryLength : ℕ) : (countHits isMatch text offsets queryLength).1 =
      offsets.countP fun offset => isMatch text offset queryLength := by
  rw [countHits, List.countP_eq_length_filter]
  split
  · rename_i h
    rw [h]
    rfl
  · rename_i h
    rw [h]
    rfl

/-- **Separators.** A plain exact tag is in just one of the six classes, and nothing else is in
any; so over any offsets the classes add up to the plain exact tags. -/
theorem separators_partition (w : Whitespace) (text : List Char) (offset queryLength : ℕ)
    (offsets : List ℕ) :
    ((w.isLineStartExactTagMatch text offset queryLength = true ∧
        w.isLineStartExactTagMarkerMatch text offset queryLength = false →
      ∃! kind, w.isSeparatorMatch kind text offset queryLength = true) ∧
    (¬ (w.isLineStartExactTagMatch text offset queryLength = true ∧
        w.isLineStartExactTagMarkerMatch text offset queryLength = false) →
      ∀ kind, w.isSeparatorMatch kind text offset queryLength = false)) ∧
    (w.isLineStartPlainExactTagOtherLeadingMixedWhitespacePayloadMatch text offset queryLength =
        true →
      w.isLineStartPlainExactTagOtherLeadingWhitespacePayloadMatch text offset queryLength =
        true) ∧
    w.countLineStartPlainExactTagPayloadlessSeparatorHits text offsets queryLength +
      (w.countLineStartPlainExactTagSingleSpaceSeparatorHits text offsets queryLength).1 +
      w.countLineStartPlainExactTagTabPrefixedPayloadHits text offsets queryLength +
      w.countLineStartPlainExactTagMultiSpacePayloadHits text offsets queryLength +
      w.countLineStartPlainExactTagSpacePrefixedMixedWhitespacePayloadHits text offsets
        queryLength +
      (offsets.countP fun offset =>
        w.isLineStartPlainExactTagOtherLeadingWhitespacePayloadMatch text offset queryLength) =
    offsets.countP fun offset => w.isLineStartExactTagMatch text offset queryLength &&
      !w.isLineStartExactTagMarkerMatch text offset queryLength := by
  have hpartitions := partitions_separators w text queryLength
  have hplain : w.isPlainExactTag text offset queryLength = true ↔
      w.isLineStartExactTagMatch text offset queryLength = true ∧
        w.isLineStartExactTagMarkerMatch text offset queryLength = false := by
    rw [isPlainExactTag, Bool.and_eq_true, Bool.not_eq_true']
  refine ⟨⟨fun h => hpartitions.existsUnique (hplain.mpr h), fun h => ?_⟩, ?_, ?_⟩
  · rw [← hplain, Bool.not_eq_true] at h
    exact hpartitions.eq_false h
  · -- The mixed kind asks for the other one first.
    unfold isLineStartPlainExactTagOtherLeadingMixedWhitespacePayloadMatch
    cases w.isLineStartPlainExactTagOtherLeadingWhitespacePayloadMatch text offset queryLength with
    | false => exact id
    | true => exact fun _ => rfl
  · have hsum := hpartitions.sum_countP Separator.all (by decide)
      (fun kind => by cases kind <;> decide) offsets
    simp only [Separator.all, List.map_cons, List.map_nil, List.sum_cons, List.sum_nil,
      isSeparatorMatch] at hsum
    unfold countLineStartPlainExactTagSingleSpaceSeparatorHits
    rw [countHits_fst]
    refine Eq.trans ?_ hsum
    simp only [countLineStartPlainExactTagPayloadlessSeparatorHits,
      countLineStartPlainExactTagTabPrefixedPayloadHits,
      countLineStartPlainExactTagMultiSpacePayloadHits,
      countLineStartPlainExactTagSpacePrefixedMixedWhitespacePayloadHits, sumHits]
    omega

end Whitespace

end Portex
