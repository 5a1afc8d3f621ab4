import Portex.Terminal.Separators

/-!
# Wrappers and markers

How the kinds of matches at the start of a line lie within each other, and how the exact tags
split by their wrapper and by the marker behind them. What a snapshot is ranked by are counts over
one list of offsets, so the differences and sums of counts follow from this.

## Main definitions

* `Wrapper`, `Marker`: the wrappers of a plain exact tag, and the markers behind an exact tag
* `Inclusions`, `Families`, `Counts`: what holds of a match, and of what a snapshot is ranked by

## Main results

* `partitions_wrappers`, `partitions_markers`: the exact tags split by wrapper and by marker
* `wrappers_decompose`: the inclusions, the families and the counts
-/

namespace Portex

open Foundation

/-- The entries of `_LINE_START_PUNCTUATION_WRAP_PAIRS`. -/
inductive Wrapper
  | square | paren | brace | angle
  deriving DecidableEq

namespace Wrapper

def all : List Wrapper := [square, paren, brace, angle]

def opening : Wrapper → Char
  | square => '['
  | paren => '('
  | brace => '\x7b'
  | angle => '<'

def closing : Wrapper → Char
  | square => ']'
  | paren => ')'
  | brace => '\x7d'
  | angle => '>'

/-- The wrapper of an opening. -/
def ofOpening (char : Char) : Wrapper :=
  if char = '[' then square
  else if char = '(' then paren
  else if char = '\x7b' then brace
  else angle

theorem opening_injective : Function.Injective opening := by
  intro a b h
  cases a <;> cases b <;> first | rfl | exact absurd h (by decide)

theorem pairs_opening (k : Wrapper) : lineStartPunctuationWrapPairs k.opening = some k.closing := by
  cases k <;> rfl

theorem ofOpening_opening (k : Wrapper) : ofOpening k.opening = k := by
  cases k <;> rfl

/-- What opens a wrapper is the opening of one. -/
theorem exists_of_pairs {char closing : Char}
    (h : lineStartPunctuationWrapPairs char = some closing) :
    ∃ k : Wrapper, k.opening = char := by
  unfold lineStartPunctuationWrapPairs at h
  split at h
  · rename_i hchar
    exact ⟨square, hchar.symm⟩
  split at h
  · rename_i hchar
    exact ⟨paren, hchar.symm⟩
  split at h
  · rename_i hchar
    exact ⟨brace, hchar.symm⟩
  split at h
  · rename_i hchar
    exact ⟨angle, hchar.symm⟩
  · cases h

end Wrapper

/-- What the markers behind an exact tag begin with, and, for a dash, the wrapper before it. -/
inductive Marker
  | colon | squareDash | nonSquareDash
  deriving DecidableEq

def Marker.all : List Marker := [.colon, .squareDash, .nonSquareDash]

variable {text : List Char} {offset queryLength : ℕ}

/-! ## Inclusions -/

theorem isWholeWordMatch_of_lineStart
    (h : isLineStartWholeWordMatch text offset queryLength = true) :
    isWholeWordMatch text offset queryLength = true := by
  unfold isLineStartWholeWordMatch at h
  cases hword : isWholeWordMatch text offset queryLength with
  | true => rfl
  | false => simp [hword] at h

theorem isLineStartWholeWordMatch_of_logMarker
    (h : isLineStartLogMarkerMatch text offset queryLength = true) :
    isLineStartWholeWordMatch text offset queryLength = true := by
  unfold isLineStartLogMarkerMatch at h
  cases hline : isLineStartWholeWordMatch text offset queryLength with
  | true => rfl
  | false => simp [hline] at h

theorem isWholeWordMatch_of_wrap
    (h : isLineStartPunctuationWrapMatch text offset queryLength = true) :
    isWholeWordMatch text offset queryLength = true := by
  unfold isLineStartPunctuationWrapMatch at h
  cases hword : isWholeWordMatch text offset queryLength with
  | true => rfl
  | false => simp [hword] at h

/-- A wrapped match has an opening before it and its closing behind it. -/
theorem exists_wrapper (h : isLineStartPunctuationWrapMatch text offset queryLength = true) :
    ∃ k : Wrapper, slice text (offset - 1) offset = [k.opening] ∧
      slice text (offset + queryLength) (offset + queryLength + 1) = [k.closing] := by
  unfold isLineStartPunctuationWrapMatch at h
  split at h
  · cases h
  split at h
  · cases h
  rename_i hpos
  split at h
  · cases h
  rename_i closing hclosing
  obtain ⟨char, hchar, hpair⟩ := Option.bind_eq_some_iff.mp hclosing
  obtain ⟨k, rfl⟩ := Wrapper.exists_of_pairs hpair
  obtain rfl := Option.some.inj ((Wrapper.pairs_opening k).symm.trans hpair)
  refine ⟨k, ?_, ?_⟩
  · -- The character before the match is the one that was looked up.
    obtain ⟨i, rfl⟩ := Nat.exists_eq_add_of_lt (Nat.not_le.mp hpos)
    simp only [Nat.zero_add, Nat.add_sub_cancel] at hchar ⊢
    rw [slice_add, List.take_one, List.head?_drop, hchar]
    rfl
  · dsimp only at h
    split at h
    · cases h
    · exact of_decide_eq_true h

namespace Whitespace

variable {w : Whitespace}

theorem isLineStartLogMarkerMatch_of_delimited
    (h : w.isLineStartDelimitedLogMarkerMatch text offset queryLength = true) :
    isLineStartLogMarkerMatch text offset queryLength = true := by
  unfold isLineStartDelimitedLogMarkerMatch at h
  cases hmarker : isLineStartLogMarkerMatch text offset queryLength with
  | true => rfl
  | false => simp [hmarker] at h

theorem isLineStartPunctuationWrapMatch_of_exactTag
    (h : w.isLineStartExactTagMatch text offset queryLength = true) :
    isLineStartPunctuationWrapMatch text offset queryLength = true := by
  unfold isLineStartExactTagMatch at h
  cases hwrap : isLineStartPunctuationWrapMatch text offset queryLength with
  | true => rfl
  | false => simp [hwrap] at h

theorem isLineStartExactTagMatch_of_marker
    (h : w.isLineStartExactTagMarkerMatch text offset queryLength = true) :
    w.isLineStartExactTagMatch text offset queryLength = true := by
  unfold isLineStartExactTagMarkerMatch at h
  cases hexact : w.isLineStartExactTagMatch text offset queryLength with
  | true => rfl
  | false => simp [hexact] at h

/-! ## Wrappers -/

/-- The predicate of each wrapper, of the plain exact tags. -/
def isWrapperMatch (w : Whitespace) : Wrapper → List Char → ℕ → ℕ → Bool
  | .square => w.isLineStartSquareBracketPlainExactTagMatch
  | .paren => w.isLineStartParenWrapperPlainExactTagMatch
  | .brace => w.isLineStartBraceWrapperPlainExactTagMatch
  | .angle => w.isLineStartAngleWrapperPlainExactTagMatch

theorem isWrapperMatch_eq (k : Wrapper) (text : List Char) (offset queryLength : ℕ) :
    w.isWrapperMatch k text offset queryLength =
      (w.isPlainExactTag text offset queryLength &&
        isWrappedIn k.opening k.closing text offset queryLength) := by
  unfold isPlainExactTag
  cases k <;> cases hexact : w.isLineStartExactTagMatch text offset queryLength <;>
    cases hmarker : w.isLineStartExactTagMarkerMatch text offset queryLength <;>
      simp [isWrapperMatch, isLineStartSquareBracketPlainExactTagMatch,
        isLineStartSquareBracketExactTagMatch, isLineStartParenWrapperPlainExactTagMatch,
        isLineStartBraceWrapperPlainExactTagMatch, isLineStartAngleWrapperPlainExactTagMatch,
        isLineStartWrapperPlainExactTagMatch, hexact, hmarker, Wrapper.opening, Wrapper.closing]

/-- A wrapped match is wrapped in the brackets of its opening only. -/
theorem isWrappedIn_iff (h : isLineStartPunctuationWrapMatch text offset queryLength = true)
    (k : Wrapper) : isWrappedIn k.opening k.closing text offset queryLength = true ↔
      (slice text (offset - 1) offset).map Wrapper.ofOpening = [k] := by
  obtain ⟨k', hopening, hclosing⟩ := exists_wrapper h
  rw [isWrappedIn, hopening, hclosing, Bool.and_eq_true, decide_eq_true_iff, decide_eq_true_iff,
    List.map_singleton, Wrapper.ofOpening_opening, List.singleton_inj, List.singleton_inj,
    List.singleton_inj]
  constructor
  · rintro ⟨hk, -⟩
    exact Wrapper.opening_injective hk
  · rintro rfl
    exact ⟨rfl, rfl⟩

/-- **Wrappers**: the plain exact tags split by what they are wrapped in. -/
theorem partitions_wrappers (w : Whitespace) (text : List Char) (queryLength : ℕ) :
    Partitions (fun k offset => w.isWrapperMatch k text offset queryLength)
      fun offset => w.isPlainExactTag text offset queryLength := by
  refine ⟨fun offset => ((slice text (offset - 1) offset).map Wrapper.ofOpening).headD .angle,
    fun k offset => ?_⟩
  simp only [isWrapperMatch_eq, Bool.and_eq_true]
  refine and_congr_right fun hplain => ?_
  rw [isPlainExactTag, Bool.and_eq_true] at hplain
  have hwrap := isLineStartPunctuationWrapMatch_of_exactTag hplain.1
  -- Every exact tag is wrapped, so its opening decides the class.
  rw [isWrappedIn_iff hwrap]
  obtain ⟨k', hopening, -⟩ := exists_wrapper hwrap
  rw [hopening]
  simp

/-! ## Markers -/

/-- The predicate of each marker. -/
def isMarkerMatch (w : Whitespace) : Marker → List Char → ℕ → ℕ → Bool
  | .colon => w.isLineStartExactTagColonMarkerMatch
  | .squareDash => w.isLineStartSquareBracketExactTagDashMarkerMatch
  | .nonSquareDash => w.isLineStartNonSquareBracketExactTagDashMarkerMatch

/-- The marker behind an exact tag, from what follows the tag and the bracket before it. -/
def markerOf (w : Whitespace) (text : List Char) (queryLength offset : ℕ) : Marker :=
  let trailingOffset := offset + queryLength + 1
  if slice text trailingOffset (trailingOffset + 1) = [':'] then .colon
  else if w.isLineStartSquareBracketExactTagMatch text offset queryLength then .squareDash
  else .nonSquareDash

/-- Behind an exact-tag marker there is a colon, or a space and a dash, and then nothing or
whitespace. -/
theorem colon_or_dash (h : w.isLineStartExactTagMarkerMatch text offset queryLength = true) :
    let i := offset + queryLength + 1
    (slice text i (i + 1) = [':'] ∧ w.emptyOrSpace (slice text (i + 1) (i + 2)) = true) ∨
      slice text i (i + 1) ≠ [':'] ∧ slice text i (i + 2) = [' ', '-'] ∧
        w.emptyOrSpace (slice text (i + 2) (i + 3)) = true := by
  have hexact := isLineStartExactTagMatch_of_marker h
  unfold isLineStartExactTagMarkerMatch at h
  rw [hexact] at h
  dsimp only [Bool.not_true, Bool.false_eq_true] at h
  rw [if_neg (by decide)] at h
  split at h
  · rename_i hcolon
    exact .inl ⟨hcolon, h⟩
  · rename_i hcolon
    split at h
    · rename_i hdash
      exact .inr ⟨hcolon, hdash, h⟩
    · cases h

/-- A colon is no space. -/
theorem ne_dash_of_colon {i : ℕ} (h : slice text i (i + 1) = [':']) :
    slice text i (i + 2) ≠ [' ', '-'] := by
  intro hdash
  rw [slice_add] at h hdash
  have htake : ((text.drop i).take 2).take 1 = [':'] := by
    rw [List.take_take]
    exact h
  rw [hdash] at htake
  exact absurd htake (by decide)

/-- **Markers**: the exact-tag markers split by what they are. -/
theorem partitions_markers (w : Whitespace) (text : List Char) (queryLength : ℕ) :
    Partitions (fun k offset => w.isMarkerMatch k text offset queryLength)
      fun offset => w.isLineStartExactTagMarkerMatch text offset queryLength := by
  refine ⟨w.markerOf text queryLength, fun k offset => ?_⟩
  cases hmarker : w.isLineStartExactTagMarkerMatch text offset queryLength with
  | false =>
    cases k <;> simp [isMarkerMatch, isLineStartExactTagColonMarkerMatch,
      isLineStartSquareBracketExactTagDashMarkerMatch,
      isLineStartNonSquareBracketExactTagDashMarkerMatch, hmarker]
  | true =>
    rcases colon_or_dash hmarker with ⟨hcolon, hend⟩ | ⟨hcolon, hdash, hend⟩
    · -- A colon marker is in no bracket's class of dashes.
      have hdash := ne_dash_of_colon hcolon
      cases k <;> simp [isMarkerMatch, markerOf, isLineStartExactTagColonMarkerMatch,
        isLineStartSquareBracketExactTagDashMarkerMatch,
        isLineStartNonSquareBracketExactTagDashMarkerMatch, hmarker, hcolon, hend, hdash]
    · cases hsquare : w.isLineStartSquareBracketExactTagMatch text offset queryLength <;>
        cases k <;> simp [isMarkerMatch, markerOf, isLineStartExactTagColonMarkerMatch,
          isLineStartSquareBracketExactTagDashMarkerMatch,
          isLineStartNonSquareBracketExactTagDashMarkerMatch, hmarker, hcolon, hend, hdash, hsquare]

theorem nonSquareColon_eq (w : Whitespace) (text : List Char) (offset queryLength : ℕ) :
    w.isLineStartNonSquareBracketExactTagColonMarkerMatch text offset queryLength =
      (w.isLineStartExactTagColonMarkerMatch text offset queryLength &&
        !w.isLineStartSquareBracketExactTagMatch text offset queryLength) := by
  unfold isLineStartNonSquareBracketExactTagColonMarkerMatch
  cases w.isLineStartExactTagColonMarkerMatch text offset queryLength <;>
    cases w.isLineStartSquareBracketExactTagMatch text offset queryLength <;> rfl

/-! ## What a snapshot is ranked by -/

/-- The kinds that lie within each other. -/
structure Inclusions (w : Whitespace) (text : List Char) (offset queryLength : ℕ) : Prop where
  exactTag : w.isLineStartExactTagMatch text offset queryLength = true →
    isLineStartPunctuationWrapMatch text offset queryLength = true
  punctuationWrap : isLineStartPunctuationWrapMatch text offset queryLength = true →
    isWholeWordMatch text offset queryLength = true
  lineStart : isLineStartWholeWordMatch text offset queryLength = true →
    isWholeWordMatch text offset queryLength = true
  delimited : w.isLineStartDelimitedLogMarkerMatch text offset queryLength = true →
    isLineStartLogMarkerMatch text offset queryLength = true
  logMarker : isLineStartLogMarkerMatch text offset queryLength = true →
    isLineStartWholeWordMatch text offset queryLength = true

/-- The kinds that exact tags split into. -/
structure Families (w : Whitespace) (text : List Char) (offset queryLength : ℕ) : Prop where
  wrapper : w.isLineStartExactTagMatch text offset queryLength = true →
    w.isLineStartExactTagMarkerMatch text offset queryLength = false →
    ∃! k, w.isWrapperMatch k text offset queryLength = true
  marker : w.isLineStartExactTagMarkerMatch text offset queryLength = true →
    ∃! k, w.isMarkerMatch k text offset queryLength = true
  colon : w.isLineStartExactTagColonMarkerMatch text offset queryLength = true →
    Xor (w.isLineStartSquareBracketExactTagMatch text offset queryLength = true)
      (w.isLineStartNonSquareBracketExactTagColonMarkerMatch text offset queryLength = true)

/-- The counts that a snapshot is ranked by. -/
structure Counts (w : Whitespace) (text : List Char) (offsets : List ℕ) (queryLength : ℕ)
    (candidate : TerminalSessionHistorySearchCandidate) : Prop where
  /-- The difference is not clamped. -/
  nonExactTag : candidate.lineStartExactTagMatchCount ≤ candidate.lineStartPunctuationWrapMatchCount
  conditionalNonExactTag : candidate.conditionalNonExactTagPunctuationWrapMatchCount =
    if 0 < candidate.lineStartExactTagMatchCount then
      (candidate.lineStartPunctuationWrapMatchCount : Int) - candidate.lineStartExactTagMatchCount
    else 0
  nonLineStart : candidate.lineStartWholeWordMatchCount ≤ candidate.wholeWordMatchCount
  conditionalNonLineStart : 0 ≤ candidate.conditionalNonLineStartWholeWordMatchCount
  exactTag : candidate.lineStartExactTagMatchCount =
    candidate.lineStartExactTagMarkerMatchCount +
      ((w.countLineStartSquareBracketPlainExactTagHits text offsets queryLength).1 +
        candidate.lineStartParenWrapperPlainExactTagMatchCount +
        candidate.lineStartBraceWrapperPlainExactTagMatchCount +
        candidate.lineStartAngleWrapperPlainExactTagMatchCount)
  marker : candidate.lineStartExactTagMarkerMatchCount =
    candidate.lineStartExactTagColonMarkerMatchCount +
      candidate.lineStartSquareBracketExactTagDashMarkerMatchCount +
      candidate.lineStartNonSquareBracketExactTagDashMarkerMatchCount
  colon : candidate.lineStartExactTagColonMarkerMatchCount =
    (offsets.countP fun offset =>
      w.isLineStartExactTagColonMarkerMatch text offset queryLength &&
        w.isLineStartSquareBracketExactTagMatch text offset queryLength) +
      candidate.lineStartNonSquareBracketExactTagColonMarkerMatchCount

theorem inclusions (w : Whitespace) (text : List Char) (offset queryLength : ℕ) :
    w.Inclusions text offset queryLength where
  exactTag := isLineStartPunctuationWrapMatch_of_exactTag
  punctuationWrap := isWholeWordMatch_of_wrap
  lineStart := isWholeWordMatch_of_lineStart
  delimited := isLineStartLogMarkerMatch_of_delimited
  logMarker := isLineStartWholeWordMatch_of_logMarker

theorem families (w : Whitespace) (text : List Char) (offset queryLength : ℕ) :
    w.Families text offset queryLength where
  wrapper hexact hmarker := (partitions_wrappers w text queryLength).existsUnique
    (show w.isPlainExactTag text offset queryLength = true by
      rw [isPlainExactTag, hexact, hmarker]
      rfl)
  marker := (partitions_markers w text queryLength).existsUnique
  colon hcolon := by
    rw [nonSquareColon_eq, hcolon, Bool.true_and, Bool.not_eq_true']
    cases w.isLineStartSquareBracketExactTagMatch text offset queryLength with
    | false => exact .inr ⟨rfl, by decide⟩
    | true => exact .inl ⟨rfl, by decide⟩

/-- A part and the rest. -/
theorem countP_add_countP_not (p q : ℕ → Bool) (hqp : ∀ i, q i = true → p i = true)
    (offsets : List ℕ) :
    offsets.countP p = offsets.countP q + offsets.countP fun i => p i && !q i := by
  induction offsets with
  | nil => rfl
  | cons i offsets ih =>
    have hi := hqp i
    simp only [List.countP_cons, ih]
    cases hp : p i <;> cases hq : q i <;> simp_all <;> omega

theorem counts (w : Whitespace) (found : TerminalSessionHistorySearchMatch) (text : List Char)
    (offsets : List ℕ) (nonempty : offsets ≠ []) (queryLength outputLength : ℕ) :
    w.Counts text offsets queryLength
      (w.buildSearchCandidate found text offsets nonempty queryLength outputLength) := by
  have hle : ∀ {p q : List Char → ℕ → ℕ → Bool},
      (∀ offset, q text offset queryLength = true → p text offset queryLength = true) →
      (countHits q text offsets queryLength).1 ≤ (countHits p text offsets queryLength).1 := by
    intro p q hqp
    rw [countHits_fst, countHits_fst]
    exact List.countP_mono_left fun offset _ => hqp offset
  have hexact : (w.countLineStartExactTagHits text offsets queryLength).1 ≤
      (countLineStartPunctuationWrapHits text offsets queryLength).1 :=
    hle fun _ => isLineStartPunctuationWrapMatch_of_exactTag
  have hline : (countLineStartWholeWordHits text offsets queryLength).1 ≤
      (countWholeWordHits text offsets queryLength).1 := hle fun _ => isWholeWordMatch_of_lineStart
  refine ⟨hexact, ?_, hline, ?_, ?_, ?_, ?_⟩
  · -- There are no more exact tags than wraps, so the maximum is the difference.
    simp only [buildSearchCandidate]
    rw [max_eq_right (by omega)]
    rfl
  · simp only [buildSearchCandidate]
    split <;> omega
  · -- The exact tags are the markers and the plain ones, and these split by wrapper.
    have hplain := (partitions_wrappers w text queryLength).sum_countP Wrapper.all (by decide)
      (fun k => by cases k <;> decide) offsets
    have hsplit := countP_add_countP_not
      (fun offset => w.isLineStartExactTagMatch text offset queryLength)
      (fun offset => w.isLineStartExactTagMarkerMatch text offset queryLength)
      (fun _ => isLineStartExactTagMatch_of_marker) offsets
    simp only [Wrapper.all, List.map_cons, List.map_nil, List.sum_cons, List.sum_nil,
      isWrapperMatch, isPlainExactTag] at hplain
    simp only [buildSearchCandidate, countLineStartExactTagHits, countLineStartExactTagMarkerHits,
      countLineStartSquareBracketPlainExactTagHits, countLineStartParenWrapperPlainExactTagHits,
      countLineStartBraceWrapperPlainExactTagHits, countLineStartAngleWrapperPlainExactTagHits,
      countHits_fst]
    omega
  · -- The markers split into the colons and the two kinds of dashes.
    have hmarkers := (partitions_markers w text queryLength).sum_countP Marker.all (by decide)
      (fun k => by cases k <;> decide) offsets
    simp only [Marker.all, List.map_cons, List.map_nil, List.sum_cons, List.sum_nil,
      isMarkerMatch] at hmarkers
    simp only [buildSearchCandidate, countLineStartExactTagMarkerHits,
      countLineStartExactTagColonMarkerHits, countLineStartSquareBracketExactTagDashMarkerHits,
      countLineStartNonSquareBracketExactTagDashMarkerHits, countHits_fst]
    omega
  · -- The colons split by whether they are in square brackets.
    have hsplit := countP_add_countP_not
      (fun offset => w.isLineStartExactTagColonMarkerMatch text offset queryLength)
      (fun offset => w.isLineStartExactTagColonMarkerMatch text offset queryLength &&
        w.isLineStartSquareBracketExactTagMatch text offset queryLength)
      (fun offset h => (Bool.and_eq_true_iff.mp h).1) offsets
    have hnot : ∀ offset, (w.isLineStartExactTagColonMarkerMatch text offset queryLength &&
        !(w.isLineStartExactTagColonMarkerMatch text offset queryLength &&
          w.isLineStartSquareBracketExactTagMatch text offset queryLength)) =
        w.isLineStartNonSquareBracketExactTagColonMarkerMatch text offset queryLength := by
      intro offset
      rw [nonSquareColon_eq]
      cases w.isLineStartExactTagColonMarkerMatch text offset queryLength <;> rfl
    simp only [hnot] at hsplit
    simp only [buildSearchCandidate, countLineStartExactTagColonMarkerHits,
      countLineStartNonSquareBracketExactTagColonMarkerHits, countHits_fst]
    exact hsplit

/-- **Wrappers and markers**: the kinds lie within each other, exact tags split by wrapper and by
marker, and what a snapshot is ranked by adds up. -/
theorem wrappers_decompose (w : Whitespace) (text : List Char) (queryLength : ℕ) :
    (∀ offset, w.Inclusions text offset queryLength ∧ w.Families text offset queryLength) ∧
      ∀ found offsets nonempty outputLength, w.Counts text offsets queryLength
        (w.buildSearchCandidate found text offsets nonempty queryLength outputLength) :=
  ⟨fun offset => ⟨inclusions w text offset queryLength, families w text offset queryLength⟩,
    fun found offsets nonempty outputLength =>
      counts w found text offsets nonempty queryLength outputLength⟩

end Whitespace

end Portex
