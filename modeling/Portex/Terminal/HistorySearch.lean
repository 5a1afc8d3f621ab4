import Portex.Foundation.Leftmost
import Mathlib.Data.Char

/-!
# Searching the history of a session

`_find_case_insensitive_match_offsets` searches in the lower-cased output, and the offsets it finds
are then used in the output itself. The two have the same offsets only as long as no character
before is mapped to more than one.

## Main definitions

* `CaseMapping`: a lower-casing of characters, which may lengthen them
* `findCaseInsensitiveMatchOffsets`, `buildSearchSnippets`: the search
* `FindsMatches`: the search finds the matches of the output
* `KeepsPositions`: the lower-cased output has the query where the output has it

## Main results

* `slice_infix_snippet`: a snippet contains what stands at its offset
* `keepsPositions_iff`: positions are kept where the search finds the matches, each at its own place
* `keepsPositions_of_length_eq`: positions are kept where no character is lengthened
* `findsMatches_of_keepsPositions`: where positions are kept, the search finds the matches
-/

namespace Portex

open Foundation

/-- `str.lower`, one character at a time. -/
structure CaseMapping where
  lower : Char → List Char
  lower_ne_nil : ∀ c, lower c ≠ []

/-- `text[start:stop]`. -/
def slice (text : List Char) (start stop : ℕ) : List Char := (text.take stop).drop start

namespace CaseMapping

variable (casing : CaseMapping)

/-- `text.lower()`. -/
def lowered (text : List Char) : List Char := text.flatMap casing.lower

/-- `_find_case_insensitive_match_offsets`. -/
def findCaseInsensitiveMatchOffsets (text query : List Char) : List ℕ :=
  if text = [] ∨ query = [] then []
  else scan (casing.lowered query) (casing.lowered text) (max 1 (casing.lowered query).length)
    ((casing.lowered text).length + 1) 0

end CaseMapping

/-- `TerminalSessionHistorySearchSnippet`. -/
structure TerminalSessionHistorySearchSnippet where
  text : List Char
  matchIndex : ℕ
  matchOffset : ℕ
  deriving DecidableEq

/-- One round of the loop of `_build_search_snippets`. -/
def buildSearchSnippet (text : List Char) (queryLength snippetContextChars matchIndex offset : ℕ) :
    TerminalSessionHistorySearchSnippet :=
  let start := offset - snippetContextChars
  let stop := min text.length (offset + queryLength + snippetContextChars)
  let snippet := slice text start stop
  let snippet := if 0 < start then "...".toList ++ snippet else snippet
  let snippet := if stop < text.length then snippet ++ "...".toList else snippet
  { text := snippet, matchIndex, matchOffset := offset }

/-- `_build_search_snippets`. -/
def buildSearchSnippets (text : List Char) (offsets : List ℕ)
    (queryLength snippetLimit snippetContextChars : ℕ) :
    List TerminalSessionHistorySearchSnippet :=
  (offsets.take snippetLimit).mapIdx fun matchIndex offset =>
    buildSearchSnippet text queryLength snippetContextChars matchIndex offset

/-! ## Lower-casing -/

namespace CaseMapping

variable {casing : CaseMapping} {text query : List Char} {i j : ℕ}

@[simp] theorem lowered_append (l m : List Char) :
    casing.lowered (l ++ m) = casing.lowered l ++ casing.lowered m := by
  simp [lowered]

theorem length_le_lowered (casing : CaseMapping) (text : List Char) :
    text.length ≤ (casing.lowered text).length := by
  induction text with
  | nil => exact Nat.zero_le _
  | cons c text ih =>
    have hpos := List.length_pos_iff.mpr (casing.lower_ne_nil c)
    rw [lowered, List.flatMap_cons, List.length_append, List.length_cons]
    rw [lowered] at ih
    omega

/-- Where a place of the text is in the lower-cased text. -/
def image (casing : CaseMapping) (text : List Char) (i : ℕ) : ℕ :=
  (casing.lowered (text.take i)).length

theorem image_add (h : i ≤ j) : casing.image text j =
    casing.image text i + (casing.lowered (slice text i j)).length := by
  have hsplit : text.take j = text.take i ++ slice text i j := by
    conv_lhs => rw [← List.take_append_drop i (text.take j)]
    rw [List.take_take, Nat.min_eq_left h, slice]
  rw [image, image, hsplit, lowered_append, List.length_append]

/-- The lower-cased text is at least as far on as the text, and more so at later places. -/
theorem sub_le_image_sub (casing : CaseMapping) (h : i ≤ j) (hj : j ≤ text.length) :
    casing.image text i + (j - i) ≤ casing.image text j := by
  rw [image_add h]
  have hle := length_le_lowered casing (slice text i j)
  rw [slice, List.length_drop, List.length_take, Nat.min_eq_left hj] at hle
  exact Nat.add_le_add_left hle _

/-! ## Matches -/

/-- `text[offset:offset + len(query)].lower() == query.lower()`. -/
def IsMatch (casing : CaseMapping) (text query : List Char) (offset : ℕ) : Prop :=
  casing.lowered (slice text offset (offset + query.length)) = casing.lowered query

instance : DecidablePred (casing.IsMatch text query) := fun offset =>
  inferInstanceAs (Decidable
    (casing.lowered (slice text offset (offset + query.length)) = casing.lowered query))

/-- The search finds the leftmost matches that do not overlap, from left to right, and its
snippets contain them. -/
structure FindsMatches (casing : CaseMapping) (text query : List Char) : Prop where
  isMatch : ∀ offset ∈ casing.findCaseInsensitiveMatchOffsets text query,
    casing.IsMatch text query offset
  leftmost : Leftmost (casing.IsMatch text query) query.length 0
    (casing.findCaseInsensitiveMatchOffsets text query)
  snippets : ∀ snippetLimit snippetContextChars, ∀ snippet ∈ buildSearchSnippets text
    (casing.findCaseInsensitiveMatchOffsets text query) query.length snippetLimit
      snippetContextChars,
    slice text snippet.matchOffset (snippet.matchOffset + query.length) <:+: snippet.text

/-- No character before one of the leftmost matches is lengthened, and the lower-cased text has
the query nowhere else: each of its occurrences begins within one of these matches. -/
def KeepsPositions (casing : CaseMapping) (text query : List Char) : Prop :=
  ∃ offsets, Leftmost (casing.IsMatch text query) query.length 0 offsets ∧
    (∀ o ∈ offsets, casing.image text o = o) ∧
    ∀ i, OccursAt (casing.lowered query) (casing.lowered text) i →
      ∃ o ∈ offsets, o ≤ i ∧ i < o + (casing.lowered query).length

theorem lowered_ne_nil (casing : CaseMapping) (hquery : query ≠ []) :
    casing.lowered query ≠ [] := by
  rw [← List.length_pos_iff] at hquery ⊢
  exact Nat.lt_of_lt_of_le hquery (length_le_lowered casing query)

theorem IsMatch.lt_length (h : casing.IsMatch text query i) (hquery : query ≠ []) :
    i < text.length := by
  by_contra hle
  have hnil : slice text i (i + query.length) = [] := by
    rw [slice, List.drop_eq_nil_iff, List.length_take]
    omega
  have hlowered : casing.lowered query = [] := by
    rw [← h, hnil]
    rfl
  exact lowered_ne_nil casing hquery hlowered

/-- A match is an occurrence in the lower-cased text. -/
theorem IsMatch.occursAt (h : casing.IsMatch text query i) :
    OccursAt (casing.lowered query) (casing.lowered text) (casing.image text i) := by
  have hsplit : text = text.take i ++ slice text i (i + query.length) ++
      text.drop (i + query.length) := by
    have htake : text.take (i + query.length) = text.take i ++ slice text i (i + query.length) := by
      conv_lhs => rw [← List.take_append_drop i (text.take (i + query.length))]
      rw [List.take_take, Nat.min_eq_left (Nat.le_add_right _ _), slice]
    rw [← htake, List.take_append_drop]
  have hocc := occursAt_append (casing.lowered (text.take i)) (casing.lowered query)
    (casing.lowered (text.drop (i + query.length)))
  rw [← h, ← lowered_append, ← lowered_append, ← hsplit, h] at hocc
  exact hocc

theorem IsMatch.image_end (h : casing.IsMatch text query i) :
    casing.image text (i + query.length) =
      casing.image text i + (casing.lowered query).length := by
  rw [image_add (Nat.le_add_right i query.length), h]

/-! ## The search -/

theorem leftmost_findCaseInsensitiveMatchOffsets (casing : CaseMapping) (text : List Char)
    (hquery : query ≠ []) :
    Leftmost (OccursAt (casing.lowered query) (casing.lowered text))
      (casing.lowered query).length 0 (casing.findCaseInsensitiveMatchOffsets text query) := by
  have hne := lowered_ne_nil casing hquery
  have hpos := List.length_pos_iff.mpr hne
  unfold findCaseInsensitiveMatchOffsets
  split
  · rename_i hempty
    obtain rfl := hempty.resolve_right hquery
    refine .done fun i _ hocc => ?_
    have hle := hocc.add_length_le hne
    simp only [lowered, List.flatMap_nil, List.length_nil] at hle
    rw [lowered] at hpos
    omega
  · rw [max_eq_right (show 1 ≤ (casing.lowered query).length from hpos)]
    exact leftmost_scan hne hpos

end CaseMapping

theorem slice_min_length (text : List Char) (start stop : ℕ) :
    slice text start (min text.length stop) = slice text start stop := by
  rw [slice, slice, Nat.min_comm, ← List.take_take, List.take_length]

theorem slice_infix_slice {text : List Char} {start start' stop stop' : ℕ} (hstart : start' ≤ start)
    (hstop : stop ≤ stop') : slice text start stop <:+: slice text start' stop' := by
  have hprefix : slice text start stop <+: slice text start stop' :=
    (List.take_prefix_take_left hstop).drop start
  have hsuffix : slice text start stop' <:+ slice text start' stop' := by
    rw [slice, slice, ← Nat.add_sub_cancel' hstart, ← List.drop_drop]
    exact List.drop_suffix _ _
  exact hprefix.isInfix.trans hsuffix.isInfix

/-- **Snippets** contain what stands at their offset, at both ends of the text. -/
theorem slice_infix_snippet (text : List Char) (offsets : List ℕ)
    (queryLength snippetLimit snippetContextChars : ℕ) :
    ∀ snippet ∈ buildSearchSnippets text offsets queryLength snippetLimit snippetContextChars,
      slice text snippet.matchOffset (snippet.matchOffset + queryLength) <:+: snippet.text := by
  intro snippet hsnippet
  obtain ⟨matchIndex, hlt, rfl⟩ := List.mem_mapIdx.mp hsnippet
  generalize (offsets.take snippetLimit)[matchIndex] = offset
  have hslice : slice text offset (offset + queryLength) <:+:
      slice text (offset - snippetContextChars)
        (min text.length (offset + queryLength + snippetContextChars)) := by
    rw [slice_min_length]
    exact slice_infix_slice (Nat.sub_le _ _) (Nat.le_add_right _ _)
  -- The dots stand before and after.
  have hbefore : ∀ (b : Prop) [Decidable b] (l : List Char),
      l <:+: if b then "...".toList ++ l else l := by
    intro b _ l
    split
    · exact (List.suffix_append _ _).isInfix
    · exact List.infix_refl l
  have hafter : ∀ (b : Prop) [Decidable b] (l : List Char),
      l <:+: if b then l ++ "...".toList else l := by
    intro b _ l
    split
    · exact (List.prefix_append _ _).isInfix
    · exact List.infix_refl l
  exact hslice.trans ((hbefore _ _).trans (hafter _ _))

namespace CaseMapping

variable {casing : CaseMapping} {text query : List Char} {i j : ℕ}

/-- Where positions are kept, the leftmost matches are the leftmost occurrences. -/
theorem leftmost_of_kept {offsets : List ℕ} (hquery : query ≠ [])
    (hleftmost : Leftmost (casing.IsMatch text query) query.length 0 offsets)
    (hkept : ∀ o ∈ offsets, casing.image text o = o)
    (hcovers : ∀ i, OccursAt (casing.lowered query) (casing.lowered text) i →
      ∃ o ∈ offsets, o ≤ i ∧ i < o + (casing.lowered query).length) :
    Leftmost (OccursAt (casing.lowered query) (casing.lowered text))
      (casing.lowered query).length 0 offsets := by
  have hpos := List.length_pos_iff.mpr (lowered_ne_nil casing hquery)
  refine (leftmost_iff hpos).mpr ⟨fun o ho => ⟨Nat.zero_le o, ?_⟩, ?_, fun i _ => hcovers i⟩
  · have hocc := (hleftmost.mem o ho).2.occursAt
    rwa [hkept o ho] at hocc
  · refine hleftmost.separated.imp_of_mem fun {o o'} ho ho' hle => ?_
    -- The end of a match is mapped to the end of its occurrence.
    have hend := (hleftmost.mem o ho).2.image_end
    have hlt := (hleftmost.mem o' ho').2.lt_length hquery
    have himage := sub_le_image_sub casing hle (Nat.le_of_lt hlt)
    rw [hend, hkept o ho, hkept o' ho'] at himage
    omega

theorem findsMatches_of_leftmost {offsets : List ℕ} (hquery : query ≠ [])
    (hleftmost : Leftmost (casing.IsMatch text query) query.length 0 offsets)
    (hoccurs : Leftmost (OccursAt (casing.lowered query) (casing.lowered text))
      (casing.lowered query).length 0 offsets) : casing.FindsMatches text query := by
  obtain rfl := hoccurs.unique (leftmost_findCaseInsensitiveMatchOffsets casing text hquery)
  exact ⟨fun o ho => (hleftmost.mem o ho).2, hleftmost, slice_infix_snippet _ _ _⟩

/-- **Positions are kept** where the search finds the matches, each of them at the place that it is
mapped to. -/
theorem keepsPositions_iff (casing : CaseMapping) (text : List Char) (hquery : query ≠ []) :
    casing.KeepsPositions text query ↔ casing.FindsMatches text query ∧
      ∀ o ∈ casing.findCaseInsensitiveMatchOffsets text query, casing.image text o = o := by
  have hoccurs := leftmost_findCaseInsensitiveMatchOffsets casing text hquery
  constructor
  · rintro ⟨offsets, hleftmost, hkept, hcovers⟩
    have hoffsets := leftmost_of_kept hquery hleftmost hkept hcovers
    obtain rfl := hoffsets.unique hoccurs
    exact ⟨findsMatches_of_leftmost hquery hleftmost hoffsets, hkept⟩
  · rintro ⟨hfinds, hkept⟩
    exact ⟨_, hfinds.leftmost, hkept, fun i hi => hoccurs.covers (Nat.zero_le i) hi⟩

/-! ### Texts without lengthened characters -/

/-- The character that a character is mapped to, where it is one. -/
def single (casing : CaseMapping) (c : Char) : Char := (casing.lower c).headD c

theorem lowered_eq_map (h : ∀ c ∈ text, (casing.lower c).length = 1) :
    casing.lowered text = text.map casing.single := by
  rw [lowered, List.map_eq_flatMap]
  refine List.flatMap_congr fun c hc => ?_
  obtain ⟨d, hd⟩ := List.length_eq_one_iff.mp (h c hc)
  rw [single, hd]
  rfl

/-- A text without lengthened characters matches where its lower-cased text has the query. -/
theorem isMatch_iff_occursAt (htext : ∀ c ∈ text, (casing.lower c).length = 1)
    (hquery : ∀ c ∈ query, (casing.lower c).length = 1) :
    casing.IsMatch text query i ↔ OccursAt (casing.lowered query) (casing.lowered text) i := by
  have hslice : ∀ c ∈ slice text i (i + query.length), (casing.lower c).length = 1 :=
    fun c hc => htext c (List.mem_of_mem_take (List.mem_of_mem_drop hc))
  rw [IsMatch, OccursAt, lowered_eq_map htext, lowered_eq_map hquery, lowered_eq_map hslice,
    List.prefix_iff_eq_take, slice, List.drop_take, Nat.add_sub_cancel_left, List.length_map,
    List.map_take, List.map_drop, eq_comm]

/-- **Positions are kept** where no character of the text or of the query is lengthened. -/
theorem keepsPositions_of_length_eq (hne : query ≠ [])
    (htext : ∀ c ∈ text, (casing.lower c).length = 1)
    (hquery : ∀ c ∈ query, (casing.lower c).length = 1) : casing.KeepsPositions text query := by
  have hoccurs := leftmost_findCaseInsensitiveMatchOffsets casing text hne
  have hmatches : casing.IsMatch text query =
      OccursAt (casing.lowered query) (casing.lowered text) :=
    funext fun i => propext (isMatch_iff_occursAt htext hquery)
  refine ⟨_, ?_, fun o ho => ?_, fun i hi => hoccurs.covers (Nat.zero_le i) hi⟩
  · rw [lowered_eq_map hquery, List.length_map, ← lowered_eq_map hquery] at hoccurs
    rwa [hmatches]
  · have hmatch := (hoccurs.mem o ho).2
    rw [← hmatches] at hmatch
    have htake : ∀ c ∈ text.take o, (casing.lower c).length = 1 :=
      fun c hc => htext c (List.mem_of_mem_take hc)
    rw [image, lowered_eq_map htake, List.length_map, List.length_take]
    exact Nat.min_eq_left (Nat.le_of_lt (hmatch.lt_length hne))

/-- **The search** finds the matches where positions are kept. -/
theorem findsMatches_of_keepsPositions (hquery : query ≠ [])
    (h : casing.KeepsPositions text query) : casing.FindsMatches text query := by
  obtain ⟨offsets, hleftmost, hkept, hcovers⟩ := h
  exact findsMatches_of_leftmost hquery hleftmost
    (leftmost_of_kept hquery hleftmost hkept hcovers)

/-- Lower-casing of the ASCII letters, and of the one character that it lengthens. -/
def dotted : CaseMapping where
  lower c := if c = 'İ' then ['i', '\u0307'] else [c.toLower]
  lower_ne_nil c := by split <;> simp

/-- The lengthened character stands behind the match. -/
theorem findsMatches_of_keepsPositions_error :
    dotted.FindsMatches "an Errorİ".toList "error".toList := by
  have hquery : "error".toList ≠ [] := by decide
  have hleftmost : Leftmost (dotted.IsMatch "an Errorİ".toList "error".toList) 5 0 [3] := by
    refine .next (by decide) (by decide) (by decide) (.done fun i hi hmatch => ?_)
    have hlt := hmatch.lt_length hquery
    have hlength : "an Errorİ".toList.length = 9 := by decide
    obtain rfl : i = 8 := by omega
    exact absurd hmatch (by decide)
  refine findsMatches_of_keepsPositions hquery ⟨[3], hleftmost, by decide, fun i hi => ?_⟩
  have hle := hi.add_length_le (by decide)
  have hlengths : (dotted.lowered "error".toList).length = 5 ∧
      (dotted.lowered "an Errorİ".toList).length = 10 := by decide
  have honly : ∀ i < 6, OccursAt (dotted.lowered "error".toList)
      (dotted.lowered "an Errorİ".toList) i → i = 3 := by decide
  obtain rfl := honly i (by omega) hi
  exact ⟨3, by decide, by decide, by decide⟩

/-- The offset of a match behind a lengthened character is one too high. -/
theorem not_findsMatches : ¬ dotted.FindsMatches "İa".toList "a".toList := by
  intro h
  exact absurd (h.isMatch 2 (by decide)) (by decide)

end CaseMapping

end Portex
