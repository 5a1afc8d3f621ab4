import Portex.Foundation.SortKey
import Portex.Terminal.MatchKinds
import Portex.Terminal.Timeline
import Mathlib.Algebra.Order.Field.Rat
import Mathlib.Data.List.Lex

/-!
# The pages of a search in the history

A search goes through the snapshots of a timeline, sorts those that match, and gives them out page
by page. Times and densities are compared as floats, so that two of them can be equal that are not
so; the session ids at the end of each key decide then.

## Main definitions

* `Rounding`: how quotients are rounded
* `relevanceKey`, `newestKey`, `oldestKey`: the keys of `_sort_history_search_matches`
* `searchHistoryByGroup`: a page of a search
* `IsRanking`: every snapshot with a match, once, in the order that was asked for
* `SearchRead`: a client that reads page after page reads such a ranking

## Main results

* `search_read`: the pages of a search
* `oldest_eq_reverse_newest_iff`: when the oldest come first in just the other order
-/

namespace Portex

open Foundation

/-- How quotients are rounded to floats. The quotients of the search are no greater than floats can
be. -/
structure Rounding where
  round : ℚ → ℚ
  mono : Monotone round

/-- The ticks between `datetime.min` and the epoch. -/
def epochTicks : ℕ := 719162 * 86400 * 1000000

/-- `value.timestamp()`. -/
def Rounding.timestamp (rounding : Rounding) (ticks : ℕ) : ℚ :=
  rounding.round (((ticks : ℚ) - epochTicks) / 1000000)

inductive TerminalHistorySearchSort
  | relevance | newest | oldest
  deriving DecidableEq

/-- `_normalize_search_sort`. -/
def normalizeSearchSort (sort : String) : Except HistoryError TerminalHistorySearchSort :=
  if sort = "relevance" then .ok .relevance
  else if sort = "newest" then .ok .newest
  else if sort = "oldest" then .ok .oldest
  else .error (.value "sort must be one of: relevance, newest, oldest")

/-! ## Keys -/

section Keys

variable (rounding : Rounding)

/-- What `"relevance"` compares of the output: counts, offsets and the density. -/
def relevanceOfOutput (item : TerminalSessionHistorySearchCandidate) : List ℤ ×ₗ ℚ :=
  let counts : List ℤ :=
    [-item.found.matchCount,
      -item.lineStartLogMarkerMatchCount,
      -item.lineStartDelimitedLogMarkerMatchCount,
      -item.lineStartExactTagMarkerMatchCount,
      -item.lineStartExactTagColonMarkerMatchCount,
      -item.lineStartSquareBracketExactTagDashMarkerMatchCount,
      -item.lineStartParenWrapperMarkerMatchCount,
      -item.lineStartBraceWrapperMarkerMatchCount,
      -item.lineStartNonSquareBracketExactTagColonMarkerMatchCount,
      -item.lineStartNonSquareBracketExactTagDashMarkerMatchCount,
      -item.lineStartExactTagMatchCount,
      -item.lineStartSquareBracketExactTagMatchCount,
      -item.lineStartParenWrapperPlainExactTagMatchCount,
      -item.lineStartBraceWrapperPlainExactTagMatchCount,
      item.lineStartAngleWrapperPlainExactTagMatchCount,
      -item.lineStartPlainExactTagSingleSpaceSeparatorMatchCount,
      -item.conditionalFirstLineStartNonSingleSpacePlainExactTagSeparatorOffset,
      item.conditionalLineStartPlainExactTagPayloadlessSeparatorMatchCount,
      -item.conditionalFirstLineStartPlainExactTagPayloadlessSeparatorOffset,
      item.conditionalLineStartPlainExactTagTabPrefixedPayloadMatchCount,
      -item.conditionalFirstLineStartPlainExactTagTabPrefixedPayloadOffset,
      item.conditionalLineStartPlainExactTagMultiSpacePayloadMatchCount,
      -item.conditionalFirstLineStartPlainExactTagMultiSpacePayloadOffset,
      item.conditionalLineStartPlainExactTagSpacePrefixedMixedWhitespacePayloadMatchCount,
      -item.conditionalFirstLineStartPlainExactTagSpacePrefixedMixedWhitespacePayloadOffset,
      item.conditionalLineStartPlainExactTagOtherLeadingMixedWhitespacePayloadMatchCount,
      -item.conditionalFirstLineStartPlainExactTagOtherLeadingMixedWhitespacePayloadOffset,
      -item.conditionalFirstLineStartPlainExactTagOtherLeadingWhitespacePayloadOffset]
  let wraps : List ℤ :=
    [item.conditionalNonExactTagPunctuationWrapMatchCount,
      -item.lineStartPunctuationWrapMatchCount,
      -item.lineStartWholeWordMatchCount,
      item.conditionalNonLineStartWholeWordMatchCount,
      -item.wholeWordMatchCount]
  let offsets : List ℤ :=
    [item.firstLineStartLogMarkerOffset,
      item.firstLineStartDelimitedLogMarkerOffset,
      item.firstLineStartExactTagColonMarkerOffset,
      item.firstLineStartSquareBracketExactTagDashMarkerOffset,
      item.firstLineStartParenWrapperMarkerOffset,
      item.firstLineStartBraceWrapperMarkerOffset,
      item.firstLineStartNonSquareBracketExactTagColonMarkerOffset,
      item.firstLineStartNonSquareBracketExactTagDashMarkerOffset,
      item.firstLineStartSquareBracketPlainExactTagOffset,
      item.firstLineStartParenWrapperPlainExactTagOffset,
      item.firstLineStartBraceWrapperPlainExactTagOffset,
      item.firstLineStartAngleWrapperPlainExactTagOffset,
      item.firstLineStartPlainExactTagSingleSpaceSeparatorOffset,
      item.firstLineStartExactTagMarkerOffset,
      item.firstLineStartExactTagOffset,
      item.firstLineStartSquareBracketExactTagOffset,
      item.firstLineStartPunctuationWrapOffset,
      item.firstLineStartWholeWordOffset,
      item.firstWholeWordOffset,
      item.clusterSpan,
      item.firstMatchOffset]
  toLex (counts ++ wraps ++ offsets, -rounding.round item.matchDensity)

namespace TerminalSessionHistorySearchMatch

variable (found : TerminalSessionHistorySearchMatch)

def sessionId : String := found.record.sessionId

/-- The last components of the keys of `"newest"` and of `"oldest"`. -/
def tieKey : ℤ ×ₗ List Char := toLex (-found.matchCount, found.sessionId.toList)

/-- The key of `"newest"`. -/
def newestKey : ℚ ×ₗ ℤ ×ₗ List Char :=
  toLex (-rounding.timestamp found.snapshotAt, found.tieKey)

/-- The key of `"oldest"`. -/
def oldestKey : ℚ ×ₗ ℤ ×ₗ List Char :=
  toLex (rounding.timestamp found.snapshotAt, found.tieKey)

/-- The last two components of the key of `"relevance"`. -/
def newerKey : ℚ ×ₗ List Char :=
  toLex (-rounding.timestamp found.snapshotAt, found.sessionId.toList)

end TerminalSessionHistorySearchMatch

/-- The key of `"relevance"`. -/
def relevanceKey (item : TerminalSessionHistorySearchCandidate) :
    (List ℤ ×ₗ ℚ) ×ₗ ℚ ×ₗ List Char :=
  toLex (relevanceOfOutput rounding item, item.found.newerKey rounding)

/-- `_sort_history_search_matches`. -/
def sortHistorySearchMatches (candidates : List TerminalSessionHistorySearchCandidate) :
    TerminalHistorySearchSort → List TerminalSessionHistorySearchMatch
  | .relevance => (sortedBy (relevanceKey rounding) candidates).map (·.found)
  | .newest => (sortedBy (fun item => item.found.newestKey rounding) candidates).map (·.found)
  | .oldest => (sortedBy (fun item => item.found.oldestKey rounding) candidates).map (·.found)

end Keys

/-! ## Searches -/

/-- How the search sees characters and floats. -/
structure SearchEnvironment where
  whitespace : Whitespace
  casing : CaseMapping
  rounding : Rounding

/-- `_search_history_snapshots`. -/
def searchHistorySnapshots (env : SearchEnvironment)
    (snapshots : List TerminalSessionHistorySnapshot) (query : List Char)
    (sort : TerminalHistorySearchSort) (snippetLimit snippetContextChars : ℕ) :
    List TerminalSessionHistorySearchMatch :=
  sortHistorySearchMatches env.rounding
    (env.whitespace.searchCandidates env.casing snapshots query snippetLimit snippetContextChars)
    sort

structure TerminalSessionHistorySearchPage where
  query : List Char
  limit : ℤ
  offset : ℤ
  total : ℕ
  hasMore : Bool
  items : List TerminalSessionHistorySearchMatch

/-- What a client asks a search for. -/
structure HistorySearch where
  query : String
  sort : String := "relevance"
  filter : HistoryFilter := {}
  snippetLimit : ℤ := 3
  snippetContextChars : ℤ := 40

namespace TerminalSessionService

variable (s : TerminalSessionService) (disk : TerminalHistoryDisk) (env : SearchEnvironment)

/-- `search_history_by_group`. -/
def searchHistoryByGroup (groupFolder : String) (search : HistorySearch) (limit offset : ℤ) :
    Except HistoryError TerminalSessionHistorySearchPage := do
  let normalizedQuery := strip search.query.toList
  let normalizedSort ← normalizeSearchSort search.sort
  if normalizedQuery = [] then .error (.value "query must not be empty")
  else if limit ≤ 0 then .error (.value "limit must be positive")
  else if offset < 0 then .error (.value "offset must be non-negative")
  else if search.snippetLimit ≤ 0 then .error (.value "snippet_limit must be positive")
  else if search.snippetContextChars < 0 then
    .error (.value "snippet_context_chars must be non-negative")
  else
    let snapshots ← s.listMergedHistorySnapshotsByGroup disk groupFolder
    let filtered ← filterHistorySnapshots snapshots search.filter
    if filtered = [] then .error (.session .notFound)
    else
      let items := searchHistorySnapshots env filtered normalizedQuery normalizedSort
        search.snippetLimit.toNat search.snippetContextChars.toNat
      let page := pageAt items limit offset
      return { query := normalizedQuery, limit, offset, total := items.length
               hasMore := page.hasMore, items := page.items }

end TerminalSessionService

/-! ## Rankings -/

section Rankings

variable (env : SearchEnvironment) (query : List Char) (snippetLimit snippetContextChars : ℕ)

/-- What a search says of a snapshot: how often it has the query, from left to right and without
overlaps, and the snippets around the first of these places. -/
structure IsFound (snapshot : TerminalSessionHistorySnapshot)
    (found : TerminalSessionHistorySearchMatch) : Prop where
  record : found.record = snapshot.record
  snapshotAt : found.snapshotAt = snapshot.snapshotAt
  offsets : ∃ offsets ≠ [], Leftmost (OccursAt (env.casing.lowered query)
      (env.casing.lowered snapshot.output.toList)) (env.casing.lowered query).length 0 offsets ∧
    found.matchCount = offsets.length ∧
    found.snippetMatches = buildSearchSnippets snapshot.output.toList offsets query.length
      snippetLimit snippetContextChars ∧
    found.snippets = found.snippetMatches.map TerminalSessionHistorySearchSnippet.text

/-- The snapshots that have the query, each once, in the order of a sort. -/
structure IsRanking (snapshots : List TerminalSessionHistorySnapshot)
    (sort : TerminalHistorySearchSort) (items : List TerminalSessionHistorySearchMatch) :
    Prop where
  complete : ∀ snapshot ∈ snapshots,
    (∃ item ∈ items, IsFound env query snippetLimit snippetContextChars snapshot item) ↔
      env.casing.lowered query <:+: env.casing.lowered snapshot.output.toList
  sound : ∀ item ∈ items, ∃ snapshot ∈ snapshots,
    IsFound env query snippetLimit snippetContextChars snapshot item
  nodup : (items.map TerminalSessionHistorySearchMatch.sessionId).Nodup
  /-- More matches come first; and of two snapshots with one output, the newer one. -/
  relevance : sort = .relevance → items.Pairwise fun item item' =>
    item'.matchCount ≤ item.matchCount ∧
      ∀ snapshot ∈ snapshots, ∀ snapshot' ∈ snapshots, item.record = snapshot.record →
        item'.record = snapshot'.record → snapshot.output = snapshot'.output →
          item.newerKey env.rounding < item'.newerKey env.rounding
  newest : sort = .newest → items.Pairwise fun item item' =>
    item.newestKey env.rounding < item'.newestKey env.rounding
  oldest : sort = .oldest → items.Pairwise fun item item' =>
    item.oldestKey env.rounding < item'.oldestKey env.rounding

/-- One round of the loop of `_search_history_snapshots`. -/
def searchCandidate (snapshot : TerminalSessionHistorySnapshot) :
    Option TerminalSessionHistorySearchCandidate :=
  let text := snapshot.output.toList
  let offsets := env.casing.findCaseInsensitiveMatchOffsets text query
  if nonempty : offsets = [] then none
  else
    let snippetMatches := buildSearchSnippets text offsets query.length snippetLimit
      snippetContextChars
    let found :=
      { record := snapshot.record
        snapshotAt := snapshot.snapshotAt
        matchCount := offsets.length
        snippets := snippetMatches.map TerminalSessionHistorySearchSnippet.text
        snippetMatches }
    some (env.whitespace.buildSearchCandidate found text offsets nonempty query.length text.length)

end Rankings

variable {env : SearchEnvironment} {query : List Char} {snippetLimit snippetContextChars : ℕ}
  {snapshots snapshots' : List TerminalSessionHistorySnapshot}
  {snapshot snapshot' : TerminalSessionHistorySnapshot}
  {item item' : TerminalSessionHistorySearchCandidate}

theorem searchCandidates_eq (hquery : query ≠ []) :
    env.whitespace.searchCandidates env.casing snapshots query snippetLimit snippetContextChars =
      snapshots.filterMap (searchCandidate env query snippetLimit snippetContextChars) :=
  if_neg (by rwa [Nat.le_zero, List.length_eq_zero_iff])

/-- Where the query is not at all in a text, no places of it are taken. -/
theorem leftmost_eq_nil_iff {sub text : List Char} {width : ℕ} {offsets : List ℕ}
    (h : Leftmost (OccursAt sub text) width 0 offsets) : offsets = [] ↔ ¬ sub <:+: text := by
  constructor
  · rintro rfl hinfix
    obtain ⟨before, after, rfl⟩ := hinfix
    obtain ⟨o, ho, _⟩ := h.covers (Nat.zero_le _) (occursAt_append before sub after)
    cases ho
  · intro hinfix
    cases offsets with
    | nil => rfl
    | cons o offsets =>
      have hocc := (h.mem o List.mem_cons_self).2
      exact absurd (hocc.isInfix.trans (List.drop_suffix o text).isInfix) hinfix

theorem searchCandidate_eq_none_iff (hquery : query ≠ []) :
    searchCandidate env query snippetLimit snippetContextChars snapshot = none ↔
      ¬ env.casing.lowered query <:+: env.casing.lowered snapshot.output.toList := by
  rw [← leftmost_eq_nil_iff (CaseMapping.leftmost_findCaseInsensitiveMatchOffsets env.casing
    snapshot.output.toList hquery)]
  simp [searchCandidate]

theorem isFound_of_searchCandidate (hquery : query ≠ [])
    (h : searchCandidate env query snippetLimit snippetContextChars snapshot = some item) :
    IsFound env query snippetLimit snippetContextChars snapshot item.found := by
  unfold searchCandidate at h
  dsimp only at h
  split at h
  · cases h
  · rename_i hne
    obtain rfl := Option.some.inj h
    exact ⟨rfl, rfl, _, hne, CaseMapping.leftmost_findCaseInsensitiveMatchOffsets env.casing _
      hquery, rfl, rfl, rfl⟩

/-- What the relevance has of a candidate besides its time comes from the output. -/
theorem relevanceOfOutput_congr
    (h : searchCandidate env query snippetLimit snippetContextChars snapshot = some item)
    (h' : searchCandidate env query snippetLimit snippetContextChars snapshot' = some item')
    (houtput : snapshot.output = snapshot'.output) :
    relevanceOfOutput env.rounding item = relevanceOfOutput env.rounding item' := by
  unfold searchCandidate at h h'
  dsimp only at h h'
  rw [← houtput] at h'
  split at h
  · cases h
  · rename_i hne
    rw [dif_neg hne] at h'
    obtain rfl := Option.some.inj h
    obtain rfl := Option.some.inj h'
    rfl

/-! ## Orders -/

/-- The head of a list decides before the rest does. -/
theorem head_le_of_lt {a b : ℤ} {l m : List ℤ} (h : a :: l ≤ b :: m) : a ≤ b := by
  by_contra hlt
  exact absurd h (not_le.mpr (List.Lex.rel (not_le.mp hlt)))

theorem matchCount_le_of_relevanceKey_lt
    (h : relevanceKey env.rounding item < relevanceKey env.rounding item') :
    item'.found.matchCount ≤ item.found.matchCount := by
  have hle : relevanceOfOutput env.rounding item ≤ relevanceOfOutput env.rounding item' := by
    obtain hlt | ⟨heq, _⟩ := Prod.Lex.toLex_lt_toLex.mp h
    · exact hlt.le
    · exact heq.le
  have hcounts : (ofLex (relevanceOfOutput env.rounding item)).1 ≤
      (ofLex (relevanceOfOutput env.rounding item')).1 := by
    obtain hlt | ⟨heq, _⟩ := Prod.Lex.le_iff.mp hle
    · exact hlt.le
    · exact heq.le
  have hhead := head_le_of_lt hcounts
  omega

/-- A selection of some items, renamed, has the names in their order. -/
theorem map_filterMap_sublist {α β γ : Type} {f : α → Option β} {g : β → γ} {g' : α → γ}
    (h : ∀ a b, f a = some b → g b = g' a) (l : List α) :
    ((l.filterMap f).map g).Sublist (l.map g') := by
  induction l with
  | nil => exact List.Sublist.slnil
  | cons a l ih =>
    cases hfa : f a with
    | none =>
      rw [List.filterMap_cons_none hfa]
      exact ih.cons _
    | some b =>
      rw [List.filterMap_cons_some hfa, List.map_cons, List.map_cons, h a b hfa]
      exact ih.cons_cons _

theorem nodup_sessionId_candidates (env : SearchEnvironment)
    (snippetLimit snippetContextChars : ℕ) (hquery : query ≠ [])
    (hnodup : (snapshots.map TerminalSessionHistorySnapshot.sessionId).Nodup) :
    ((snapshots.filterMap (searchCandidate env query snippetLimit snippetContextChars)).map
      fun item => item.found.sessionId).Nodup := by
  refine hnodup.sublist (map_filterMap_sublist (fun snapshot item hitem => ?_) snapshots)
  have hrecord := (isFound_of_searchCandidate hquery hitem).record
  exact congrArg TerminalSessionRecord.sessionId hrecord

/-- A key that ends in the session id is different for different sessions. -/
theorem nodup_key {κ : Type} {candidates : List TerminalSessionHistorySearchCandidate}
    (key : TerminalSessionHistorySearchCandidate → κ) (sessionIdOf : κ → List Char)
    (hkey : ∀ item, sessionIdOf (key item) = item.found.sessionId.toList)
    (hnodup : (candidates.map fun item => item.found.sessionId).Nodup) :
    (candidates.map key).Nodup := by
  apply List.Nodup.of_map sessionIdOf
  rw [List.map_map]
  have hids := hnodup.map fun _ _ h => String.toList_inj.mp h
  rw [List.map_map] at hids
  have hcomp : sessionIdOf ∘ key = String.toList ∘ fun item => item.found.sessionId :=
    funext hkey
  rwa [hcomp]

section Sorted

variable (hquery : query ≠ [])
  (hnodup : (snapshots.map TerminalSessionHistorySnapshot.sessionId).Nodup)

include hquery

theorem mem_searchHistorySnapshots {sort : TerminalHistorySearchSort}
    {found : TerminalSessionHistorySearchMatch} :
    found ∈ searchHistorySnapshots env snapshots query sort snippetLimit snippetContextChars ↔
      ∃ snapshot ∈ snapshots, ∃ item,
        searchCandidate env query snippetLimit snippetContextChars snapshot = some item ∧
          item.found = found := by
  unfold searchHistorySnapshots sortHistorySearchMatches
  rw [searchCandidates_eq hquery]
  cases sort with
  | relevance | newest | oldest =>
    simp only [List.mem_map, mem_sortedBy, List.mem_filterMap]
    constructor
    · rintro ⟨item, ⟨snapshot, hmem, hitem⟩, rfl⟩
      exact ⟨snapshot, hmem, item, hitem, rfl⟩
    · rintro ⟨snapshot, hmem, item, hitem, rfl⟩
      exact ⟨item, ⟨snapshot, hmem, hitem⟩, rfl⟩

include hnodup

theorem nodup_searchHistorySnapshots (sort : TerminalHistorySearchSort) :
    ((searchHistorySnapshots env snapshots query sort snippetLimit snippetContextChars).map
      TerminalSessionHistorySearchMatch.sessionId).Nodup := by
  have hids := nodup_sessionId_candidates env snippetLimit snippetContextChars hquery hnodup
  unfold searchHistorySnapshots sortHistorySearchMatches
  rw [searchCandidates_eq hquery]
  cases sort with
  | relevance | newest | oldest =>
    rw [List.map_map]
    exact ((sortedBy_perm _ _).map _).nodup_iff.mpr hids

theorem searchCandidate_of_record
    (hitem : item ∈ snapshots.filterMap (searchCandidate env query snippetLimit
      snippetContextChars)) (hmem : snapshot ∈ snapshots)
    (hrecord : item.found.record = snapshot.record) :
    searchCandidate env query snippetLimit snippetContextChars snapshot = some item := by
  obtain ⟨source, hsource, hcandidate⟩ := List.mem_filterMap.mp hitem
  have hsame := (isFound_of_searchCandidate hquery hcandidate).record.symm.trans hrecord
  have hids : source.sessionId = snapshot.sessionId := congrArg TerminalSessionRecord.sessionId hsame
  rwa [← List.inj_on_of_nodup_map hnodup hsource hmem hids]

/-- The most relevant first. -/
theorem pairwise_relevance : (searchHistorySnapshots env snapshots query .relevance snippetLimit
    snippetContextChars).Pairwise fun found found' =>
      found'.matchCount ≤ found.matchCount ∧
        ∀ snapshot ∈ snapshots, ∀ snapshot' ∈ snapshots, found.record = snapshot.record →
          found'.record = snapshot'.record → snapshot.output = snapshot'.output →
            found.newerKey env.rounding < found'.newerKey env.rounding := by
  have hids := nodup_sessionId_candidates env snippetLimit snippetContextChars hquery hnodup
  have hkeys := nodup_key (relevanceKey env.rounding)
    (fun key => (ofLex (ofLex key).2).2) (fun _ => rfl) hids
  unfold searchHistorySnapshots sortHistorySearchMatches
  rw [searchCandidates_eq hquery, List.pairwise_map]
  refine (pairwise_lt_sortedBy hkeys).imp_of_mem fun {item item'} hitem hitem' hlt => ⟨?_, ?_⟩
  · exact matchCount_le_of_relevanceKey_lt hlt
  · -- The sessions are different, so that the records say which candidates these are.
    intro snapshot hmem snapshot' hmem' hrecord hrecord' houtput
    have houtputs := relevanceOfOutput_congr
      (searchCandidate_of_record hquery hnodup (mem_sortedBy.mp hitem) hmem hrecord)
      (searchCandidate_of_record hquery hnodup (mem_sortedBy.mp hitem') hmem' hrecord') houtput
    obtain hlt | ⟨_, hlt⟩ := Prod.Lex.toLex_lt_toLex.mp hlt
    · exact absurd houtputs hlt.ne
    · exact hlt

/-- **The ranking** that a search sorts its snapshots into. -/
theorem isRanking_searchHistorySnapshots (sort : TerminalHistorySearchSort) :
    IsRanking env query snippetLimit snippetContextChars snapshots sort
      (searchHistorySnapshots env snapshots query sort snippetLimit snippetContextChars) := by
  have hids := nodup_sessionId_candidates env snippetLimit snippetContextChars hquery hnodup
  refine ⟨fun snapshot hmem => ?_, fun found hfound => ?_, nodup_searchHistorySnapshots hquery
    hnodup sort, ?_, ?_, ?_⟩
  · constructor
    · rintro ⟨found, _, hfound⟩
      obtain ⟨offsets, hne, hleftmost, _⟩ := hfound.offsets
      exact Decidable.not_not.mp fun hnot => hne ((leftmost_eq_nil_iff hleftmost).mpr hnot)
    · intro hinfix
      cases hitem : searchCandidate env query snippetLimit snippetContextChars snapshot with
      | none => exact absurd hinfix ((searchCandidate_eq_none_iff hquery).mp hitem)
      | some item =>
        exact ⟨item.found, (mem_searchHistorySnapshots hquery).mpr
          ⟨snapshot, hmem, item, hitem, rfl⟩, isFound_of_searchCandidate hquery hitem⟩
  · obtain ⟨snapshot, hmem, item, hitem, rfl⟩ := (mem_searchHistorySnapshots hquery).mp hfound
    exact ⟨snapshot, hmem, isFound_of_searchCandidate hquery hitem⟩
  · rintro rfl
    exact pairwise_relevance hquery hnodup
  · rintro rfl
    have hkeys := nodup_key (fun item => item.found.newestKey env.rounding)
      (fun key => (ofLex (ofLex key).2).2) (fun _ => rfl) hids
    unfold searchHistorySnapshots sortHistorySearchMatches
    rw [searchCandidates_eq hquery, List.pairwise_map]
    exact pairwise_lt_sortedBy hkeys
  · rintro rfl
    have hkeys := nodup_key (fun item => item.found.oldestKey env.rounding)
      (fun key => (ofLex (ofLex key).2).2) (fun _ => rfl) hids
    unfold searchHistorySnapshots sortHistorySearchMatches
    rw [searchCandidates_eq hquery, List.pairwise_map]
    exact pairwise_lt_sortedBy hkeys

end Sorted

/-! ## Pages -/

def TerminalSessionHistorySearchPage.page (page : TerminalSessionHistorySearchPage) :
    Page TerminalSessionHistorySearchMatch := ⟨page.items, page.hasMore⟩

/-- The page of a search from an offset on, as a client asks for it. -/
def fetchSearchPage (s : TerminalSessionService) (disk : TerminalHistoryDisk)
    (env : SearchEnvironment) (groupFolder : String) (search : HistorySearch) (limit offset : ℤ) :
    Except HistoryError (Page TerminalSessionHistorySearchMatch) :=
  (s.searchHistoryByGroup disk env groupFolder search limit offset).map
    TerminalSessionHistorySearchPage.page

/-- A client comes to the end of the pages and has then read a ranking of the snapshots, whose
length is the total of each page. -/
structure SearchRead (s : TerminalSessionService) (disk : TerminalHistoryDisk)
    (env : SearchEnvironment) (groupFolder : String) (search : HistorySearch) (limit : ℤ)
    (sort : TerminalHistorySearchSort) (filtered : List TerminalSessionHistorySnapshot)
    (items : List TerminalSessionHistorySearchMatch) : Prop where
  ranking : IsRanking env (strip search.query.toList) search.snippetLimit.toNat
    search.snippetContextChars.toNat filtered sort items
  total : ∀ offset page, s.searchHistoryByGroup disk env groupFolder search limit offset =
    .ok page → page.total = items.length
  pagesEnd : ∃ pages, ReadsFrom (fetchSearchPage s disk env groupFolder search limit) limit 0 pages
  pages : ∀ pages, ReadsFrom (fetchSearchPage s disk env groupFolder search limit) limit 0 pages →
    pages.flatten = items

section Pages

variable {s : TerminalSessionService} {disk : TerminalHistoryDisk} {groupFolder : String}
  {search : HistorySearch} {limit offset : ℤ} {sort : TerminalHistorySearchSort}
  {timeline filtered : List TerminalSessionHistorySnapshot} {filter : HistoryFilter}

/-- The snapshots that are searched are of different sessions. -/
theorem nodup_filtered
    (htimeline : s.listMergedHistorySnapshotsByGroup disk groupFolder = .ok timeline)
    (hfilter : filterHistorySnapshots timeline filter = .ok filtered) :
    (filtered.map TerminalSessionHistorySnapshot.sessionId).Nodup := by
  cases hload : disk.loadHistoryTimelineFromPersistence groupFolder with
  | error error =>
    unfold TerminalSessionService.listMergedHistorySnapshotsByGroup at htimeline
    rw [hload] at htimeline
    cases htimeline
  | ok loaded =>
    rw [listMerged_eq hload rfl] at htimeline
    split at htimeline
    · cases htimeline
    · obtain rfl := Except.ok.inj htimeline
      exact (isTimeline_sorted _).nodup.sublist ((filterHistorySnapshots_sublist hfilter).map _)

theorem searchHistoryByGroup_eq (env : SearchEnvironment)
    (htimeline : s.listMergedHistorySnapshotsByGroup disk groupFolder = .ok timeline)
    (hfilter : filterHistorySnapshots timeline search.filter = .ok filtered) (hne : filtered ≠ [])
    (hsort : normalizeSearchSort search.sort = .ok sort) (hquery : strip search.query.toList ≠ [])
    (hsnippets : 0 < search.snippetLimit) (hcontext : 0 ≤ search.snippetContextChars)
    (hlimit : 0 < limit) (hoffset : 0 ≤ offset) :
    let items := searchHistorySnapshots env filtered (strip search.query.toList) sort
      search.snippetLimit.toNat search.snippetContextChars.toNat
    s.searchHistoryByGroup disk env groupFolder search limit offset =
      .ok { query := strip search.query.toList, limit, offset, total := items.length
            hasMore := (pageAt items limit offset).hasMore
            items := (pageAt items limit offset).items } := by
  unfold TerminalSessionService.searchHistoryByGroup
  rw [hsort]
  simp only [bind, Except.bind, if_neg hquery, if_neg (not_le.mpr hlimit),
    if_neg (not_lt.mpr hoffset), if_neg (not_le.mpr hsnippets), if_neg (not_lt.mpr hcontext),
    htimeline, hfilter, if_neg hne]
  rfl

theorem searchHistoryByGroup_of_neg (hlimit : 0 < limit) (hoffset : offset < 0)
    (page : TerminalSessionHistorySearchPage) :
    s.searchHistoryByGroup disk env groupFolder search limit offset ≠ .ok page := by
  intro h
  unfold TerminalSessionService.searchHistoryByGroup at h
  cases hsort : normalizeSearchSort search.sort with
  | error error =>
    rw [hsort] at h
    cases h
  | ok sort =>
    rw [hsort] at h
    simp only [bind, Except.bind, if_neg (not_le.mpr hlimit), if_pos hoffset] at h
    split at h <;> cases h

/-- **The pages of a search.** Whoever reads them from the first to the last reads each snapshot
that the filter asks for and that has the query once, in the order of the sort. -/
theorem search_read
    (htimeline : s.listMergedHistorySnapshotsByGroup disk groupFolder = .ok timeline)
    (hfilter : filterHistorySnapshots timeline search.filter = .ok filtered) (hne : filtered ≠ [])
    (hsort : normalizeSearchSort search.sort = .ok sort) (hquery : strip search.query.toList ≠ [])
    (hsnippets : 0 < search.snippetLimit) (hcontext : 0 ≤ search.snippetContextChars)
    (hlimit : 0 < limit) :
    filtered = timeline.filter (search.filter.Asks ·) ∧
      ∃ items, SearchRead s disk env groupFolder search limit sort filtered items := by
  have hpage := fun (offset : ℤ) (hoffset : 0 ≤ offset) =>
    searchHistoryByGroup_eq env htimeline hfilter hne hsort hquery hsnippets hcontext hlimit
      hoffset
  -- No page depends on the offset otherwise than by the part it takes of the ranking.
  have hread := readsFrom_zero_iff (fetchSearchPage s disk env groupFolder search limit)
    (searchHistorySnapshots env filtered (strip search.query.toList) sort
      search.snippetLimit.toNat search.snippetContextChars.toNat) hlimit fun offset hoffset => by
      unfold fetchSearchPage
      rw [hpage offset hoffset]
      rfl
  refine ⟨(filterHistorySnapshots_eq_ok.mp hfilter).2, _,
    isRanking_searchHistorySnapshots hquery (nodup_filtered htimeline hfilter) sort,
      fun offset page h => ?_, hread.1, hread.2⟩
  by_cases hoffset : 0 ≤ offset
  · rw [hpage offset hoffset] at h
    obtain rfl := Except.ok.inj h
    rfl
  · exact absurd h (searchHistoryByGroup_of_neg hlimit (not_le.mp hoffset) page)

/-- Nothing is rounded. -/
def exampleSearchEnvironment : SearchEnvironment where
  whitespace := ⟨isSpace, rfl, rfl, rfl⟩
  casing := .dotted
  rounding := ⟨id, monotone_id⟩

def exampleFiltered : List TerminalSessionHistorySnapshot :=
  [exampleSnapshot "s2" .closed 7 "latest", exampleSnapshot "s1" .exited 5 "old"]

/-- The sessions of `user-1`, in which an `l` is looked for. -/
def exampleSearch : HistorySearch where
  query := " L "
  sort := "oldest"
  filter := { ownerUserId := some " user-1 ", sessionIdPrefix := some "s" }

theorem search_read_alpha :
    exampleFiltered = exampleFiltered.filter (exampleSearch.filter.Asks ·) ∧
      ∃ items, SearchRead {} exampleHistoryDisk exampleSearchEnvironment "alpha" exampleSearch 1
        .oldest exampleFiltered items :=
  @search_read exampleSearchEnvironment {} exampleHistoryDisk "alpha" exampleSearch 1 .oldest
    exampleFiltered _ rfl rfl (List.cons_ne_nil _ _) rfl (by decide) (by decide) (by decide)
    (by decide)

/-- **The order of time.** The oldest come first in just the other order than the newest if and only
if no two of the snapshots have one time, as floats have it. -/
theorem oldest_eq_reverse_newest_iff
    (htimeline : s.listMergedHistorySnapshotsByGroup disk groupFolder = .ok timeline)
    (hfilter : filterHistorySnapshots timeline filter = .ok filtered) (hquery : query ≠ []) :
    searchHistorySnapshots env filtered query .oldest snippetLimit snippetContextChars =
        (searchHistorySnapshots env filtered query .newest snippetLimit
          snippetContextChars).reverse ↔
      ((searchHistorySnapshots env filtered query .oldest snippetLimit snippetContextChars).map
        fun found => env.rounding.timestamp found.snapshotAt).Nodup := by
  have hids := nodup_sessionId_candidates env snippetLimit snippetContextChars hquery
    (nodup_filtered htimeline hfilter)
  have hties := nodup_key (fun item => item.found.tieKey) (fun key => (ofLex key).2) (fun _ => rfl)
    hids
  unfold searchHistorySnapshots sortHistorySearchMatches
  rw [searchCandidates_eq hquery]
  generalize filtered.filterMap (searchCandidate env query snippetLimit snippetContextChars) =
    candidates at hties
  dsimp only
  -- The keys look at what was found only, which can be sorted then without the rest.
  rw [map_sortedBy (fun item : TerminalSessionHistorySearchCandidate => item.found)
      (fun found => found.oldestKey env.rounding),
    map_sortedBy (fun item : TerminalSessionHistorySearchCandidate => item.found)
      (fun found => found.newestKey env.rounding)]
  have hfound : ((candidates.map fun item => item.found).map
      TerminalSessionHistorySearchMatch.tieKey).Nodup := by
    rwa [List.map_map]
  rw [((sortedBy_perm _ _).map _).nodup_iff]
  exact sortedBy_eq_reverse_iff (fun _ _ => neg_lt_neg_iff) hfound

theorem oldest_eq_reverse_newest_alpha :
    searchHistorySnapshots exampleSearchEnvironment exampleFiltered "l".toList .oldest 3 40 =
        (searchHistorySnapshots exampleSearchEnvironment exampleFiltered "l".toList .newest 3
          40).reverse ↔
      ((searchHistorySnapshots exampleSearchEnvironment exampleFiltered "l".toList .oldest 3 40).map
        fun found => exampleSearchEnvironment.rounding.timestamp found.snapshotAt).Nodup :=
  @oldest_eq_reverse_newest_iff exampleSearchEnvironment _ 3 40 {} exampleHistoryDisk "alpha"
    exampleFiltered exampleFiltered {} rfl rfl (by decide)

end Pages

end Portex
