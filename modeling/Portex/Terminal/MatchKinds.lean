import Mathlib.Data.Rat.Defs
import Portex.Terminal.State
import Portex.Terminal.HistorySearch

/-!
# The kinds of matches

How the search in the history ranks its matches: by what stands around them in the output. Each
kind is a predicate of a text, an offset and the length of the query, and what is ranked are the
numbers of offsets of each kind and the first of them.

## Main definitions

* `Whitespace`: the characters that `str.isspace` accepts
* `isWholeWordMatch`, `isLineStartLogMarkerMatch`, `isLineStartPunctuationWrapMatch` and so on: the
  kinds that need no whitespace
* `Whitespace.isLineStartExactTagMatch` and so on: the kinds of exact tags
* `countHits`: the number of offsets of a kind, and the first
* `Whitespace.buildSearchCandidate`: what a snapshot is ranked by
-/

namespace Portex

open Foundation

/-- The characters that `str.isspace` accepts. -/
structure Whitespace where
  isSpace : Char → Bool
  space : isSpace ' ' = true
  tab : isSpace '\t' = true
  newline : isSpace '\n' = true

/-- `_is_word_char`. -/
def isWordChar (char : Char) : Bool :=
  ('a' ≤ char && char ≤ 'z') || ('A' ≤ char && char ≤ 'Z') || ('0' ≤ char && char ≤ '9') ||
    char = '_'

/-- `_LINE_START_PUNCTUATION_WRAP_PAIRS.get`. -/
def lineStartPunctuationWrapPairs (opening : Char) : Option Char :=
  if opening = '[' then some ']'
  else if opening = '(' then some ')'
  else if opening = '\x7b' then some '\x7d'
  else if opening = '<' then some '>'
  else none

/-! ## Words and wrappers -/

section Words

variable (text : List Char) (offset queryLength : ℕ)

/-- `_is_whole_word_match`. -/
def isWholeWordMatch : Bool :=
  let stop := offset + queryLength
  if text.length < stop then false
  else
    let prevChar := if 0 < offset then text[offset - 1]? else none
    let nextChar := if stop < text.length then text[stop]? else none
    let prevIsWordChar := match prevChar with
      | none => false
      | some char => isWordChar char
    let nextIsWordChar := match nextChar with
      | none => false
      | some char => isWordChar char
    !prevIsWordChar && !nextIsWordChar

/-- `_is_line_start_whole_word_match`. -/
def isLineStartWholeWordMatch : Bool :=
  if !isWholeWordMatch text offset queryLength then false
  else offset = 0 || text[offset - 1]? = some '\n'

/-- `_is_line_start_log_marker_match`. -/
def isLineStartLogMarkerMatch : Bool :=
  if !isLineStartWholeWordMatch text offset queryLength then false
  else
    let stop := offset + queryLength
    slice text stop (stop + 1) = [':'] || slice text stop (stop + 2) = [' ', '-']

/-- `_is_line_start_punctuation_wrap_match`. -/
def isLineStartPunctuationWrapMatch : Bool :=
  if !isWholeWordMatch text offset queryLength then false
  else if offset ≤ 0 then false
  else
    match text[offset - 1]?.bind lineStartPunctuationWrapPairs with
    | none => false
    | some closing =>
      let openingOffset := offset - 1
      if openingOffset ≠ 0 && text[openingOffset - 1]? ≠ some '\n' then false
      else
        let stop := offset + queryLength
        slice text stop (stop + 1) = [closing]

end Words

namespace Whitespace

variable (w : Whitespace)

/-- `text == "" or text.isspace()`, of a text of at most one character. -/
def emptyOrSpace (text : List Char) : Bool := text.all w.isSpace

/-- `text.isspace()`. -/
def isSpaceText (text : List Char) : Bool := !text.isEmpty && text.all w.isSpace

section Tags

variable (text : List Char) (offset queryLength : ℕ)

/-- `_is_line_start_delimited_log_marker_match`. -/
def isLineStartDelimitedLogMarkerMatch : Bool :=
  if !isLineStartLogMarkerMatch text offset queryLength then false
  else
    let stop := offset + queryLength
    let trailingOffset :=
      if slice text stop (stop + 1) = [':'] then some (stop + 1)
      else if slice text stop (stop + 2) = [' ', '-'] then some (stop + 2)
      else none
    match trailingOffset with
    | none => false
    | some trailingOffset =>
      text.length ≤ trailingOffset || text[trailingOffset]?.any w.isSpace

/-- `_is_line_start_exact_tag_match`. -/
def isLineStartExactTagMatch : Bool :=
  if !isLineStartPunctuationWrapMatch text offset queryLength then false
  else
    let trailingOffset := offset + queryLength + 1
    match text[trailingOffset]? with
    | none => true
    | some trailingChar =>
      if w.isSpace trailingChar then true
      else if trailingChar = ':' then
        w.emptyOrSpace (slice text (trailingOffset + 1) (trailingOffset + 2))
      else if slice text trailingOffset (trailingOffset + 2) = [' ', '-'] then
        w.emptyOrSpace (slice text (trailingOffset + 2) (trailingOffset + 3))
      else false

/-- `_is_line_start_exact_tag_marker_match`. -/
def isLineStartExactTagMarkerMatch : Bool :=
  if !w.isLineStartExactTagMatch text offset queryLength then false
  else
    let trailingOffset := offset + queryLength + 1
    if slice text trailingOffset (trailingOffset + 1) = [':'] then
      w.emptyOrSpace (slice text (trailingOffset + 1) (trailingOffset + 2))
    else if slice text trailingOffset (trailingOffset + 2) = [' ', '-'] then
      w.emptyOrSpace (slice text (trailingOffset + 2) (trailingOffset + 3))
    else false

/-- `_is_line_start_exact_tag_colon_marker_match`. -/
def isLineStartExactTagColonMarkerMatch : Bool :=
  if !w.isLineStartExactTagMarkerMatch text offset queryLength then false
  else
    let trailingOffset := offset + queryLength + 1
    if slice text trailingOffset (trailingOffset + 1) ≠ [':'] then false
    else w.emptyOrSpace (slice text (trailingOffset + 1) (trailingOffset + 2))

/-- The match stands between these characters. -/
def isWrappedIn (opening closing : Char) (text : List Char) (offset queryLength : ℕ) : Bool :=
  slice text (offset - 1) offset = [opening] &&
    slice text (offset + queryLength) (offset + queryLength + 1) = [closing]

/-- `_is_line_start_square_bracket_exact_tag_match`. -/
def isLineStartSquareBracketExactTagMatch : Bool :=
  if !w.isLineStartExactTagMatch text offset queryLength then false
  else isWrappedIn '[' ']' text offset queryLength

/-- `_is_line_start_square_bracket_plain_exact_tag_match`. -/
def isLineStartSquareBracketPlainExactTagMatch : Bool :=
  if !w.isLineStartSquareBracketExactTagMatch text offset queryLength then false
  else if w.isLineStartExactTagMarkerMatch text offset queryLength then false
  else true

/-- The plain exact tags of the other wrappers. -/
def isLineStartWrapperPlainExactTagMatch (opening closing : Char) : Bool :=
  if !w.isLineStartExactTagMatch text offset queryLength then false
  else if w.isLineStartExactTagMarkerMatch text offset queryLength then false
  else isWrappedIn opening closing text offset queryLength

/-- `_is_line_start_angle_wrapper_plain_exact_tag_match`. -/
def isLineStartAngleWrapperPlainExactTagMatch : Bool :=
  w.isLineStartWrapperPlainExactTagMatch text offset queryLength '<' '>'

/-- `_is_line_start_paren_wrapper_plain_exact_tag_match`. -/
def isLineStartParenWrapperPlainExactTagMatch : Bool :=
  w.isLineStartWrapperPlainExactTagMatch text offset queryLength '(' ')'

/-- `_is_line_start_brace_wrapper_plain_exact_tag_match`. -/
def isLineStartBraceWrapperPlainExactTagMatch : Bool :=
  w.isLineStartWrapperPlainExactTagMatch text offset queryLength '\x7b' '\x7d'

/-- `_is_line_start_square_bracket_exact_tag_dash_marker_match`. -/
def isLineStartSquareBracketExactTagDashMarkerMatch : Bool :=
  if !w.isLineStartExactTagMarkerMatch text offset queryLength then false
  else if !w.isLineStartSquareBracketExactTagMatch text offset queryLength then false
  else
    let trailingOffset := offset + queryLength + 1
    if slice text trailingOffset (trailingOffset + 2) ≠ [' ', '-'] then false
    else w.emptyOrSpace (slice text (trailingOffset + 2) (trailingOffset + 3))

/-- The exact-tag markers of a wrapper. -/
def isLineStartWrapperMarkerMatch (opening closing : Char) : Bool :=
  if !w.isLineStartExactTagMarkerMatch text offset queryLength then false
  else isWrappedIn opening closing text offset queryLength

/-- `_is_line_start_paren_wrapper_marker_match`. -/
def isLineStartParenWrapperMarkerMatch : Bool :=
  w.isLineStartWrapperMarkerMatch text offset queryLength '(' ')'

/-- `_is_line_start_brace_wrapper_marker_match`. -/
def isLineStartBraceWrapperMarkerMatch : Bool :=
  w.isLineStartWrapperMarkerMatch text offset queryLength '\x7b' '\x7d'

/-- `_is_line_start_non_square_bracket_exact_tag_colon_marker_match`. -/
def isLineStartNonSquareBracketExactTagColonMarkerMatch : Bool :=
  if !w.isLineStartExactTagColonMarkerMatch text offset queryLength then false
  else if w.isLineStartSquareBracketExactTagMatch text offset queryLength then false
  else true

/-- `_is_line_start_non_square_bracket_exact_tag_dash_marker_match`. -/
def isLineStartNonSquareBracketExactTagDashMarkerMatch : Bool :=
  if !w.isLineStartExactTagMarkerMatch text offset queryLength then false
  else if w.isLineStartSquareBracketExactTagMatch text offset queryLength then false
  else
    let trailingOffset := offset + queryLength + 1
    if slice text trailingOffset (trailingOffset + 2) ≠ [' ', '-'] then false
    else w.emptyOrSpace (slice text (trailingOffset + 2) (trailingOffset + 3))

end Tags

/-! ## Separators -/

/-- The loop that looks for nothing but whitespace in the rest of a line. -/
def blankToLineEnd : List Char → Bool
  | [] => true
  | char :: rest =>
    if char = '\n' then true
    else if !w.isSpace char then false
    else blankToLineEnd rest

/-- The loop that looks for a payload in the rest of a line. -/
def payloadToLineEnd : List Char → Bool
  | [] => false
  | char :: rest =>
    if char = '\n' then false
    else if !w.isSpace char then true
    else payloadToLineEnd rest

section Separators

variable (text : List Char) (offset queryLength : ℕ)

/-- `_is_line_start_plain_exact_tag_single_space_separator_match`. -/
def isLineStartPlainExactTagSingleSpaceSeparatorMatch : Bool :=
  if !w.isLineStartExactTagMatch text offset queryLength then false
  else if w.isLineStartExactTagMarkerMatch text offset queryLength then false
  else
    let separatorOffset := offset + queryLength + 1
    if slice text separatorOffset (separatorOffset + 1) ≠ [' '] then false
    else
      let nextChar := slice text (separatorOffset + 1) (separatorOffset + 2)
      nextChar ≠ [] && !w.isSpaceText nextChar

/-- `_is_line_start_plain_exact_tag_payloadless_separator_match`. -/
def isLineStartPlainExactTagPayloadlessSeparatorMatch : Bool :=
  if !w.isLineStartExactTagMatch text offset queryLength then false
  else if w.isLineStartExactTagMarkerMatch text offset queryLength then false
  else
    let separatorOffset := offset + queryLength + 1
    if text.length ≤ separatorOffset then true
    else w.blankToLineEnd (text.drop separatorOffset)

/-- `_is_line_start_non_single_space_plain_exact_tag_separator_match`. -/
def isLineStartNonSingleSpacePlainExactTagSeparatorMatch : Bool :=
  if !w.isLineStartExactTagMatch text offset queryLength then false
  else if w.isLineStartExactTagMarkerMatch text offset queryLength then false
  else if w.isLineStartPlainExactTagSingleSpaceSeparatorMatch text offset queryLength then false
  else true

/-- `_is_line_start_plain_exact_tag_tab_prefixed_payload_match`. -/
def isLineStartPlainExactTagTabPrefixedPayloadMatch : Bool :=
  if !w.isLineStartExactTagMatch text offset queryLength then false
  else if w.isLineStartExactTagMarkerMatch text offset queryLength then false
  else if w.isLineStartPlainExactTagPayloadlessSeparatorMatch text offset queryLength then false
  else
    let separatorOffset := offset + queryLength + 1
    if slice text separatorOffset (separatorOffset + 1) ≠ ['\t'] then false
    else w.payloadToLineEnd (text.drop separatorOffset)

/-- `_is_line_start_plain_exact_tag_multi_space_payload_match`. -/
def isLineStartPlainExactTagMultiSpacePayloadMatch : Bool :=
  if !w.isLineStartExactTagMatch text offset queryLength then false
  else if w.isLineStartExactTagMarkerMatch text offset queryLength then false
  else if w.isLineStartPlainExactTagPayloadlessSeparatorMatch text offset queryLength then false
  else if w.isLineStartPlainExactTagTabPrefixedPayloadMatch text offset queryLength then false
  else
    let separatorOffset := offset + queryLength + 1
    if slice text separatorOffset (separatorOffset + 1) ≠ [' '] then false
    else if slice text (separatorOffset + 1) (separatorOffset + 2) ≠ [' '] then false
    else w.payloadToLineEnd (text.drop separatorOffset)

/-- `_is_line_start_plain_exact_tag_space_prefixed_mixed_whitespace_payload_match`. -/
def isLineStartPlainExactTagSpacePrefixedMixedWhitespacePayloadMatch : Bool :=
  if !w.isLineStartExactTagMatch text offset queryLength then false
  else if w.isLineStartExactTagMarkerMatch text offset queryLength then false
  else if w.isLineStartPlainExactTagPayloadlessSeparatorMatch text offset queryLength then false
  else if w.isLineStartPlainExactTagTabPrefixedPayloadMatch text offset queryLength then false
  else if w.isLineStartPlainExactTagMultiSpacePayloadMatch text offset queryLength then false
  else
    let separatorOffset := offset + queryLength + 1
    if slice text separatorOffset (separatorOffset + 1) ≠ [' '] then false
    else
      let secondSeparator := slice text (separatorOffset + 1) (separatorOffset + 2)
      if secondSeparator = [] || !w.isSpaceText secondSeparator || secondSeparator = [' '] then
        false
      else w.payloadToLineEnd (text.drop separatorOffset)

/-- `_is_line_start_plain_exact_tag_other_leading_whitespace_payload_match`. -/
def isLineStartPlainExactTagOtherLeadingWhitespacePayloadMatch : Bool :=
  if !w.isLineStartExactTagMatch text offset queryLength then false
  else if w.isLineStartExactTagMarkerMatch text offset queryLength then false
  else if w.isLineStartPlainExactTagPayloadlessSeparatorMatch text offset queryLength then false
  else if w.isLineStartPlainExactTagTabPrefixedPayloadMatch text offset queryLength then false
  else if w.isLineStartPlainExactTagMultiSpacePayloadMatch text offset queryLength then false
  else if w.isLineStartPlainExactTagSpacePrefixedMixedWhitespacePayloadMatch text offset
      queryLength then false
  else
    let separatorOffset := offset + queryLength + 1
    let leading := slice text separatorOffset (separatorOffset + 1)
    if leading = [] || !w.isSpaceText leading || leading = [' '] || leading = ['\t'] then false
    else w.payloadToLineEnd (text.drop separatorOffset)

/-- `_is_line_start_plain_exact_tag_other_leading_mixed_whitespace_payload_match`. -/
def isLineStartPlainExactTagOtherLeadingMixedWhitespacePayloadMatch : Bool :=
  if !w.isLineStartPlainExactTagOtherLeadingWhitespacePayloadMatch text offset queryLength then
    false
  else
    let separatorOffset := offset + queryLength + 1
    let secondSeparator := slice text (separatorOffset + 1) (separatorOffset + 2)
    secondSeparator ≠ [] && w.isSpaceText secondSeparator

end Separators

end Whitespace

/-! ## Counts -/

/-- The `_NO_…_MATCH_OFFSET` constants, which have one value. -/
def noMatchOffset : ℕ := 2 ^ 60

/-- The `_count_…_hits` functions: how many of the offsets are of a kind, and the first. -/
def countHits (isMatch : List Char → ℕ → ℕ → Bool) (text : List Char) (offsets : List ℕ)
    (queryLength : ℕ) : ℕ × ℕ :=
  match offsets.filter fun offset => isMatch text offset queryLength with
  | [] => (0, noMatchOffset)
  | first :: rest => (rest.length + 1, first)

/-- The `_count_…_hits` functions that only count. -/
def sumHits (isMatch : List Char → ℕ → ℕ → Bool) (text : List Char) (offsets : List ℕ)
    (queryLength : ℕ) : ℕ :=
  offsets.countP fun offset => isMatch text offset queryLength

/-- The `_first_…_offset` functions. -/
def firstHit (isMatch : List Char → ℕ → ℕ → Bool) (text : List Char) (offsets : List ℕ)
    (queryLength : ℕ) : ℕ :=
  (offsets.find? fun offset => isMatch text offset queryLength).getD noMatchOffset

def countWholeWordHits := countHits isWholeWordMatch

def countLineStartWholeWordHits := countHits isLineStartWholeWordMatch

def countLineStartLogMarkerHits := countHits isLineStartLogMarkerMatch

def countLineStartPunctuationWrapHits := countHits isLineStartPunctuationWrapMatch

/-- `TerminalSessionHistorySearchMatch`. -/
structure TerminalSessionHistorySearchMatch where
  record : TerminalSessionRecord
  snapshotAt : ℕ
  matchCount : ℕ
  snippets : List (List Char)
  snippetMatches : List TerminalSessionHistorySearchSnippet

/-- `_TerminalSessionHistorySearchCandidate`. The match density is the quotient that the source
rounds. -/
structure TerminalSessionHistorySearchCandidate where
  found : TerminalSessionHistorySearchMatch
  lineStartLogMarkerMatchCount : ℕ
  firstLineStartLogMarkerOffset : ℕ
  lineStartDelimitedLogMarkerMatchCount : ℕ
  firstLineStartDelimitedLogMarkerOffset : ℕ
  lineStartExactTagMarkerMatchCount : ℕ
  firstLineStartExactTagMarkerOffset : ℕ
  lineStartExactTagColonMarkerMatchCount : ℕ
  firstLineStartExactTagColonMarkerOffset : ℕ
  lineStartSquareBracketExactTagDashMarkerMatchCount : ℕ
  firstLineStartSquareBracketExactTagDashMarkerOffset : ℕ
  lineStartParenWrapperMarkerMatchCount : ℕ
  firstLineStartParenWrapperMarkerOffset : ℕ
  lineStartBraceWrapperMarkerMatchCount : ℕ
  firstLineStartBraceWrapperMarkerOffset : ℕ
  lineStartNonSquareBracketExactTagColonMarkerMatchCount : ℕ
  firstLineStartNonSquareBracketExactTagColonMarkerOffset : ℕ
  lineStartNonSquareBracketExactTagDashMarkerMatchCount : ℕ
  firstLineStartNonSquareBracketExactTagDashMarkerOffset : ℕ
  lineStartExactTagMatchCount : ℕ
  firstLineStartExactTagOffset : ℕ
  lineStartSquareBracketExactTagMatchCount : ℕ
  firstLineStartSquareBracketExactTagOffset : ℕ
  firstLineStartSquareBracketPlainExactTagOffset : ℕ
  lineStartParenWrapperPlainExactTagMatchCount : ℕ
  firstLineStartParenWrapperPlainExactTagOffset : ℕ
  lineStartBraceWrapperPlainExactTagMatchCount : ℕ
  firstLineStartBraceWrapperPlainExactTagOffset : ℕ
  lineStartAngleWrapperPlainExactTagMatchCount : ℕ
  firstLineStartAngleWrapperPlainExactTagOffset : ℕ
  lineStartPlainExactTagSingleSpaceSeparatorMatchCount : ℕ
  firstLineStartPlainExactTagSingleSpaceSeparatorOffset : ℕ
  conditionalFirstLineStartNonSingleSpacePlainExactTagSeparatorOffset : ℕ
  conditionalLineStartPlainExactTagPayloadlessSeparatorMatchCount : ℕ
  conditionalFirstLineStartPlainExactTagPayloadlessSeparatorOffset : ℕ
  conditionalLineStartPlainExactTagTabPrefixedPayloadMatchCount : ℕ
  conditionalFirstLineStartPlainExactTagTabPrefixedPayloadOffset : ℕ
  conditionalLineStartPlainExactTagMultiSpacePayloadMatchCount : ℕ
  conditionalFirstLineStartPlainExactTagMultiSpacePayloadOffset : ℕ
  conditionalLineStartPlainExactTagSpacePrefixedMixedWhitespacePayloadMatchCount : ℕ
  conditionalFirstLineStartPlainExactTagSpacePrefixedMixedWhitespacePayloadOffset : ℕ
  conditionalLineStartPlainExactTagOtherLeadingMixedWhitespacePayloadMatchCount : ℕ
  conditionalFirstLineStartPlainExactTagOtherLeadingMixedWhitespacePayloadOffset : ℕ
  conditionalFirstLineStartPlainExactTagOtherLeadingWhitespacePayloadOffset : ℕ
  conditionalNonExactTagPunctuationWrapMatchCount : Int
  lineStartPunctuationWrapMatchCount : ℕ
  firstLineStartPunctuationWrapOffset : ℕ
  wholeWordMatchCount : ℕ
  lineStartWholeWordMatchCount : ℕ
  conditionalNonLineStartWholeWordMatchCount : Int
  firstLineStartWholeWordOffset : ℕ
  firstWholeWordOffset : ℕ
  clusterSpan : Int
  firstMatchOffset : ℕ
  matchDensity : ℚ

namespace Whitespace

variable (w : Whitespace)

def countLineStartDelimitedLogMarkerHits := countHits w.isLineStartDelimitedLogMarkerMatch

def countLineStartExactTagHits := countHits w.isLineStartExactTagMatch

def countLineStartExactTagColonMarkerHits := countHits w.isLineStartExactTagColonMarkerMatch

def countLineStartSquareBracketExactTagHits := countHits w.isLineStartSquareBracketExactTagMatch

def countLineStartSquareBracketPlainExactTagHits :=
  countHits w.isLineStartSquareBracketPlainExactTagMatch

def countLineStartAngleWrapperPlainExactTagHits :=
  countHits w.isLineStartAngleWrapperPlainExactTagMatch

def countLineStartPlainExactTagSingleSpaceSeparatorHits :=
  countHits w.isLineStartPlainExactTagSingleSpaceSeparatorMatch

def countLineStartPlainExactTagPayloadlessSeparatorHits :=
  sumHits w.isLineStartPlainExactTagPayloadlessSeparatorMatch

def firstLineStartNonSingleSpacePlainExactTagSeparatorOffset :=
  firstHit w.isLineStartNonSingleSpacePlainExactTagSeparatorMatch

def firstLineStartPlainExactTagPayloadlessSeparatorOffset :=
  firstHit w.isLineStartPlainExactTagPayloadlessSeparatorMatch

def countLineStartPlainExactTagTabPrefixedPayloadHits :=
  sumHits w.isLineStartPlainExactTagTabPrefixedPayloadMatch

def firstLineStartPlainExactTagTabPrefixedPayloadOffset :=
  firstHit w.isLineStartPlainExactTagTabPrefixedPayloadMatch

def countLineStartPlainExactTagMultiSpacePayloadHits :=
  sumHits w.isLineStartPlainExactTagMultiSpacePayloadMatch

def firstLineStartPlainExactTagMultiSpacePayloadOffset :=
  firstHit w.isLineStartPlainExactTagMultiSpacePayloadMatch

def countLineStartPlainExactTagSpacePrefixedMixedWhitespacePayloadHits :=
  sumHits w.isLineStartPlainExactTagSpacePrefixedMixedWhitespacePayloadMatch

def firstLineStartPlainExactTagSpacePrefixedMixedWhitespacePayloadOffset :=
  firstHit w.isLineStartPlainExactTagSpacePrefixedMixedWhitespacePayloadMatch

def firstLineStartPlainExactTagOtherLeadingWhitespacePayloadOffset :=
  firstHit w.isLineStartPlainExactTagOtherLeadingWhitespacePayloadMatch

def countLineStartPlainExactTagOtherLeadingMixedWhitespacePayloadHits :=
  sumHits w.isLineStartPlainExactTagOtherLeadingMixedWhitespacePayloadMatch

def firstLineStartPlainExactTagOtherLeadingMixedWhitespacePayloadOffset :=
  firstHit w.isLineStartPlainExactTagOtherLeadingMixedWhitespacePayloadMatch

def countLineStartParenWrapperPlainExactTagHits :=
  countHits w.isLineStartParenWrapperPlainExactTagMatch

def countLineStartBraceWrapperPlainExactTagHits :=
  countHits w.isLineStartBraceWrapperPlainExactTagMatch

def countLineStartSquareBracketExactTagDashMarkerHits :=
  countHits w.isLineStartSquareBracketExactTagDashMarkerMatch

def countLineStartParenWrapperMarkerHits := countHits w.isLineStartParenWrapperMarkerMatch

def countLineStartBraceWrapperMarkerHits := countHits w.isLineStartBraceWrapperMarkerMatch

def countLineStartNonSquareBracketExactTagColonMarkerHits :=
  countHits w.isLineStartNonSquareBracketExactTagColonMarkerMatch

def countLineStartNonSquareBracketExactTagDashMarkerHits :=
  countHits w.isLineStartNonSquareBracketExactTagDashMarkerMatch

def countLineStartExactTagMarkerHits := countHits w.isLineStartExactTagMarkerMatch

/-- `_build_search_candidate`. -/
def buildSearchCandidate (found : TerminalSessionHistorySearchMatch) (text : List Char)
    (offsets : List ℕ) (nonempty : offsets ≠ []) (queryLength outputLength : ℕ) :
    TerminalSessionHistorySearchCandidate :=
  let wholeWord := countWholeWordHits text offsets queryLength
  let lineStartWholeWord := countLineStartWholeWordHits text offsets queryLength
  let logMarker := countLineStartLogMarkerHits text offsets queryLength
  let delimitedLogMarker := w.countLineStartDelimitedLogMarkerHits text offsets queryLength
  let punctuationWrap := countLineStartPunctuationWrapHits text offsets queryLength
  let exactTag := w.countLineStartExactTagHits text offsets queryLength
  let exactTagColonMarker := w.countLineStartExactTagColonMarkerHits text offsets queryLength
  let squareBracketExactTag := w.countLineStartSquareBracketExactTagHits text offsets queryLength
  let squareBracketPlainExactTag :=
    w.countLineStartSquareBracketPlainExactTagHits text offsets queryLength
  let angleWrapperPlainExactTag :=
    w.countLineStartAngleWrapperPlainExactTagHits text offsets queryLength
  let plainExactTagSingleSpaceSeparator :=
    w.countLineStartPlainExactTagSingleSpaceSeparatorHits text offsets queryLength
  let plainExactTagPayloadlessSeparator :=
    w.countLineStartPlainExactTagPayloadlessSeparatorHits text offsets queryLength
  let firstNonSingleSpacePlainExactTagSeparator :=
    w.firstLineStartNonSingleSpacePlainExactTagSeparatorOffset text offsets queryLength
  let firstPlainExactTagPayloadlessSeparator :=
    w.firstLineStartPlainExactTagPayloadlessSeparatorOffset text offsets queryLength
  let plainExactTagTabPrefixedPayload :=
    w.countLineStartPlainExactTagTabPrefixedPayloadHits text offsets queryLength
  let firstPlainExactTagTabPrefixedPayload :=
    w.firstLineStartPlainExactTagTabPrefixedPayloadOffset text offsets queryLength
  let plainExactTagMultiSpacePayload :=
    w.countLineStartPlainExactTagMultiSpacePayloadHits text offsets queryLength
  let firstPlainExactTagMultiSpacePayload :=
    w.firstLineStartPlainExactTagMultiSpacePayloadOffset text offsets queryLength
  let plainExactTagSpacePrefixedMixedWhitespacePayload :=
    w.countLineStartPlainExactTagSpacePrefixedMixedWhitespacePayloadHits text offsets queryLength
  let firstPlainExactTagSpacePrefixedMixedWhitespacePayload :=
    w.firstLineStartPlainExactTagSpacePrefixedMixedWhitespacePayloadOffset text offsets queryLength
  let firstPlainExactTagOtherLeadingWhitespacePayload :=
    w.firstLineStartPlainExactTagOtherLeadingWhitespacePayloadOffset text offsets queryLength
  let plainExactTagOtherLeadingMixedWhitespacePayload :=
    w.countLineStartPlainExactTagOtherLeadingMixedWhitespacePayloadHits text offsets queryLength
  let firstPlainExactTagOtherLeadingMixedWhitespacePayload :=
    w.firstLineStartPlainExactTagOtherLeadingMixedWhitespacePayloadOffset text offsets queryLength
  let parenWrapperPlainExactTag :=
    w.countLineStartParenWrapperPlainExactTagHits text offsets queryLength
  let braceWrapperPlainExactTag :=
    w.countLineStartBraceWrapperPlainExactTagHits text offsets queryLength
  let squareBracketExactTagDashMarker :=
    w.countLineStartSquareBracketExactTagDashMarkerHits text offsets queryLength
  let parenWrapperMarker := w.countLineStartParenWrapperMarkerHits text offsets queryLength
  let braceWrapperMarker := w.countLineStartBraceWrapperMarkerHits text offsets queryLength
  let nonSquareBracketExactTagColonMarker :=
    w.countLineStartNonSquareBracketExactTagColonMarkerHits text offsets queryLength
  let nonSquareBracketExactTagDashMarker :=
    w.countLineStartNonSquareBracketExactTagDashMarkerHits text offsets queryLength
  let exactTagMarker := w.countLineStartExactTagMarkerHits text offsets queryLength
  let nonExactTagPunctuationWrapMatchCount : Int := max 0 (punctuationWrap.1 - exactTag.1)
  let nonLineStartWholeWordMatchCount : Int := wholeWord.1 - lineStartWholeWord.1
  let ifSingleSpace (value none : ℕ) : ℕ :=
    if 0 < plainExactTagSingleSpaceSeparator.1 then value else none
  { found
    lineStartLogMarkerMatchCount := logMarker.1
    firstLineStartLogMarkerOffset := logMarker.2
    lineStartDelimitedLogMarkerMatchCount := delimitedLogMarker.1
    firstLineStartDelimitedLogMarkerOffset := delimitedLogMarker.2
    lineStartExactTagMarkerMatchCount := exactTagMarker.1
    firstLineStartExactTagMarkerOffset := exactTagMarker.2
    lineStartExactTagColonMarkerMatchCount := exactTagColonMarker.1
    firstLineStartExactTagColonMarkerOffset := exactTagColonMarker.2
    lineStartSquareBracketExactTagDashMarkerMatchCount := squareBracketExactTagDashMarker.1
    firstLineStartSquareBracketExactTagDashMarkerOffset := squareBracketExactTagDashMarker.2
    lineStartParenWrapperMarkerMatchCount := parenWrapperMarker.1
    firstLineStartParenWrapperMarkerOffset := parenWrapperMarker.2
    lineStartBraceWrapperMarkerMatchCount := braceWrapperMarker.1
    firstLineStartBraceWrapperMarkerOffset := braceWrapperMarker.2
    lineStartNonSquareBracketExactTagColonMarkerMatchCount := nonSquareBracketExactTagColonMarker.1
    firstLineStartNonSquareBracketExactTagColonMarkerOffset := nonSquareBracketExactTagColonMarker.2
    lineStartNonSquareBracketExactTagDashMarkerMatchCount := nonSquareBracketExactTagDashMarker.1
    firstLineStartNonSquareBracketExactTagDashMarkerOffset := nonSquareBracketExactTagDashMarker.2
    lineStartExactTagMatchCount := exactTag.1
    firstLineStartExactTagOffset := exactTag.2
    lineStartSquareBracketExactTagMatchCount := squareBracketExactTag.1
    firstLineStartSquareBracketExactTagOffset := squareBracketExactTag.2
    firstLineStartSquareBracketPlainExactTagOffset := squareBracketPlainExactTag.2
    lineStartParenWrapperPlainExactTagMatchCount := parenWrapperPlainExactTag.1
    firstLineStartParenWrapperPlainExactTagOffset := parenWrapperPlainExactTag.2
    lineStartBraceWrapperPlainExactTagMatchCount := braceWrapperPlainExactTag.1
    firstLineStartBraceWrapperPlainExactTagOffset := braceWrapperPlainExactTag.2
    lineStartAngleWrapperPlainExactTagMatchCount := angleWrapperPlainExactTag.1
    firstLineStartAngleWrapperPlainExactTagOffset := angleWrapperPlainExactTag.2
    lineStartPlainExactTagSingleSpaceSeparatorMatchCount := plainExactTagSingleSpaceSeparator.1
    firstLineStartPlainExactTagSingleSpaceSeparatorOffset := plainExactTagSingleSpaceSeparator.2
    conditionalFirstLineStartNonSingleSpacePlainExactTagSeparatorOffset :=
      ifSingleSpace firstNonSingleSpacePlainExactTagSeparator noMatchOffset
    conditionalLineStartPlainExactTagPayloadlessSeparatorMatchCount :=
      ifSingleSpace plainExactTagPayloadlessSeparator 0
    conditionalFirstLineStartPlainExactTagPayloadlessSeparatorOffset :=
      ifSingleSpace firstPlainExactTagPayloadlessSeparator noMatchOffset
    conditionalLineStartPlainExactTagTabPrefixedPayloadMatchCount :=
      ifSingleSpace plainExactTagTabPrefixedPayload 0
    conditionalFirstLineStartPlainExactTagTabPrefixedPayloadOffset :=
      ifSingleSpace firstPlainExactTagTabPrefixedPayload noMatchOffset
    conditionalLineStartPlainExactTagMultiSpacePayloadMatchCount :=
      ifSingleSpace plainExactTagMultiSpacePayload 0
    conditionalFirstLineStartPlainExactTagMultiSpacePayloadOffset :=
      ifSingleSpace firstPlainExactTagMultiSpacePayload noMatchOffset
    conditionalLineStartPlainExactTagSpacePrefixedMixedWhitespacePayloadMatchCount :=
      ifSingleSpace plainExactTagSpacePrefixedMixedWhitespacePayload 0
    conditionalFirstLineStartPlainExactTagSpacePrefixedMixedWhitespacePayloadOffset :=
      ifSingleSpace firstPlainExactTagSpacePrefixedMixedWhitespacePayload noMatchOffset
    conditionalLineStartPlainExactTagOtherLeadingMixedWhitespacePayloadMatchCount :=
      ifSingleSpace plainExactTagOtherLeadingMixedWhitespacePayload 0
    conditionalFirstLineStartPlainExactTagOtherLeadingMixedWhitespacePayloadOffset :=
      ifSingleSpace firstPlainExactTagOtherLeadingMixedWhitespacePayload noMatchOffset
    conditionalFirstLineStartPlainExactTagOtherLeadingWhitespacePayloadOffset :=
      ifSingleSpace firstPlainExactTagOtherLeadingWhitespacePayload noMatchOffset
    conditionalNonExactTagPunctuationWrapMatchCount :=
      if 0 < exactTag.1 then nonExactTagPunctuationWrapMatchCount else 0
    lineStartPunctuationWrapMatchCount := punctuationWrap.1
    firstLineStartPunctuationWrapOffset := punctuationWrap.2
    wholeWordMatchCount := wholeWord.1
    lineStartWholeWordMatchCount := lineStartWholeWord.1
    conditionalNonLineStartWholeWordMatchCount :=
      if 0 < lineStartWholeWord.1 then nonLineStartWholeWordMatchCount else 0
    firstLineStartWholeWordOffset := lineStartWholeWord.2
    firstWholeWordOffset := wholeWord.2
    clusterSpan := (offsets.getLast nonempty : Int) - offsets.head nonempty
    firstMatchOffset := offsets.head nonempty
    matchDensity := found.matchCount / max 1 outputLength }

/-- The loop of `_search_history_snapshots`. -/
def searchCandidates (casing : CaseMapping) (snapshots : List TerminalSessionHistorySnapshot)
    (query : List Char) (snippetLimit snippetContextChars : ℕ) :
    List TerminalSessionHistorySearchCandidate :=
  if query.length ≤ 0 then []
  else snapshots.filterMap fun snapshot =>
    let text := snapshot.output.toList
    let offsets := casing.findCaseInsensitiveMatchOffsets text query
    if nonempty : offsets = [] then none
    else
      let snippetMatches := buildSearchSnippets text offsets query.length snippetLimit
        snippetContextChars
      let found :=
        { record := snapshot.record
          snapshotAt := snapshot.snapshotAt
          matchCount := offsets.length
          snippets := snippetMatches.map TerminalSessionHistorySearchSnippet.text
          snippetMatches }
      some (w.buildSearchCandidate found text offsets nonempty query.length text.length)

end Whitespace

end Portex
