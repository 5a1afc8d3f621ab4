import Portex.Foundation.Json
import Portex.Foundation.Search
import Portex.Registry.State
import Portex.Runtime.Events

/-!
# The frames of the runner

The agent runner writes its result between two markers, and the backends look for the markers in
everything the container has written. Nothing keeps the markers out of the text of the result: the
last start marker and the first end marker after it are taken, wherever they are.

## Main definitions

* `ContainerOutput`, `writeOutput`: what the runner writes
* `extractRunnerOutput`, `parseRunnerOutput`: what the backends read
* `RoundTrips`: the output is recovered from its frame, after any text without markers
* `Unmarked`: no text of the output holds a marker

## Main results

* `extract_frame`: the frame of an unmarked output is found
* `spoiled_of_marked`: what is found where the output holds a marker
* `roundTrips_iff`: the outputs that are recovered
-/

namespace Portex

open Foundation

/-! ## The runner -/

def outputStartMarker : List Char := "---PORTEX_OUTPUT_START---".toList

def outputEndMarker : List Char := "---PORTEX_OUTPUT_END---".toList

inductive OutputStatus
  | success | error | timeout
  deriving DecidableEq

def OutputStatus.text : OutputStatus → List Char
  | .success => "success".toList
  | .error => "error".toList
  | .timeout => "timeout".toList

structure ContainerOutput where
  status : OutputStatus
  result : Option (List Char) := none
  error : Option (List Char) := none
  deriving DecidableEq

def optionalText : Option (List Char) → List Char
  | some text => quoted text
  | none => "null".toList

/-- `model_dump_json`: the fields in their order, without space between them. -/
def serializeOutput (payload : ContainerOutput) : List Char :=
  "\x7b\"status\":".toList ++ quoted payload.status.text ++ ",\"result\":".toList ++
    optionalText payload.result ++ ",\"error\":".toList ++ optionalText payload.error ++ ['\x7d']

def writeOutput (payload : ContainerOutput) (framed : Bool) : List Char :=
  (if framed then outputStartMarker ++ ['\n'] else []) ++ serializeOutput payload ++ ['\n'] ++
    if framed then outputEndMarker ++ ['\n'] else []

/-! ## The backends -/

def extractRunnerOutput (stdout : List Char) : Option (List Char) :=
  match rfind? outputStartMarker stdout, find? outputEndMarker stdout with
  | some start, some _ =>
    (find? outputEndMarker (stdout.drop start)).map fun stop =>
      strip ((stdout.drop (start + outputStartMarker.length)).take
        (stop - outputStartMarker.length))
  | _, _ => if strip stdout = [] then none else some (strip stdout)

/-- The value counts as true. A number counts by its digits. -/
def jsonTruthy : Json → Bool
  | .null => false
  | .bool value => value
  | .number digits =>
    (digits.takeWhile (· ∉ ['e', 'E'])).any fun ch => ch.isUpper || (ch.isDigit && ch ≠ '0')
  | .str chars => chars ≠ []
  | .array items => !items.isEmpty
  | .object members => !members.isEmpty

/-- The dict of `parse_runner_output`; a key that it lacks is `none`. -/
structure RunnerResult where
  status : RunStatus
  finalOutput : Option Json := none
  error : Option Json := none
  returncode : ℤ

/-- `payload.get(name)`. -/
def payloadGet (members : List (List Char × Json)) (name : String) : Json :=
  (Json.get? name.toList members).getD .null

/-- The error of a payload that is neither a success nor a timeout. -/
def payloadError (members : List (List Char × Json)) (stderr source : List Char) : Json :=
  let error :=
    if jsonTruthy (payloadGet members "error") then payloadGet members "error"
    else if jsonTruthy (payloadGet members "result") then payloadGet members "result"
    else .str (strip stderr)
  match error with
  | .str chars => .str (if chars = [] then source ++ " runner failed".toList else chars)
  | _ => .str (source ++ " runner failed".toList)

/-- What `parse_runner_output` makes of a payload that is an object. -/
def payloadResult (members : List (List Char × Json)) (stderr : List Char) (returncode : ℤ)
    (source : List Char) : RunnerResult :=
  let failed : RunnerResult :=
    { status := .failed, error := some (payloadError members stderr source), returncode }
  match payloadGet members "status" with
  | .str chars =>
    if chars = "success".toList then
      { status := .completed, finalOutput := some (payloadGet members "result"), returncode }
    else if chars = "timeout".toList then
      { status := .timeout, error := some (payloadGet members "error"), returncode }
    else failed
  | _ => failed

def parseRunnerOutput (stdout stderr : List Char) (returncode : ℤ) (source : List Char) :
    RunnerResult :=
  let failed (error : List Char) : RunnerResult :=
    { status := .failed, error := some (.str error), returncode }
  match extractRunnerOutput stdout with
  | none =>
    failed (if strip stderr = [] then source ++ " runner did not produce parseable output".toList
      else strip stderr)
  | some rawPayload =>
    match loads rawPayload with
    | none => failed (source ++ " runner produced invalid JSON output".toList)
    | some (.object members) => payloadResult members stderr returncode source
    | some _ => failed (source ++ " runner returned non-object output".toList)

/-! ## The property and its condition -/

def jsonText : Option (List Char) → Json
  | some text => .str text
  | none => .null

/-- The result says what the output says. Nothing is asked of an error without a text. -/
def Recovers (payload : ContainerOutput) (result : RunnerResult) : Prop :=
  match payload.status with
  | .success => result.status = .completed ∧ result.finalOutput = some (jsonText payload.result)
  | .timeout => result.status = .timeout ∧ result.error = some (jsonText payload.error)
  | .error => ∀ text, payload.error = some text → text ≠ [] →
      result.status = .failed ∧ result.error = some (.str text)

/-- Neither marker occurs in the text. -/
def Markerless (text : List Char) : Prop :=
  ¬ outputStartMarker <:+: text ∧ ¬ outputEndMarker <:+: text

def RoundTrips (payload : ContainerOutput) : Prop :=
  ∀ (preceding stderr source : List Char) (returncode : ℤ), Markerless preceding →
    Recovers payload
      (parseRunnerOutput (preceding ++ writeOutput payload true) stderr returncode source)

def Unmarked (payload : ContainerOutput) : Prop :=
  ∀ text, payload.result = some text ∨ payload.error = some text → Markerless text

/-! ## An output without markers -/

theorem skipSpace_optionalText (text : Option (List Char)) (rest : List Char) :
    skipSpace (optionalText text ++ rest) = optionalText text ++ rest := by
  cases text with
  | none => exact skipSpace_of_head (by decide) _
  | some text => exact skipSpace_of_head (by decide) _

theorem parseValue_optionalText (text : Option (List Char)) {fuel : ℕ} (rest : List Char)
    (hfuel : (optionalText text).length < fuel) :
    parseValue fuel (optionalText text ++ rest) = some (jsonText text, rest) := by
  cases text with
  | none =>
    obtain ⟨fuel, rfl⟩ : ∃ n, fuel = n + 1 := ⟨fuel - 1, by omega⟩
    have hnull : "null".toList = ['n', 'u', 'l', 'l'] := rfl
    simp [optionalText, hnull, parseValue, parseAtom, parseToken, jsonText]
  | some text =>
    have hlength := length_le_escape text
    simp only [optionalText, quoted, List.cons_append, List.length_cons, List.length_append,
      List.length_nil] at hfuel
    exact parseValue_quoted text (by omega) rest

/-- The output as an object of three members. -/
theorem serializeOutput_eq (payload : ContainerOutput) :
    serializeOutput payload = '\x7b' :: (quoted "status".toList ++ ':' ::
      (quoted payload.status.text ++ ',' :: (quoted "result".toList ++ ':' ::
        (optionalText payload.result ++ ',' :: (quoted "error".toList ++ ':' ::
          (optionalText payload.error ++ ['\x7d'])))))) := by
  have hstatus : "\x7b\"status\":".toList = '\x7b' :: (quoted "status".toList ++ [':']) := by
    decide
  have hresult : ",\"result\":".toList = ',' :: (quoted "result".toList ++ [':']) := by decide
  have herror : ",\"error\":".toList = ',' :: (quoted "error".toList ++ [':']) := by decide
  unfold serializeOutput
  rw [hstatus, hresult, herror]
  simp

def outputMembers (payload : ContainerOutput) : List (List Char × Json) :=
  [("status".toList, .str payload.status.text), ("result".toList, jsonText payload.result),
    ("error".toList, jsonText payload.error)]

/-- What was written is read back. -/
theorem loads_serializeOutput (payload : ContainerOutput) :
    loads (serializeOutput payload) = some (.object (outputMembers payload)) := by
  have hkeys : "status".toList.length = 6 ∧ "result".toList.length = 6 ∧
      "error".toList.length = 5 := by decide
  have hstatus := length_le_escape payload.status.text
  have hlength := congrArg List.length (serializeOutput_eq payload)
  simp only [quoted, List.length_cons, List.length_append, List.length_nil] at hlength
  rw [serializeOutput_eq]
  refine loads_object (skipSpace_of_head (by decide) _) (by simp [quoted, expect]) ?_
  -- The reader has more fuel than the text has characters.
  obtain ⟨fuel, hfuel⟩ : ∃ n, (serializeOutput payload).length = n + 3 :=
    ⟨(serializeOutput payload).length - 3, by omega⟩
  have htext := hfuel
  rw [serializeOutput_eq, List.length_cons] at htext
  rw [htext]
  have hlast : parseMembers (fuel + 1) (quoted "error".toList ++ ':' ::
      (optionalText payload.error ++ ['\x7d'])) =
        some ([("error".toList, jsonText payload.error)], []) := by
    have hvalue : parseValue fuel (skipSpace (optionalText payload.error ++ ['\x7d'])) =
        some (jsonText payload.error, ['\x7d']) := by
      rw [skipSpace_optionalText]
      exact parseValue_optionalText _ _ (by omega)
    exact parseMembers_last (by omega) hvalue (skipSpace_of_head (by decide) _)
  have hresult : parseMembers (fuel + 2) (quoted "result".toList ++ ':' ::
      (optionalText payload.result ++ ',' :: (quoted "error".toList ++ ':' ::
        (optionalText payload.error ++ ['\x7d'])))) =
        some ([("result".toList, jsonText payload.result),
          ("error".toList, jsonText payload.error)], []) := by
    have hvalue : parseValue (fuel + 1) (skipSpace (optionalText payload.result ++ ',' ::
        (quoted "error".toList ++ ':' :: (optionalText payload.error ++ ['\x7d'])))) =
        some (jsonText payload.result, ',' :: (quoted "error".toList ++ ':' ::
          (optionalText payload.error ++ ['\x7d']))) := by
      rw [skipSpace_optionalText]
      exact parseValue_optionalText payload.result _ (by omega)
    rw [parseMembers_cons (by omega) hvalue (skipSpace_of_head (by decide) _), skipSpace_quoted,
      hlast]
    rfl
  have hvalue : parseValue (fuel + 2) (skipSpace (quoted payload.status.text ++ ',' ::
      (quoted "result".toList ++ ':' :: (optionalText payload.result ++ ',' ::
        (quoted "error".toList ++ ':' :: (optionalText payload.error ++ ['\x7d'])))))) =
      some (.str payload.status.text, ',' :: (quoted "result".toList ++ ':' ::
        (optionalText payload.result ++ ',' :: (quoted "error".toList ++ ':' ::
          (optionalText payload.error ++ ['\x7d']))))) := by
    rw [skipSpace_quoted]
    exact parseValue_quoted payload.status.text (by omega) _
  rw [parseMembers_cons (by omega) hvalue (skipSpace_of_head (by decide) _), skipSpace_quoted,
    hresult]
  rfl

/-! ## Where the markers are -/

/-- The markers, and what a text around them needs to know of them. -/
structure IsMarker (marker : List Char) : Prop where
  ne_nil : marker ≠ []
  verbatim : ∀ ch ∈ marker, Verbatim ch
  separators : ∀ ch ∈ ['"', ':', '\n'], ch ∉ marker
  header : ∀ status : OutputStatus,
    ¬ marker <:+: "\x7b\"status\":".toList ++ quoted status.text ++ ",\"result\"".toList
  middle : ¬ marker <:+: ",\"error\"".toList
  null : ¬ marker <:+: "null,\"error\"".toList ∧ ¬ marker <:+: "null\x7d".toList
  short : ¬ marker <:+: [] ∧ ¬ marker <:+: ['\x7d']

theorem isMarker_start : IsMarker outputStartMarker where
  ne_nil := by decide
  verbatim := forall_of_all (by decide)
  separators := forall_of_all (by decide)
  header status := by cases status <;> decide
  middle := by decide
  null := by decide
  short := by decide

theorem isMarker_end : IsMarker outputEndMarker where
  ne_nil := by decide
  verbatim := forall_of_all (by decide)
  separators := forall_of_all (by decide)
  header status := by cases status <;> decide
  middle := by decide
  null := by decide
  short := by decide

variable {marker : List Char}

/-- A marker behind a text that holds none and a separator. -/
theorem IsMarker.peel (h : IsMarker marker) {x y before after : List Char} {ch : Char}
    (hch : ch ∈ ['"', ':', '\n']) (hx : ¬ marker <:+: x)
    (heq : x ++ ch :: y = before ++ marker ++ after) :
    ∃ rest, before = x ++ ch :: rest ∧ y = rest ++ marker ++ after := by
  rcases split_at_separator (h.separators ch hch) h.ne_nil heq with ⟨rest, rfl, -⟩ | hrest
  · exact absurd ⟨before, rest, rfl⟩ hx
  · exact hrest

/-- The texts around a marker in an output. -/
def Around (payload : ContainerOutput) (marker before after : List Char) : Prop :=
  ∃ head x y tail, before = head ++ '"' :: escape x ∧ lex .outside head = .outside ∧
    after = escape y ++ '"' :: tail ∧
    (tail = ['\x7d'] ∨ ∃ rest, tail = ",\"error\"".toList ++ ':' :: rest) ∧
    (payload.result = some (x ++ marker ++ y) ∨ payload.error = some (x ++ marker ++ y))

/-- A marker from the error of an output on. -/
theorem IsMarker.around_error (h : IsMarker marker) {payload : ContainerOutput}
    {front rest after : List Char} (hfront : lex .outside front = .outside)
    (heq : optionalText payload.error ++ ['\x7d'] = rest ++ marker ++ after) :
    Around payload marker (front ++ rest) after := by
  cases hpayload : payload.error with
  | none =>
    rw [hpayload] at heq
    exact absurd ⟨rest, after, heq.symm⟩ h.null.2
  | some text =>
    have hopen : optionalText (some text) ++ ['\x7d'] =
        [] ++ '"' :: (escape text ++ '"' :: ['\x7d']) := by
      simp [optionalText, quoted]
    rw [hpayload, hopen] at heq
    obtain ⟨inner, rfl, hinner⟩ := h.peel (by decide) h.short.1 heq
    rcases split_at_separator (h.separators '"' (by decide)) h.ne_nil hinner with
      ⟨tail, hescape, rfl⟩ | ⟨tail, rfl, htail⟩
    · obtain ⟨x, y, rfl, rfl, rfl⟩ := escape_eq_append h.ne_nil h.verbatim hescape
      exact ⟨front, x, y, ['\x7d'], by simp, hfront, rfl, .inl rfl, .inr hpayload⟩
    · exact absurd ⟨tail, after, htail.symm⟩ h.short.2

/-- A marker from the result of an output on. -/
theorem IsMarker.around_result (h : IsMarker marker) {payload : ContainerOutput}
    {front rest after : List Char} (hfront : lex .outside front = .outside)
    (heq : optionalText payload.result ++ (",\"error\"".toList ++ ':' ::
      (optionalText payload.error ++ ['\x7d'])) = rest ++ marker ++ after) :
    Around payload marker (front ++ rest) after := by
  cases hpayload : payload.result with
  | none =>
    have hnull : optionalText none ++ (",\"error\"".toList ++ ':' ::
        (optionalText payload.error ++ ['\x7d'])) =
          "null,\"error\"".toList ++ ':' :: (optionalText payload.error ++ ['\x7d']) := by
      have hjoin : "null,\"error\"".toList = "null".toList ++ ",\"error\"".toList := by decide
      rw [hjoin]
      simp [optionalText]
    rw [hpayload, hnull] at heq
    obtain ⟨inner, rfl, hinner⟩ := h.peel (by decide) h.null.1 heq
    have hlex : lex .outside (front ++ ("null,\"error\"".toList ++ [':'])) = .outside := by
      rw [lex_append, hfront]
      decide
    simpa using h.around_error hlex hinner
  | some text =>
    have hopen : optionalText (some text) ++ (",\"error\"".toList ++ ':' ::
        (optionalText payload.error ++ ['\x7d'])) =
          [] ++ '"' :: (escape text ++ '"' :: (",\"error\"".toList ++ ':' ::
            (optionalText payload.error ++ ['\x7d']))) := by
      simp [optionalText, quoted]
    rw [hpayload, hopen] at heq
    obtain ⟨inner, rfl, hinner⟩ := h.peel (by decide) h.short.1 heq
    rcases split_at_separator (h.separators '"' (by decide)) h.ne_nil hinner with
      ⟨tail, hescape, rfl⟩ | ⟨tail, rfl, htail⟩
    · obtain ⟨x, y, rfl, rfl, rfl⟩ := escape_eq_append h.ne_nil h.verbatim hescape
      exact ⟨front, x, y, _, by simp, hfront, rfl, .inr ⟨_, rfl⟩, .inl hpayload⟩
    · obtain ⟨inner', rfl, hinner'⟩ := h.peel (by decide) h.middle htail
      have hlex : lex .outside (front ++ '"' :: (escape text ++ '"' ::
          (",\"error\"".toList ++ [':']))) = .outside := by
        have hopened : Lexed.step .outside '"' = .string := rfl
        have hclosed : lex .string ('"' :: (",\"error\"".toList ++ [':'])) = .outside := by decide
        rw [lex_append, hfront, lex_cons, hopened, lex_append, lex_string_escape, hclosed]
      simpa using h.around_error hlex hinner'

/-- **A marker in an output** is in one of its texts. -/
theorem IsMarker.around (h : IsMarker marker) {payload : ContainerOutput}
    {before after : List Char} (heq : serializeOutput payload = before ++ marker ++ after) :
    Around payload marker before after := by
  have hserialize : serializeOutput payload =
      ("\x7b\"status\":".toList ++ quoted payload.status.text ++ ",\"result\"".toList) ++ ':' ::
        (optionalText payload.result ++ (",\"error\"".toList ++ ':' ::
          (optionalText payload.error ++ ['\x7d']))) := by
    have hresult : ",\"result\":".toList = ",\"result\"".toList ++ [':'] := by decide
    have herror : ",\"error\":".toList = ",\"error\"".toList ++ [':'] := by decide
    unfold serializeOutput
    rw [hresult, herror]
    simp
  rw [hserialize] at heq
  obtain ⟨rest, rfl, hrest⟩ := h.peel (by decide) (h.header payload.status) heq
  have hheader : lex .outside ("\x7b\"status\":".toList ++ quoted payload.status.text ++
      ",\"result\"".toList ++ [':']) = .outside := by
    cases payload.status <;> decide
  simpa using h.around_result hheader hrest

/-- A marker in a text of an output is in the output. -/
theorem IsMarker.infix_of_text (h : IsMarker marker) {payload : ContainerOutput} {text : List Char}
    (htext : payload.result = some text ∨ payload.error = some text) (hmarker : marker <:+: text) :
    marker <:+: serializeOutput payload := by
  have hquoted : marker <:+: quoted text := by
    obtain ⟨x, y, rfl⟩ := hmarker
    refine ⟨'"' :: escape x, escape y ++ ['"'], ?_⟩
    simp [quoted, escape_of_verbatim h.verbatim]
  refine hquoted.trans ?_
  unfold serializeOutput
  rcases htext with htext | htext
  · rw [htext]
    exact ⟨"\x7b\"status\":".toList ++ quoted payload.status.text ++ ",\"result\":".toList,
      ",\"error\":".toList ++ optionalText payload.error ++ ['\x7d'], by simp [optionalText]⟩
  · rw [htext]
    exact ⟨"\x7b\"status\":".toList ++ quoted payload.status.text ++ ",\"result\":".toList ++
      optionalText payload.result ++ ",\"error\":".toList, ['\x7d'], by simp [optionalText]⟩

/-! ## What is found -/

/-- The frame of an output. -/
theorem writeOutput_framed (payload : ContainerOutput) :
    writeOutput payload true =
      outputStartMarker ++ '\n' :: (serializeOutput payload ++ '\n' ::
        (outputEndMarker ++ ['\n'])) := by
  simp [writeOutput]

/-- Where the last start marker is: at the front of the frame, or in the output. -/
theorem last_start {payload : ContainerOutput} {preceding before after : List Char}
    (heq : preceding ++ writeOutput payload true = before ++ outputStartMarker ++ after)
    (hlast : preceding.length ≤ before.length) :
    (before = preceding ∧ after = '\n' :: (serializeOutput payload ++ '\n' ::
        (outputEndMarker ++ ['\n']))) ∨
      ∃ x y, serializeOutput payload = x ++ outputStartMarker ++ y ∧
        after = y ++ '\n' :: (outputEndMarker ++ ['\n']) := by
  rw [writeOutput_framed, List.append_assoc before] at heq
  obtain ⟨rest, rfl⟩ : ∃ rest, before = preceding ++ rest := by
    rcases List.append_eq_append_iff.mp heq with ⟨v, rfl, -⟩ | ⟨v, rfl, -⟩
    · exact ⟨v, rfl⟩
    · have hv : v = [] := by
        rw [List.length_append] at hlast
        exact List.length_eq_zero_iff.mp (by omega)
      exact ⟨[], by simp [hv]⟩
  rw [List.append_assoc, List.append_cancel_left_eq] at heq
  cases rest with
  | nil =>
    rw [List.nil_append, List.append_cancel_left_eq] at heq
    exact .inl ⟨List.append_nil _, heq.symm⟩
  | cons ch rest =>
    have hstart := isMarker_start
    rw [← List.append_assoc] at heq
    rcases split_at_separator (hstart.separators '\n' (by decide)) hstart.ne_nil heq with
      ⟨tail, htail, -⟩ | ⟨inner, -, hinner⟩
    · have hlength := congrArg List.length htail
      simp only [List.length_append, List.length_cons] at hlength
      omega
    · rcases split_at_separator (hstart.separators '\n' (by decide)) hstart.ne_nil hinner with
        ⟨tail, htail, hafter⟩ | ⟨tail, -, htail⟩
      · exact .inr ⟨inner, tail, htail, hafter⟩
      · have hnot : ¬ outputStartMarker <:+: outputEndMarker ++ ['\n'] := by decide
        exact absurd ⟨tail, after, htail.symm⟩ hnot

/-- What `_extract_runner_output` takes: from the last start marker to the first end marker. -/
theorem extract_frame (payload : ContainerOutput) (preceding : List Char) :
    ∃ before after stop, preceding ++ writeOutput payload true =
        before ++ outputStartMarker ++ after ∧ preceding.length ≤ before.length ∧
      (∀ before' after', preceding ++ writeOutput payload true =
        before' ++ outputStartMarker ++ after' → before'.length ≤ before.length) ∧
      find? outputEndMarker (outputStartMarker ++ after) = some stop ∧
      extractRunnerOutput (preceding ++ writeOutput payload true) =
        some (strip (after.take (stop - outputStartMarker.length))) := by
  have hframe : preceding ++ writeOutput payload true = preceding ++ outputStartMarker ++
      ('\n' :: (serializeOutput payload ++ '\n' :: (outputEndMarker ++ ['\n']))) := by
    rw [writeOutput_framed, List.append_assoc]
  cases hrfind : rfind? outputStartMarker (preceding ++ writeOutput payload true) with
  | none => exact absurd ⟨_, _, hframe.symm⟩ (rfind?_eq_none hrfind)
  | some start =>
    obtain ⟨⟨before, after, heq, rfl⟩, hlast⟩ := rfind?_eq_some hrfind
    have hlength := hlast _ _ hframe
    have hend : outputEndMarker <:+: outputStartMarker ++ after := by
      rcases last_start heq hlength with ⟨-, rfl⟩ | ⟨x, y, -, rfl⟩
      · exact ⟨outputStartMarker ++ '\n' :: (serializeOutput payload ++ ['\n']), ['\n'], by simp⟩
      · exact ⟨outputStartMarker ++ (y ++ ['\n']), ['\n'], by simp⟩
    have hdrop : (preceding ++ writeOutput payload true).drop before.length =
        outputStartMarker ++ after := by
      rw [heq, List.append_assoc, List.drop_left]
    cases hstop : find? outputEndMarker (outputStartMarker ++ after) with
    | none => exact absurd hend (find?_eq_none hstop)
    | some stop =>
      cases hany : find? outputEndMarker (preceding ++ writeOutput payload true) with
      | none =>
        refine absurd (hend.trans ?_) (find?_eq_none hany)
        exact ⟨before, [], by rw [heq]; simp⟩
      | some any =>
        refine ⟨before, after, stop, heq, hlength, fun _ _ h => hlast _ _ h, hstop, ?_⟩
        unfold extractRunnerOutput
        rw [hrfind, hany]
        simp only
        rw [hdrop, hstop, ← List.drop_drop, hdrop, List.drop_left]
        rfl

/-! ### In an output without markers -/

theorem strip_serializeOutput (payload : ContainerOutput) :
    strip ('\n' :: (serializeOutput payload ++ ['\n'])) = serializeOutput payload := by
  obtain ⟨middle, hmiddle⟩ : ∃ middle, serializeOutput payload = '\x7b' :: (middle ++ ['\x7d']) :=
    ⟨quoted "status".toList ++ ':' :: (quoted payload.status.text ++ ',' ::
      (quoted "result".toList ++ ':' :: (optionalText payload.result ++ ',' ::
        (quoted "error".toList ++ ':' :: optionalText payload.error)))), by
      rw [serializeOutput_eq]
      simp⟩
  have hline : isSpace '\n' = true := by decide
  have hopen : isSpace '\x7b' = false := by decide
  have hclose : isSpace '\x7d' = false := by decide
  simp [strip, stripBy, hmiddle, hline, hopen, hclose]

theorem extract_unmarked {payload : ContainerOutput} (h : Unmarked payload)
    (preceding : List Char) :
    extractRunnerOutput (preceding ++ writeOutput payload true) =
      some (serializeOutput payload) := by
  have hnot {marker : List Char} (hmarker : IsMarker marker)
      (htexts : ∀ text, payload.result = some text ∨ payload.error = some text →
        ¬ marker <:+: text) : ¬ marker <:+: serializeOutput payload := by
    rintro ⟨before, after, heq⟩
    obtain ⟨_, x, y, _, _, _, _, _, htext⟩ := hmarker.around heq.symm
    exact htexts (x ++ marker ++ y) htext ⟨x, y, rfl⟩
  have hstart := hnot isMarker_start fun text htext => (h text htext).1
  have hend := hnot isMarker_end fun text htext => (h text htext).2
  obtain ⟨before, after, stop, heq, hlength, -, hstop, hextract⟩ :=
    extract_frame payload preceding
  rw [hextract]
  rcases last_start heq hlength with ⟨-, rfl⟩ | ⟨x, y, hx, -⟩
  · obtain ⟨⟨front, back, hfront, rfl⟩, -⟩ := find?_eq_some hstop
    have hshort : ¬ outputEndMarker <:+: outputStartMarker := by decide
    obtain ⟨inner, rfl, hinner⟩ := isMarker_end.peel (by decide) hshort hfront
    obtain ⟨inner', rfl, hinner'⟩ := isMarker_end.peel (by decide) hend hinner
    -- The end marker of the frame is the only one left.
    have hnil : inner' = [] := by
      have hlength' := congrArg List.length hinner'
      rcases split_at_separator (isMarker_end.separators '\n' (by decide)) isMarker_end.ne_nil
        hinner' with ⟨tail, htail, -⟩ | ⟨tail, rfl, -⟩
      · have htail' := congrArg List.length htail
        simp only [List.length_append] at htail'
        exact List.length_eq_zero_iff.mp (by omega)
      · have hpos : 0 < outputEndMarker.length := by decide
        simp only [List.length_append, List.length_cons, List.length_nil] at hlength'
        omega
    subst hnil
    have htake : ('\n' :: (serializeOutput payload ++ '\n' ::
        (outputEndMarker ++ ['\n']))).take
          ((outputStartMarker ++ '\n' :: (serializeOutput payload ++ ['\n'])).length -
            outputStartMarker.length) = '\n' :: (serializeOutput payload ++ ['\n']) := by
      have hcount : (outputStartMarker ++ '\n' :: (serializeOutput payload ++ ['\n'])).length -
          outputStartMarker.length = ('\n' :: (serializeOutput payload ++ ['\n'])).length := by
        rw [List.length_append, Nat.add_sub_cancel_left]
      have hleft : (('\n' :: (serializeOutput payload ++ ['\n'])) ++
          (outputEndMarker ++ ['\n'])).take
            ('\n' :: (serializeOutput payload ++ ['\n'])).length =
              '\n' :: (serializeOutput payload ++ ['\n']) := List.take_left' rfl
      rw [hcount]
      simpa using hleft
    rw [htake, strip_serializeOutput]
  · exact absurd ⟨x, y, hx.symm⟩ hstart

theorem payloadGet_status (payload : ContainerOutput) :
    payloadGet (outputMembers payload) "status" = .str payload.status.text := by
  simp [payloadGet, outputMembers, Json.get?]

theorem payloadGet_result (payload : ContainerOutput) :
    payloadGet (outputMembers payload) "result" = jsonText payload.result := rfl

theorem payloadGet_error (payload : ContainerOutput) :
    payloadGet (outputMembers payload) "error" = jsonText payload.error := rfl

/-- An output without markers is recovered. -/
theorem recovers_of_unmarked {payload : ContainerOutput} (h : Unmarked payload)
    (preceding stderr source : List Char) (returncode : ℤ) :
    Recovers payload
      (parseRunnerOutput (preceding ++ writeOutput payload true) stderr returncode source) := by
  have hparse : parseRunnerOutput (preceding ++ writeOutput payload true) stderr returncode source =
      payloadResult (outputMembers payload) stderr returncode source := by
    unfold parseRunnerOutput
    rw [extract_unmarked h preceding]
    simp only [loads_serializeOutput]
  rw [hparse]
  unfold Recovers payloadResult
  rw [payloadGet_status]
  simp only
  cases hpayload : payload.status with
  | success =>
    have hsuccess : OutputStatus.success.text = "success".toList := rfl
    rw [if_pos hsuccess]
    exact ⟨rfl, congrArg some (payloadGet_result payload)⟩
  | timeout =>
    have hsuccess : OutputStatus.timeout.text ≠ "success".toList := by decide
    have htimeout : OutputStatus.timeout.text = "timeout".toList := rfl
    rw [if_neg hsuccess, if_pos htimeout]
    exact ⟨rfl, congrArg some (payloadGet_error payload)⟩
  | error =>
    have hsuccess : OutputStatus.error.text ≠ "success".toList := by decide
    have htimeout : OutputStatus.error.text ≠ "timeout".toList := by decide
    intro text htext hne
    rw [if_neg hsuccess, if_neg htimeout]
    have hget : payloadGet (outputMembers payload) "error" = .str text := by
      rw [payloadGet_error, htext]
      rfl
    have htruthy : jsonTruthy (.str text) = true := by simp [jsonTruthy, hne]
    refine ⟨rfl, ?_⟩
    unfold payloadError
    rw [hget, if_pos htruthy]
    simp only [if_neg hne]

/-! ### In an output with a marker -/

/-- No text of JSON that has a status can be found there. -/
def Spoiled (text : List Char) : Prop := ¬ (lex .outside text).Settled ∨ '"' ∉ text

theorem spoiled_of_string {text : List Char} (h : lex .outside text = .string) : Spoiled text := by
  refine .inl ?_
  rw [h]
  rintro (h | h) <;> cases h

theorem spoiled_of_invalid {text : List Char} (h : lex .outside text = .invalid) :
    Spoiled text := by
  refine .inl ?_
  rw [h]
  rintro (h | h) <;> cases h

/-- A piece of an escaped text. -/
theorem spoiled_escape (text : List Char) : Spoiled (escape text) := by
  rcases lex_outside_escape text with hinvalid | ⟨-, hnot⟩
  · exact spoiled_of_invalid hinvalid
  · exact .inr hnot

/-- What is found from the frame on, where the output holds an end marker. -/
theorem spoiled_of_end {payload : ContainerOutput} {before after : List Char}
    (h : Around payload outputEndMarker before after) : Spoiled ('\n' :: before) := by
  obtain ⟨head, x, _, _, rfl, hhead, -⟩ := h
  refine spoiled_of_string ?_
  have hline : Lexed.step .outside '\n' = .outside := rfl
  have hopen : Lexed.step .outside '"' = .string := rfl
  rw [lex_cons, hline, lex_append, hhead, lex_cons, hopen, lex_string_escape]

/-- What is found from a start marker in the output on. -/
theorem spoiled_of_start {payload : ContainerOutput} {before y slice after : List Char}
    (h : Around payload outputStartMarker before y)
    (heq : y ++ '\n' :: (outputEndMarker ++ ['\n']) = slice ++ outputEndMarker ++ after) :
    Spoiled slice := by
  obtain ⟨_, _, text, tail, -, -, rfl, htail, -⟩ := h
  rw [List.append_assoc, List.cons_append] at heq
  rcases split_at_separator (isMarker_end.separators '"' (by decide)) isMarker_end.ne_nil heq with
    ⟨rest, hescape, -⟩ | ⟨rest, rfl, hrest⟩
  · -- The end marker is in the same text.
    obtain ⟨x, _, -, rfl, -⟩ := escape_eq_append isMarker_end.ne_nil isMarker_end.verbatim hescape
    exact spoiled_escape x
  · rcases lex_outside_escape text with hinvalid | ⟨houtside, -⟩
    · refine spoiled_of_invalid ?_
      rw [lex_append, hinvalid, lex_invalid]
    · have hopen : Lexed.step .outside '"' = .string := rfl
      have hlex : lex .outside (escape text ++ '"' :: rest) = lex .string rest := by
        rw [lex_append, houtside, lex_cons, hopen]
      rcases htail with rfl | ⟨others, rfl⟩
      · -- The text is the last one, and what closes it opens a string that is not closed.
        refine spoiled_of_string (hlex.trans (lex_string_of_bare fun ch hch => ?_))
        have hall : ∀ ch ∈ ['\x7d'] ++ '\n' :: (outputEndMarker ++ ['\n']), Bare ch :=
          forall_of_all (by decide)
        refine hall ch ?_
        rw [hrest]
        exact List.mem_append_left _ (List.mem_append_left _ hch)
      · -- What closes the text opens a string that is closed before a name.
        have hname : ",\"error\"".toList ++ ':' :: others ++ '\n' :: (outputEndMarker ++ ['\n']) =
            [','] ++ '"' :: ('e' :: ("rror\"".toList ++ ':' :: others ++
              '\n' :: (outputEndMarker ++ ['\n']))) := by
          have hsplit : ",\"error\"".toList = ',' :: '"' :: 'e' :: "rror\"".toList := by decide
          rw [hsplit]
          rfl
        have hcomma : ¬ outputEndMarker <:+: [','] := by decide
        rw [hname] at hrest
        obtain ⟨inner, rfl, hinner⟩ := isMarker_end.peel (by decide) hcomma hrest
        have hmarker : outputEndMarker = '-' :: outputEndMarker.tail := by decide
        cases inner with
        | nil =>
          rw [hmarker] at hinner
          exact absurd (List.cons.inj hinner).1 (by decide)
        | cons ch inner =>
          obtain ⟨rfl, -⟩ := List.cons.inj hinner
          refine spoiled_of_invalid (hlex.trans ?_)
          have hclosed : lex .string [',', '"', 'e'] = .invalid := by decide
          have happend : [','] ++ '"' :: 'e' :: inner = [',', '"', 'e'] ++ inner := rfl
          rw [happend, lex_append, hclosed, lex_invalid]

/-- **What is found where the output holds a marker.** -/
theorem spoiled_of_marked {payload : ContainerOutput} (h : ¬ Unmarked payload)
    (preceding : List Char) :
    ∃ slice, extractRunnerOutput (preceding ++ writeOutput payload true) = some (strip slice) ∧
      Spoiled slice := by
  obtain ⟨before, after, stop, heq, hlength, hlast, hstop, hextract⟩ :=
    extract_frame payload preceding
  refine ⟨_, hextract, ?_⟩
  obtain ⟨⟨front, back, hfront, rfl⟩, hfirst⟩ := find?_eq_some hstop
  by_cases hshort : front.length ≤ outputStartMarker.length
  · rw [Nat.sub_eq_zero_of_le hshort, List.take_zero]
    exact .inr List.not_mem_nil
  · -- The end marker comes after the start marker.
    obtain ⟨slice, rfl⟩ : ∃ slice, front = outputStartMarker ++ slice := by
      rw [List.append_assoc] at hfront
      rcases List.append_eq_append_iff.mp hfront with ⟨v, rfl, -⟩ | ⟨v, hv, -⟩
      · exact ⟨v, rfl⟩
      · have hlength' := congrArg List.length hv
        rw [List.length_append] at hlength'
        omega
    have hafter : after = slice ++ outputEndMarker ++ back := by
      simpa only [List.append_assoc, List.append_cancel_left_eq] using hfront
    have hslice : after.take ((outputStartMarker ++ slice).length - outputStartMarker.length) =
        slice := by
      rw [List.length_append, Nat.add_sub_cancel_left, hafter, List.append_assoc, List.take_left]
    rw [hslice]
    rcases last_start heq hlength with ⟨rfl, hframe⟩ | ⟨x, y, hx, hy⟩
    · -- The output holds no start marker, so it holds an end marker.
      obtain ⟨text, htext, hmarked⟩ : ∃ text,
          (payload.result = some text ∨ payload.error = some text) ∧ ¬ Markerless text := by
        simpa [Unmarked] using h
      have hnot : ¬ outputStartMarker <:+: serializeOutput payload := by
        rintro ⟨x, y, hxy⟩
        have hlater := hlast (before ++ outputStartMarker ++ '\n' :: x)
          (y ++ '\n' :: (outputEndMarker ++ ['\n'])) (by
            rw [writeOutput_framed, ← hxy]
            simp)
        simp only [List.length_append, List.length_cons] at hlater
        omega
      have hend : outputEndMarker <:+: text := by
        by_contra hend
        exact hmarked ⟨fun hstart => hnot (isMarker_start.infix_of_text htext hstart), hend⟩
      obtain ⟨x, y, hxy⟩ := isMarker_end.infix_of_text htext hend
      have hline : [] ++ '\n' :: (serializeOutput payload ++ '\n' :: (outputEndMarker ++ ['\n'])) =
          slice ++ outputEndMarker ++ back := hframe.symm.trans hafter
      obtain ⟨inner, rfl, hinner⟩ := isMarker_end.peel (by decide) isMarker_end.short.1 hline
      rcases split_at_separator (isMarker_end.separators '\n' (by decide)) isMarker_end.ne_nil
        hinner with ⟨rest, hrest, -⟩ | ⟨rest, rfl, -⟩
      · exact spoiled_of_end (isMarker_end.around hrest)
      · have hearlier := hfirst (outputStartMarker ++ '\n' :: x)
          (y ++ '\n' :: (outputEndMarker ++ ['\n'])) (by
            rw [hframe, ← hxy]
            simp)
        have hlength' := congrArg List.length hxy
        simp only [List.length_append, List.length_cons, List.length_nil] at hearlier hlength'
        omega
    · exact spoiled_of_start (isMarker_start.around hx) (hy.symm.trans hafter)

theorem bare_of_isSpace {ch : Char} (h : isSpace ch = true) : Bare ch ∧ ch.isAlpha = false := by
  refine ⟨⟨?_, ?_⟩, ?_⟩
  · rintro rfl
    exact absurd h (by decide)
  · rintro rfl
    exact absurd h (by decide)
  · exact (not_isAlphanum_of_isSpace h).1

theorem strip_eq (text : List Char) :
    ∃ front back, text = front ++ strip text ++ back ∧ (∀ ch ∈ front, isSpace ch = true) ∧
      ∀ ch ∈ back, isSpace ch = true := by
  refine ⟨text.takeWhile isSpace, ((text.dropWhile isSpace).reverse.takeWhile isSpace).reverse,
    ?_, fun ch hch => List.mem_takeWhile_imp hch,
    fun ch hch => List.mem_takeWhile_imp (List.mem_reverse.mp hch)⟩
  have hback : strip text ++ ((text.dropWhile isSpace).reverse.takeWhile isSpace).reverse =
      text.dropWhile isSpace := by
    rw [strip, stripBy, ← List.reverse_append, List.takeWhile_append_dropWhile, List.reverse_reverse]
  rw [List.append_assoc, hback, List.takeWhile_append_dropWhile]

theorem settled_of_spaces {state : Lexed} (h : state.Settled) {space : List Char}
    (hspace : ∀ ch ∈ space, isSpace ch = true) : (lex state space).Settled := by
  induction space generalizing state with
  | nil => exact h
  | cons ch space ih =>
    obtain ⟨hplain, halpha⟩ := bare_of_isSpace (hspace ch List.mem_cons_self)
    rw [lex_cons, h.step hplain halpha]
    exact ih (.inl rfl) fun ch' hch' => hspace ch' (List.mem_cons_of_mem _ hch')

/-- An object that is read there has no members. -/
theorem members_of_spoiled {slice : List Char} {members : List (List Char × Json)}
    (h : Spoiled slice) (hloads : loads (strip slice) = some (.object members)) :
    members = [] := by
  obtain ⟨front, back, heq, hfront, hback⟩ := strip_eq slice
  rcases h with hlex | hquote
  · refine absurd ?_ hlex
    have hopen : lex .outside front = .outside :=
      lex_outside_of_bare fun ch hch => (bare_of_isSpace (hfront ch hch)).1
    rw [heq, lex_append, lex_append, hopen]
    exact settled_of_spaces (loads_lex hloads) hback
  · refine members_of_no_quote (fun hin => hquote ?_) hloads
    rw [heq]
    exact List.mem_append_left _ (List.mem_append_right _ hin)

/-- What the backends make of it. -/
theorem parse_of_spoiled {stdout slice : List Char}
    (hextract : extractRunnerOutput stdout = some (strip slice)) (h : Spoiled slice)
    (stderr source : List Char) (returncode : ℤ) :
    ∃ error, parseRunnerOutput stdout stderr returncode source =
        { status := .failed, error := some (.str error), returncode } ∧
      (error = source ++ " runner produced invalid JSON output".toList ∨
        error = source ++ " runner returned non-object output".toList ∨
        error = if strip stderr = [] then source ++ " runner failed".toList else strip stderr) := by
  unfold parseRunnerOutput
  rw [hextract]
  simp only
  cases hloads : loads (strip slice) with
  | none => exact ⟨_, rfl, .inl rfl⟩
  | some value =>
    cases value with
    | object members =>
      obtain rfl := members_of_spoiled h hloads
      exact ⟨_, rfl, .inr (.inr rfl)⟩
    | null => exact ⟨_, rfl, .inr (.inl rfl)⟩
    | bool value => exact ⟨_, rfl, .inr (.inl rfl)⟩
    | number digits => exact ⟨_, rfl, .inr (.inl rfl)⟩
    | str chars => exact ⟨_, rfl, .inr (.inl rfl)⟩
    | array items => exact ⟨_, rfl, .inr (.inl rfl)⟩

/-! ## The outputs that are recovered -/

/-- A failure of which the result of an output with a marker says nothing. -/
theorem not_recovers_of_marked {payload : ContainerOutput} (hmarked : ¬ Unmarked payload)
    (herror : ¬ (payload.status = .error ∧ payload.error.getD [] = [])) :
    ¬ RoundTrips payload := by
  intro h
  -- A source and a standard error that no message shares with the error of the output.
  let source := payload.error.getD []
  let stderr : List Char := if source = ['x'] then ['y'] else ['x']
  obtain ⟨slice, hextract, hspoiled⟩ := spoiled_of_marked hmarked []
  obtain ⟨error, hparse, hmessage⟩ := parse_of_spoiled hextract hspoiled stderr source 0
  have hempty : Markerless [] := ⟨isMarker_start.short.1, isMarker_end.short.1⟩
  have hrecovers := h [] stderr source 0 hempty
  rw [hparse] at hrecovers
  unfold Recovers at hrecovers
  cases hstatus : payload.status with
  | success =>
    rw [hstatus] at hrecovers
    cases hrecovers.1
  | timeout =>
    rw [hstatus] at hrecovers
    cases hrecovers.1
  | error =>
    rw [hstatus] at hrecovers
    have hne : source ≠ [] := fun hnil => herror ⟨hstatus, hnil⟩
    cases htext : payload.error with
    | none => simp [source, htext] at hne
    | some text =>
      have hsource : source = text := by simp [source, htext]
      obtain ⟨-, hsame⟩ := hrecovers text htext (hsource ▸ hne)
      have hsame : error = source := by
        simpa [hsource] using hsame
      have hstderr : strip stderr = stderr ∧ stderr ≠ [] ∧ stderr ≠ source := by
        by_cases hx : source = ['x']
        · simp only [stderr, if_pos hx, hx]
          decide
        · simp only [stderr, if_neg hx]
          exact ⟨by decide, by decide, fun heq => hx heq.symm⟩
      rcases hmessage with rfl | rfl | rfl
      · exact absurd (List.append_right_eq_self.mp hsame) (by decide)
      · exact absurd (List.append_right_eq_self.mp hsame) (by decide)
      · rw [hstderr.1, if_neg hstderr.2.1] at hsame
        exact hstderr.2.2 hsame

/-- **The outputs that are recovered** are those whose texts hold no marker; nothing is asked of an
error without a text. -/
theorem roundTrips_iff (payload : ContainerOutput) :
    RoundTrips payload ↔
      Unmarked payload ∨ (payload.status = .error ∧ payload.error.getD [] = []) := by
  constructor
  · intro h
    by_contra hnot
    obtain ⟨hmarked, herror⟩ := not_or.mp hnot
    exact not_recovers_of_marked hmarked herror h
  · rintro (hunmarked | ⟨hstatus, herror⟩) preceding stderr source returncode -
    · exact recovers_of_unmarked hunmarked preceding stderr source returncode
    · unfold Recovers
      rw [hstatus]
      intro text htext hne
      rw [htext] at herror
      exact absurd herror hne

/-- A reply that quotes the end marker. -/
theorem exists_not_roundTrips :
    ∃ payload : ContainerOutput, payload.status = .success ∧
      payload.result = some "done ---PORTEX_OUTPUT_END---".toList ∧
      (parseRunnerOutput (writeOutput payload true) [] 0 "container".toList).status = .failed ∧
      ¬ RoundTrips payload := by
  have hfailed : (parseRunnerOutput (writeOutput
      { status := .success, result := some "done ---PORTEX_OUTPUT_END---".toList } true) [] 0
        "container".toList).status = .failed := by decide +kernel
  refine ⟨_, rfl, rfl, hfailed, fun h => ?_⟩
  have hempty : Markerless [] := ⟨isMarker_start.short.1, isMarker_end.short.1⟩
  obtain ⟨hcompleted, -⟩ := h [] [] "container".toList 0 hempty
  rw [List.nil_append, hfailed] at hcompleted
  cases hcompleted

end Portex
