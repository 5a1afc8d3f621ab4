import Mathlib
import Portex.Terminal.History
import Portex.Foundation.Utf8

/-!
# The output of a shell

`services/terminal_bridge.py` reads the output of a shell in chunks of at most 1024 bytes and
decodes each on its own, ignoring errors. A character that is cut by a read is an error in both
chunks, and lost.

## Main definitions

* `forwardPtyOutput`: the events of a bridge, from the chunks it reads
* `Cuts`: the ways the reads may cut the output of a shell
* `BetweenCharacters`: the reads cut between characters
* `retainedBytes`: how much of its output a session retains

## Main results

* `sameOutput_iff`: the cuts between which output and history do not depend
* `not_forall_decoded`: a character that is lost
-/

namespace Portex

open Foundation

/-- `_forward_pty_output`, from the results of `_read_pty_chunk`: an empty chunk is the end. -/
def forwardPtyOutput : List (List UInt8) → List TerminalBridgeEvent
  | [] => []
  | chunk :: reads =>
    if chunk = [] then []
    else { type := .output, data := some (String.ofList (decodeUtf8 chunk)) } ::
      forwardPtyOutput reads

/-- The data of output events, in order. -/
def outputData (events : List TerminalBridgeEvent) : List String :=
  events.filterMap TerminalBridgeEvent.data

/-- The reads cut the output of the shell, a text in UTF-8, into chunks. -/
structure Cuts (text : String) (reads : List (List UInt8)) : Prop where
  nonempty : ∀ chunk ∈ reads, chunk ≠ []
  bounded : ∀ chunk ∈ reads, chunk.length ≤ 1024
  flatten : reads.flatten = encodeUtf8 text.toList

/-- No chunk begins within a character. -/
def BetweenCharacters (reads : List (List UInt8)) : Prop :=
  ∀ chunk ∈ reads, ∀ byte ∈ chunk.head?, byte.IsUTF8FirstByte

instance : DecidablePred BetweenCharacters := fun reads =>
  inferInstanceAs (Decidable (∀ chunk ∈ reads, ∀ byte ∈ chunk.head?, byte.IsUTF8FirstByte))

/-- How many bytes `_append_output_history` retains of chunks of these sizes: the oldest are
dropped one by one. -/
def retainedBytes (historyMaxBytes : ℕ) : List ℕ → ℕ
  | [] => 0
  | size :: sizes =>
    if historyMaxBytes < size + sizes.sum then retainedBytes historyMaxBytes sizes
    else size + sizes.sum

/-- The history of a session that has got some output, from its beginning on. -/
def outputHistory (historyMaxBytes : ℕ) (record : TerminalSessionRecord) (data : List String) :
    String :=
  String.join (data.foldl (TerminalSessionService.appendOutputHistory historyMaxBytes)
    { record }).outputHistoryChunks

/-- Two ways to cut a text give the text, and they leave a session that has got the output
`before` with the same history. -/
structure SameOutput (historyMaxBytes : ℕ) (record : TerminalSessionRecord) (before : List String)
    (text : String) (reads reads' : List (List UInt8)) : Prop where
  left : String.join (outputData (forwardPtyOutput reads)) = text
  right : String.join (outputData (forwardPtyOutput reads')) = text
  history : outputHistory historyMaxBytes record (before ++ outputData (forwardPtyOutput reads)) =
    outputHistory historyMaxBytes record (before ++ outputData (forwardPtyOutput reads'))

/-! ## Sizes -/

theorem utf8ByteSize_ofList (l : List Char) :
    (String.ofList l).utf8ByteSize = (encodeUtf8 l).length := by
  rw [← String.size_toByteArray, String.toByteArray_ofList, List.utf8Encode, List.size_toByteArray]
  rfl

theorem utf8ByteSize_eq (s : String) : s.utf8ByteSize = (encodeUtf8 s.toList).length := by
  rw [← utf8ByteSize_ofList, String.ofList_toList]

/-- Two ends of a text that have as many bytes are the same. -/
theorem eq_of_suffix {l m whole : List Char} (hl : l <:+ whole) (hm : m <:+ whole)
    (h : (encodeUtf8 l).length = (encodeUtf8 m).length) : l = m := by
  -- One of them is an end of the other, with nothing before it.
  have key : ∀ {l m : List Char}, l <:+ m →
      (encodeUtf8 l).length = (encodeUtf8 m).length → l = m := by
    rintro l m ⟨front, rfl⟩ h
    rw [encodeUtf8_append, List.length_append] at h
    cases front with
    | nil => rfl
    | cons c front =>
      have hpos := c.utf8Size_pos
      rw [length_encodeUtf8_cons] at h
      omega
  rcases List.suffix_or_suffix_of_suffix hl hm with hlm | hml
  · exact key hlm h
  · exact (key hml h.symm).symm

/-! ## The history -/

/-- The chunks that are retained of a list. -/
def retained (historyMaxBytes : ℕ) : List String → List String
  | [] => []
  | chunk :: chunks =>
    if historyMaxBytes < chunk.utf8ByteSize + (chunks.map String.utf8ByteSize).sum then
      retained historyMaxBytes chunks
    else chunk :: chunks

variable {historyMaxBytes : ℕ} {chunk : String} {chunks : List String}

theorem sum_retained (historyMaxBytes : ℕ) (chunks : List String) :
    weight String.utf8ByteSize (retained historyMaxBytes chunks) =
      retainedBytes historyMaxBytes (chunks.map String.utf8ByteSize) := by
  induction chunks with
  | nil => rfl
  | cons chunk chunks ih =>
    rw [retained, List.map_cons, retainedBytes]
    split
    · exact ih
    · exact weight_cons chunk

theorem retained_eq_window (historyMaxBytes : ℕ) (chunks : List String) :
    retained historyMaxBytes chunks = window String.utf8ByteSize historyMaxBytes chunks := by
  induction chunks with
  | nil => rfl
  | cons chunk chunks ih =>
    rw [retained]
    split
    · rename_i hover
      rw [ih, window_cons_of_lt hover]
    · rename_i hfits
      rw [window_of_le (Nat.not_lt.mp hfits)]

theorem retained_suffix (historyMaxBytes : ℕ) (chunks : List String) :
    retained historyMaxBytes chunks <:+ chunks := by
  rw [retained_eq_window]
  exact (isWindow_window _ _ _).suffix

/-- A history of no bytes retains no chunk that has any. -/
theorem retained_zero (h : ∀ chunk ∈ chunks, chunk ≠ "") : retained 0 chunks = [] := by
  induction chunks with
  | nil => rfl
  | cons chunk chunks ih =>
    have hsize : chunk.utf8ByteSize ≠ 0 := fun hzero =>
      h chunk List.mem_cons_self (String.utf8ByteSize_eq_zero_iff.mp hzero)
    rw [retained, if_pos (by omega)]
    exact ih fun c hc => h c (List.mem_cons_of_mem _ hc)

/-- A session without a history keeps no chunk. -/
theorem appendOutputHistory_zero (managed : ManagedTerminalSession) (data : List String)
    (h : managed.outputHistoryChunks = []) :
    (data.foldl (TerminalSessionService.appendOutputHistory 0) managed).outputHistoryChunks =
      [] := by
  induction data generalizing managed with
  | nil => exact h
  | cons chunk data ih => exact ih _ rfl

/-- The history is what is retained of all that was appended. -/
theorem outputHistory_eq (historyMaxBytes : ℕ) (record : TerminalSessionRecord)
    (data : List String) : outputHistory historyMaxBytes record data =
      String.join (retained historyMaxBytes (data.filter fun chunk => chunk ≠ "")) := by
  refine congrArg String.join ?_
  rcases Nat.eq_zero_or_pos historyMaxBytes with rfl | hmax
  · rw [appendOutputHistory_zero _ _ rfl, retained_zero fun c hc =>
      of_decide_eq_true (List.mem_filter.mp hc).2]
  · rw [retained_eq_window]
    exact (TerminalSessionService.retains_foldl { record } rfl hmax data).retained.eq_window

theorem retainedBytes_filter (historyMaxBytes : ℕ) (chunks : List String) :
    retainedBytes historyMaxBytes
        ((chunks.filter fun chunk => chunk ≠ "").map String.utf8ByteSize) =
      retainedBytes historyMaxBytes (chunks.map String.utf8ByteSize) ∧
    ((chunks.filter fun chunk => chunk ≠ "").map String.utf8ByteSize).sum =
      (chunks.map String.utf8ByteSize).sum := by
  induction chunks with
  | nil => exact ⟨rfl, rfl⟩
  | cons chunk chunks ih =>
    obtain ⟨hretained, hsum⟩ := ih
    by_cases hchunk : chunk = ""
    · rw [List.filter_cons_of_neg (by simpa using hchunk), hretained, hsum, hchunk, List.map_cons,
        List.sum_cons, String.utf8ByteSize_empty, Nat.zero_add]
      refine ⟨?_, rfl⟩
      rw [retainedBytes, Nat.zero_add]
      split
      · rfl
      · -- All of the rest is retained.
        rename_i hfits
        cases chunks with
        | nil => rfl
        | cons first chunks =>
          rw [List.map_cons, retainedBytes, List.sum_cons]
          rw [List.map_cons, List.sum_cons] at hfits
          rw [if_neg hfits]
    · rw [List.filter_cons_of_pos (by simpa using hchunk), List.map_cons, List.map_cons,
        List.sum_cons, List.sum_cons, retainedBytes, retainedBytes, hretained, hsum]
      exact ⟨rfl, rfl⟩

theorem join_filter (chunks : List String) :
    String.join (chunks.filter fun chunk => chunk ≠ "") = String.join chunks := by
  induction chunks with
  | nil => rfl
  | cons chunk chunks ih =>
    by_cases hchunk : chunk = ""
    · rw [List.filter_cons_of_neg (by simpa using hchunk), ih, String.join_cons, hchunk,
        String.empty_append]
    · rw [List.filter_cons_of_pos (by simpa using hchunk), String.join_cons, String.join_cons, ih]

/-- The history is an end of all the output, of the retained bytes. -/
theorem outputHistory_spec (historyMaxBytes : ℕ) (record : TerminalSessionRecord)
    (data : List String) :
    (outputHistory historyMaxBytes record data).toList <:+ (String.join data).toList ∧
      (outputHistory historyMaxBytes record data).utf8ByteSize =
        retainedBytes historyMaxBytes (data.map String.utf8ByteSize) := by
  rw [outputHistory_eq]
  constructor
  · obtain ⟨dropped, hdropped⟩ :=
      retained_suffix historyMaxBytes (data.filter fun chunk => chunk ≠ "")
    refine ⟨(String.join dropped).toList, ?_⟩
    rw [← String.toList_append, ← String.join_append, hdropped, join_filter]
  · rw [utf8ByteSize_join, sum_retained, (retainedBytes_filter historyMaxBytes data).1]

/-- Sessions that have got the same output have the same history just if they retain as many
bytes of it. -/
theorem outputHistory_eq_iff {data data' : List String} (record : TerminalSessionRecord)
    (h : String.join data = String.join data') :
    outputHistory historyMaxBytes record data = outputHistory historyMaxBytes record data' ↔
      retainedBytes historyMaxBytes (data.map String.utf8ByteSize) =
        retainedBytes historyMaxBytes (data'.map String.utf8ByteSize) := by
  obtain ⟨hsuffix, hsize⟩ := outputHistory_spec historyMaxBytes record data
  obtain ⟨hsuffix', hsize'⟩ := outputHistory_spec historyMaxBytes record data'
  rw [← hsize, ← hsize']
  constructor
  · intro heq
    rw [heq]
  · intro heq
    rw [utf8ByteSize_eq, utf8ByteSize_eq] at heq
    exact String.toList_inj.mp (eq_of_suffix hsuffix (h ▸ hsuffix') heq)

/-! ## The events of a bridge -/

variable {text : String} {reads reads' : List (List UInt8)}

theorem outputData_forwardPtyOutput (h : ∀ chunk ∈ reads, chunk ≠ []) :
    outputData (forwardPtyOutput reads) =
      reads.map fun chunk => String.ofList (decodeUtf8 chunk) := by
  induction reads with
  | nil => rfl
  | cons chunk reads ih =>
    rw [forwardPtyOutput, if_neg (h chunk List.mem_cons_self), List.map_cons,
      ← ih fun c hc => h c (List.mem_cons_of_mem _ hc)]
    rfl

/-- **The output** of a shell is decoded if and only if the reads cut it between characters. -/
theorem Cuts.join_outputData_iff (h : Cuts text reads) :
    String.join (outputData (forwardPtyOutput reads)) = text ↔ BetweenCharacters reads := by
  have hjoin : (String.join (outputData (forwardPtyOutput reads))).toList =
      reads.flatMap decodeUtf8 := by
    rw [outputData_forwardPtyOutput h.nonempty, String.toList_join, List.flatMap_map]
    simp only [String.toList_ofList]
  rw [← String.toList_inj, hjoin]
  exact flatMap_decodeUtf8_iff h.flatten

/-- Between characters, the data of an event has the size of its chunk. -/
theorem Cuts.sizes (h : Cuts text reads) (hbetween : BetweenCharacters reads) :
    (outputData (forwardPtyOutput reads)).map String.utf8ByteSize = reads.map List.length := by
  rw [outputData_forwardPtyOutput h.nonempty, List.map_map]
  refine List.map_congr_left fun chunk hchunk => ?_
  show (String.ofList (decodeUtf8 chunk)).utf8ByteSize = chunk.length
  rw [utf8ByteSize_ofList, encoded_of_first h.flatten hbetween chunk hchunk]

/-- **Read boundaries.** Two ways in which the reads cut the output of a shell give the output and
the same history if and only if both cut it between characters, and as many bytes of the chunks
are retained. -/
theorem sameOutput_iff (h : Cuts text reads) (h' : Cuts text reads')
    (record : TerminalSessionRecord) (before : List String) :
    SameOutput historyMaxBytes record before text reads reads' ↔
      BetweenCharacters reads ∧ BetweenCharacters reads' ∧
        retainedBytes historyMaxBytes (before.map String.utf8ByteSize ++ reads.map List.length) =
          retainedBytes historyMaxBytes
            (before.map String.utf8ByteSize ++ reads'.map List.length) := by
  have hhistory : BetweenCharacters reads → BetweenCharacters reads' →
      (outputHistory historyMaxBytes record (before ++ outputData (forwardPtyOutput reads)) =
        outputHistory historyMaxBytes record (before ++ outputData (forwardPtyOutput reads')) ↔
      retainedBytes historyMaxBytes (before.map String.utf8ByteSize ++ reads.map List.length) =
        retainedBytes historyMaxBytes
          (before.map String.utf8ByteSize ++ reads'.map List.length)) := by
    intro hb hb'
    have hjoin : String.join (before ++ outputData (forwardPtyOutput reads)) =
        String.join (before ++ outputData (forwardPtyOutput reads')) := by
      rw [String.join_append, String.join_append, h.join_outputData_iff.mpr hb,
        h'.join_outputData_iff.mpr hb']
    rw [outputHistory_eq_iff record hjoin, List.map_append, List.map_append, h.sizes hb,
      h'.sizes hb']
  constructor
  · rintro ⟨hleft, hright, hsame⟩
    have hb := h.join_outputData_iff.mp hleft
    have hb' := h'.join_outputData_iff.mp hright
    exact ⟨hb, hb', (hhistory hb hb').mp hsame⟩
  · rintro ⟨hb, hb', hretained⟩
    exact ⟨h.join_outputData_iff.mpr hb, h'.join_outputData_iff.mpr hb',
      (hhistory hb hb').mpr hretained⟩

/-- Two reads of `aé`, and one. -/
theorem sameOutput_iff_accent :
    SameOutput 64
      { sessionId := "s", groupId := "g", groupFolder := "home", ownerUserId := "alice"
        status := .created, createdAt := 0 } ["$ "] "aé" [[0x61], [0xC3, 0xA9]]
      [[0x61, 0xC3, 0xA9]] :=
  (sameOutput_iff ⟨by decide, by decide, by decide⟩ ⟨by decide, by decide, by decide⟩ _ _).mpr
    ⟨by decide +kernel, by decide +kernel, by decide⟩

/-- A read may cut `é` in two, and then it is lost. -/
theorem not_forall_decoded : ¬ ∀ text reads, Cuts text reads →
    String.join (outputData (forwardPtyOutput reads)) = text := by
  intro hall
  have hcuts : Cuts "é" [[0xC3], [0xA9]] := ⟨by decide, by decide, by decide⟩
  exact absurd (hall "é" [[0xC3], [0xA9]] hcuts) (by decide)

end Portex
