import Mathlib.Data.List.Basic
import Mathlib.Data.Nat.Notation

/-!
# Decoding of UTF-8

UTF-8 as CPython decodes it with the error handler `ignore`: a character that is there is decoded,
and where there is none the bytes of the error are skipped. Decoding the pieces of an encoded text
one by one gives the text just if no piece begins within a character.

## Main definitions

* `encodeUtf8`, `decodeUtf8`: the bytes of some characters, and the characters of some bytes
* `errorLength`: the bytes that are skipped where no character begins

## Main results

* `decodeUtf8_encodeUtf8`: decoding undoes encoding
* `encodeUtf8_decodeUtf8_or`: bytes that are no encoded text decode to fewer bytes of text
* `flatMap_decodeUtf8_iff`: the pieces that decode to the whole
-/

namespace Foundation

def encodeUtf8 (l : List Char) : List UInt8 := l.flatMap String.utf8EncodeChar

/-- The character that some bytes begin with. -/
def firstChar? (bytes : List UInt8) : Option Char := bytes.toByteArray.utf8DecodeChar? 0

def isContinuation (byte : UInt8) : Bool := 0x80 ≤ byte && byte ≤ 0xBF

/-- The bytes that may come second after a first byte. -/
def secondByte (first second : UInt8) : Bool :=
  isContinuation second && !(first == 0xE0 && second < 0xA0) && !(first == 0xED && 0xA0 ≤ second) &&
    !(first == 0xF0 && second < 0x90) && !(first == 0xF4 && 0x90 ≤ second)

/-- The length of the error at the beginning of some bytes that no character begins: the bytes up
to the one that cannot continue a character, or to the end of the data. -/
def errorLength : List UInt8 → ℕ
  | [] => 0
  | first :: rest =>
    -- An invalid start byte.
    if first < 0xC2 || 0xF5 ≤ first then 1
    else match rest with
      | [] => 1
      | second :: rest =>
        if !secondByte first second then 1
        else match rest with
          | [] => 2
          | third :: _ => if isContinuation third then 3 else 2

/-- The characters of some bytes, `skip` of which are passed over first. Errors are ignored. -/
def decodeFrom : ℕ → List UInt8 → List Char
  | _, [] => []
  | skip + 1, _ :: bytes => decodeFrom skip bytes
  | 0, byte :: bytes =>
    match firstChar? (byte :: bytes) with
    | some c => c :: decodeFrom (c.utf8Size - 1) bytes
    | none => decodeFrom (errorLength (byte :: bytes) - 1) bytes

/-- `bytes.decode("utf-8", errors="ignore")`. -/
def decodeUtf8 (bytes : List UInt8) : List Char := decodeFrom 0 bytes

variable {c : Char} {l m : List Char} {bytes rest : List UInt8}

/-! ## Characters -/

@[simp] theorem encodeUtf8_nil : encodeUtf8 [] = [] := rfl

theorem encodeUtf8_cons (c : Char) (l : List Char) :
    encodeUtf8 (c :: l) = String.utf8EncodeChar c ++ encodeUtf8 l := List.flatMap_cons

theorem encodeUtf8_append (l m : List Char) :
    encodeUtf8 (l ++ m) = encodeUtf8 l ++ encodeUtf8 m := List.flatMap_append

theorem length_encodeUtf8_cons (c : Char) (l : List Char) :
    (encodeUtf8 (c :: l)).length = c.utf8Size + (encodeUtf8 l).length := by
  rw [encodeUtf8_cons, List.length_append, String.length_utf8EncodeChar]

theorem firstChar?_encode (c : Char) (rest : List UInt8) :
    firstChar? (String.utf8EncodeChar c ++ rest) = some c := by
  rw [firstChar?, List.toByteArray_append]
  exact ByteArray.utf8DecodeChar?_utf8EncodeChar_append

/-- Bytes that begin with a character are its encoding and a rest. -/
theorem eq_append_of_firstChar? (h : firstChar? bytes = some c) :
    ∃ rest, bytes = String.utf8EncodeChar c ++ rest := by
  obtain ⟨b, hb⟩ := ByteArray.exists_of_utf8DecodeChar?_eq_some h
  refine ⟨b.data.toList, List.toByteArray_inj.mp ?_⟩
  rw [List.toByteArray_append, hb]
  congr 1
  apply ByteArray.ext
  rw [List.data_toByteArray, Array.toArray_toList]

/-- The first byte of a character is the only one that may begin one. -/
theorem isFirst_encode (front : List UInt8) {back : List UInt8} {byte : UInt8}
    (h : String.utf8EncodeChar c = front ++ byte :: back) : byte.IsUTF8FirstByte ↔ front = [] := by
  have hlt : front.length < (String.utf8EncodeChar c).length := by
    rw [h, List.length_append, List.length_cons]
    omega
  have hget : (String.utf8EncodeChar c)[front.length] = byte := by simp [h]
  rw [← hget, UInt8.isUTF8FirstByte_getElem_utf8EncodeChar, List.length_eq_zero_iff]

/-! ## Decoding -/

theorem decodeFrom_eq_drop (skip : ℕ) (bytes : List UInt8) :
    decodeFrom skip bytes = decodeUtf8 (bytes.drop skip) := by
  induction bytes generalizing skip with
  | nil => cases skip <;> rfl
  | cons byte bytes ih =>
    cases skip with
    | zero => rfl
    | succ skip => exact ih skip

theorem decodeUtf8_encode_append (c : Char) (rest : List UInt8) :
    decodeUtf8 (String.utf8EncodeChar c ++ rest) = c :: decodeUtf8 rest := by
  have hfirst := firstChar?_encode c rest
  have hlength := String.length_utf8EncodeChar c
  cases henc : String.utf8EncodeChar c with
  | nil => exact absurd henc String.utf8EncodeChar_ne_nil
  | cons byte bytes =>
    rw [henc] at hfirst hlength
    rw [List.cons_append, decodeUtf8, decodeFrom, ← List.cons_append, hfirst]
    simp only [List.length_cons] at hlength ⊢
    rw [decodeFrom_eq_drop, ← hlength, Nat.add_sub_cancel, List.drop_left]

/-- **Decoding undoes encoding.** -/
theorem decodeUtf8_encodeUtf8 (l : List Char) : decodeUtf8 (encodeUtf8 l) = l := by
  induction l with
  | nil => rfl
  | cons c l ih => rw [encodeUtf8_cons, decodeUtf8_encode_append, ih]

theorem errorLength_pos (byte : UInt8) (bytes : List UInt8) :
    0 < errorLength (byte :: bytes) := by
  rcases bytes with _ | ⟨second, _ | ⟨third, rest⟩⟩
  all_goals
    simp only [errorLength]
    repeat' split
    all_goals omega

/-- Decoded bytes are either encoded text, or they have lost something. -/
theorem encodeUtf8_decodeUtf8_or (bytes : List UInt8) :
    encodeUtf8 (decodeUtf8 bytes) = bytes ∨
      (encodeUtf8 (decodeUtf8 bytes)).length < bytes.length := by
  -- Each round leaves fewer bytes.
  induction hn : bytes.length using Nat.strongRecOn generalizing bytes with
  | ind n ih =>
    subst hn
    cases bytes with
    | nil => exact .inl rfl
    | cons byte bytes =>
      cases hfirst : firstChar? (byte :: bytes) with
      | some c =>
        obtain ⟨rest, hrest⟩ := eq_append_of_firstChar? hfirst
        have hlength : (byte :: bytes).length = c.utf8Size + rest.length := by
          rw [hrest, List.length_append, String.length_utf8EncodeChar]
        rw [hrest, decodeUtf8_encode_append, encodeUtf8_cons]
        rcases ih rest.length (by have := c.utf8Size_pos; omega) rest rfl with heq | hlt
        · exact .inl (by rw [heq])
        · right
          rw [List.length_append, List.length_append]
          omega
      | none =>
        right
        have hpos := errorLength_pos byte bytes
        rw [decodeUtf8, decodeFrom, hfirst]
        simp only
        rw [decodeFrom_eq_drop, List.length_cons]
        have hdrop : (bytes.drop (errorLength (byte :: bytes) - 1)).length ≤ bytes.length := by
          rw [List.length_drop]
          omega
        rcases ih _ (by rw [List.length_cons]; omega)
          (bytes.drop (errorLength (byte :: bytes) - 1)) rfl with heq | hlt
        · rw [heq]
          omega
        · omega

theorem length_encodeUtf8_decodeUtf8_le (bytes : List UInt8) :
    (encodeUtf8 (decodeUtf8 bytes)).length ≤ bytes.length := by
  rcases encodeUtf8_decodeUtf8_or bytes with heq | hlt
  · exact Nat.le_of_eq (congrArg List.length heq)
  · exact Nat.le_of_lt hlt

/-! ## Pieces -/

/-- The first piece of an encoded text ends between characters if what follows it begins one. -/
theorem exists_split (h : bytes ++ rest = encodeUtf8 l)
    (hfirst : ∀ byte ∈ rest.head?, byte.IsUTF8FirstByte) :
    ∃ front back, l = front ++ back ∧ bytes = encodeUtf8 front ∧ rest = encodeUtf8 back := by
  induction l generalizing bytes with
  | nil =>
    obtain ⟨rfl, rfl⟩ := List.append_eq_nil_iff.mp h
    exact ⟨[], [], rfl, rfl, rfl⟩
  | cons c l ih =>
    rw [encodeUtf8_cons] at h
    rcases List.append_eq_append_iff.mp h with ⟨back, henc, hrest⟩ | ⟨bytes', hbytes, hrest⟩
    · -- The piece ends in the first character, so it is empty.
      cases back with
      | nil =>
        refine ⟨[c], l, rfl, ?_, by simpa using hrest⟩
        rw [encodeUtf8_cons, encodeUtf8_nil, List.append_nil, henc, List.append_nil]
      | cons byte back =>
        obtain rfl := (isFirst_encode _ henc).mp (hfirst byte (by simp [hrest]))
        exact ⟨[], c :: l, rfl, rfl, by rw [encodeUtf8_cons, ← h]; rfl⟩
    · obtain ⟨front, back, rfl, rfl, hback⟩ := ih hrest.symm
      exact ⟨c :: front, back, rfl, by rw [encodeUtf8_cons, hbytes], hback⟩

/-- The pieces of an encoded text are encoded texts if each begins a character. -/
theorem encoded_of_first {pieces : List (List UInt8)} (h : pieces.flatten = encodeUtf8 l)
    (hfirst : ∀ piece ∈ pieces, ∀ byte ∈ piece.head?, byte.IsUTF8FirstByte) :
    ∀ piece ∈ pieces, encodeUtf8 (decodeUtf8 piece) = piece := by
  induction pieces generalizing l with
  | nil => exact nofun
  | cons piece pieces ih =>
    have hhead : ∀ byte ∈ pieces.flatten.head?, byte.IsUTF8FirstByte := by
      intro byte hbyte
      obtain ⟨piece', hmem, hb⟩ : ∃ piece' ∈ pieces, byte ∈ piece'.head? := by
        rw [List.head?_flatten] at hbyte
        obtain ⟨piece', hmem, hb⟩ := List.exists_of_findSome?_eq_some hbyte
        exact ⟨piece', hmem, hb⟩
      exact hfirst piece' (List.mem_cons_of_mem _ hmem) byte hb
    obtain ⟨front, back, -, rfl, hback⟩ := exists_split (List.flatten_cons ▸ h) hhead
    intro piece' hmem
    rcases List.mem_cons.mp hmem with rfl | hmem
    · rw [decodeUtf8_encodeUtf8]
    · exact ih hback (fun p hp => hfirst p (List.mem_cons_of_mem _ hp)) piece' hmem

theorem encodeUtf8_flatMap {pieces : List (List UInt8)}
    (h : ∀ piece ∈ pieces, encodeUtf8 (decodeUtf8 piece) = piece) :
    encodeUtf8 (pieces.flatMap decodeUtf8) = pieces.flatten := by
  induction pieces with
  | nil => rfl
  | cons piece pieces ih =>
    rw [List.flatMap_cons, encodeUtf8_append, h piece List.mem_cons_self,
      ih fun p hp => h p (List.mem_cons_of_mem _ hp), List.flatten_cons]

theorem length_encodeUtf8_flatMap_le (pieces : List (List UInt8)) :
    (encodeUtf8 (pieces.flatMap decodeUtf8)).length ≤ pieces.flatten.length := by
  induction pieces with
  | nil => exact Nat.le_refl 0
  | cons piece pieces ih =>
    have hle := length_encodeUtf8_decodeUtf8_le piece
    rw [List.flatMap_cons, encodeUtf8_append, List.flatten_cons, List.length_append,
      List.length_append]
    omega

/-- Pieces that decode to the whole have lost nothing. -/
theorem encoded_of_flatMap {pieces : List (List UInt8)}
    (h : encodeUtf8 (pieces.flatMap decodeUtf8) = pieces.flatten) :
    ∀ piece ∈ pieces, encodeUtf8 (decodeUtf8 piece) = piece := by
  induction pieces with
  | nil => exact nofun
  | cons piece pieces ih =>
    rw [List.flatMap_cons, encodeUtf8_append, List.flatten_cons] at h
    have hlength := congrArg List.length h
    rw [List.length_append, List.length_append] at hlength
    have hle := length_encodeUtf8_flatMap_le pieces
    have heq : encodeUtf8 (decodeUtf8 piece) = piece := by
      rcases encodeUtf8_decodeUtf8_or piece with heq | hlt
      · exact heq
      · omega
    rw [heq] at h
    intro piece' hmem
    rcases List.mem_cons.mp hmem with rfl | hmem
    · exact heq
    · exact ih (List.append_cancel_left h) piece' hmem

/-- **Pieces.** The pieces of an encoded text decode to the text if and only if each of them begins
with the first byte of a character. -/
theorem flatMap_decodeUtf8_iff {pieces : List (List UInt8)} (h : pieces.flatten = encodeUtf8 l) :
    pieces.flatMap decodeUtf8 = l ↔
      ∀ piece ∈ pieces, ∀ byte ∈ piece.head?, byte.IsUTF8FirstByte := by
  constructor
  · rintro rfl piece hmem byte hbyte
    have henc := encoded_of_flatMap h.symm piece hmem
    cases hdecoded : decodeUtf8 piece with
    | nil =>
      rw [hdecoded, encodeUtf8_nil] at henc
      rw [← henc] at hbyte
      cases hbyte
    | cons c l =>
      rw [hdecoded, encodeUtf8_cons] at henc
      cases hc : String.utf8EncodeChar c with
      | nil => exact absurd hc String.utf8EncodeChar_ne_nil
      | cons byte' back =>
        rw [hc] at henc
        rw [← henc] at hbyte
        obtain rfl := Option.some.inj hbyte
        exact (isFirst_encode [] hc).mpr rfl
  · intro hfirst
    have henc := encodeUtf8_flatMap (encoded_of_first h hfirst)
    rw [← decodeUtf8_encodeUtf8 (pieces.flatMap decodeUtf8), henc, h, decodeUtf8_encodeUtf8]

end Foundation
