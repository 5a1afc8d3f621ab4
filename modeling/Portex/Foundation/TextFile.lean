import Portex.Foundation.Utf8

/-!
# Text files

What is read from a file that was written as text: the line endings of other systems are read as
new lines.

## Main definitions

* `universalNewlines`: what is read where some characters are written
* `readText`: what is read where a file holds some bytes
* `sizeOf8`: the size of a file in bytes

## Main results

* `universalNewlines_eq_self`: the texts that are read as they are written
* `readText_encodeUtf8`: a text that was written is read
-/

namespace Foundation

/-- `path.read_text(encoding="utf-8")`, for the characters of the file. -/
def universalNewlines : List Char → List Char
  | [] => []
  | '\r' :: '\n' :: text => '\n' :: universalNewlines text
  | ch :: text => (if ch = '\r' then '\n' else ch) :: universalNewlines text

/-- `path.read_text(encoding="utf-8")`, for the bytes of the file: nothing is read where they are no
text. -/
def readText (bytes : List UInt8) : Option (List Char) :=
  if encodeUtf8 (decodeUtf8 bytes) = bytes then some (universalNewlines (decodeUtf8 bytes))
  else none

theorem readText_encodeUtf8 (text : List Char) :
    readText (encodeUtf8 text) = some (universalNewlines text) := by
  simp [readText, decodeUtf8_encodeUtf8]

/-- `len(text.encode("utf-8"))`. -/
def sizeOf8 (text : List Char) : ℕ := (encodeUtf8 text).length

theorem sizeOf8_append (text text' : List Char) :
    sizeOf8 (text ++ text') = sizeOf8 text + sizeOf8 text' := by
  simp [sizeOf8, encodeUtf8_append]

theorem sizeOf8_newline : sizeOf8 ['\n'] = 1 := by decide

theorem cr_notMem_universalNewlines (text : List Char) : '\r' ∉ universalNewlines text := by
  fun_induction universalNewlines text with
  | case1 => simp
  | case2 text ih => simp [ih]
  | case3 ch text _ ih =>
    have hhead : '\r' ≠ if ch = '\r' then '\n' else ch := by
      split
      · decide
      · rename_i hch
        exact Ne.symm hch
    simp [ih, hhead]

/-- **A text is read as it is written** just if it holds no carriage return. -/
theorem universalNewlines_eq_self {text : List Char} :
    universalNewlines text = text ↔ '\r' ∉ text := by
  constructor
  · intro heq
    rw [← heq]
    exact cr_notMem_universalNewlines text
  · intro hnone
    fun_induction universalNewlines text with
    | case1 => rfl
    | case2 text ih => simp at hnone
    | case3 ch text _ ih =>
      simp only [List.mem_cons, not_or] at hnone
      rw [if_neg (Ne.symm hnone.1), ih hnone.2]

end Foundation
