import Portex.Foundation.Json
import Portex.Foundation.Utf8

/-!
# JSON as Python reads it

`json.loads` with all that it keeps and all that it raises. Its strings are Python strings, whose
characters may be lone surrogates; its integers are unbounded, but not their texts; and it recurses
into arrays and objects, to a depth that the interpreter limits. The errors come in the order of the
text.

## Main definitions

* `PyStr`, `PyStr.encode?`: Python strings, and those that UTF-8 can encode
* `PyValue`: what a text stands for
* `PyLimits`, `LoadsError`: the limits of the interpreter, and the exceptions of `json.loads`
* `pyLoads`: the value of a text

## Main results

* `pyLoads_of_length_le`: a text within the limits raises a `JSONDecodeError` at most
* `pyLoads_eq`: the fuel of the reader is enough
-/

namespace Foundation

/-! ## Strings -/

/-- A character of a Python string: any code point. -/
abbrev CodePoint := Fin 0x110000

abbrev PyStr := List CodePoint

def CodePoint.ofChar (ch : Char) : CodePoint := Fin.ofNat 0x110000 ch.toNat

def CodePoint.isSurrogate (c : CodePoint) : Bool := 0xD800 ≤ c.val && c.val < 0xE000

namespace PyStr

def ofString (s : String) : PyStr := s.toList.map CodePoint.ofChar

/-- No character is a surrogate. -/
def Encodable (s : PyStr) : Prop := ∀ c ∈ s, c.isSurrogate = false

-- Of the characters of the string alone: there is an instance that runs over all code points.
instance : DecidablePred Encodable := fun s =>
  List.decidableBAll (fun c : CodePoint => c.isSurrogate = false) s

/-- `encode("utf-8")`; `none` is the `UnicodeEncodeError`. -/
def encode? (s : PyStr) : Option (List UInt8) :=
  if s.Encodable then some (encodeUtf8 (s.map fun c => Char.ofNat c.val)) else none

theorem encode?_eq_none_iff {s : PyStr} : s.encode? = none ↔ ¬ s.Encodable := by
  simp [encode?]

end PyStr

/-! ## Values -/

/-- The values of `json.loads`, with the members of an object as they are written. -/
inductive PyValue (φ : Type)
  | none
  | bool (value : Bool)
  | int (value : ℤ)
  | float (value : φ)
  | str (chars : PyStr)
  | list (items : List (PyValue φ))
  | dict (members : List (PyStr × PyValue φ))

namespace PyValue

variable {φ : Type}

/-- The value of a key, that of its last member; `none` is a missing key. -/
def get? (name : PyStr) : List (PyStr × PyValue φ) → Option (PyValue φ)
  | [] => Option.none
  | (key, value) :: members =>
    match get? name members with
    | some value => some value
    | Option.none => if key = name then some value else Option.none

/-- `members.get(name)`. -/
def getD (members : List (PyStr × PyValue φ)) (name : String) : PyValue φ :=
  (get? (.ofString name) members).getD .none

/-- The value, where `isinstance(value, int)`. A Boolean is an integer. -/
def int? : PyValue φ → Option ℤ
  | .int value => some value
  | .bool value => some value.toNat
  | _ => Option.none

/-- The value, where `isinstance(value, str)`. -/
def str? : PyValue φ → Option PyStr
  | .str chars => some chars
  | _ => Option.none

theorem str?_eq_some {value : PyValue φ} {chars : PyStr} :
    value.str? = some chars ↔ value = .str chars := by
  cases value <;> simp [str?]

end PyValue

/-! ## Reading -/

structure PyLimits where
  /-- The arrays and objects that may be open at once. -/
  depth : ℕ
  /-- The digits that the text of an integer may have. -/
  digits : ℕ

/-- The limits of a fresh interpreter. -/
def defaultLimits : PyLimits := { depth := 1000, digits := 4300 }

inductive LoadsError
  /-- `JSONDecodeError`. -/
  | decode
  /-- `RecursionError`. -/
  | recursion
  /-- The `ValueError` of an integer with too many digits. -/
  | digits
  deriving DecidableEq

/-- What follows `\u`. A surrogate that is not the first half of a pair stays as it is. -/
def scanUnicode (text : List Char) : Option (CodePoint × List Char) := do
  let (code, text) ← parseHex text
  if 0xD800 ≤ code ∧ code < 0xDC00 then
    match parseLowSurrogate text with
    | some (low, text) =>
      some (Fin.ofNat _ (0x10000 + (code - 0xD800) * 0x400 + (low - 0xDC00)), text)
    | none => some (Fin.ofNat _ code, text)
  else some (Fin.ofNat _ code, text)

/-- What follows a backslash. -/
def scanEscape : List Char → Option (CodePoint × List Char)
  | [] => none
  | ch :: rest =>
    if ch = 'u' then scanUnicode rest
    else (simpleEscape? ch).map fun decoded => (.ofChar decoded, rest)

/-- What follows the opening quote. -/
def scanString : ℕ → List Char → Option (PyStr × List Char)
  | 0, _ => none
  | _ + 1, [] => none
  | fuel + 1, ch :: rest =>
    if ch = '"' then some ([], rest)
    else if ch = '\\' then do
      let (decoded, rest) ← scanEscape rest
      let (chars, rest) ← scanString fuel rest
      some (decoded :: chars, rest)
    else if ch.toNat < 32 then none
    else do
      let (chars, rest) ← scanString fuel rest
      some (.ofChar ch :: chars, rest)

/-- The `JSONDecodeError` of what is not there. -/
def orDecode {α : Type} : Option α → Except LoadsError α
  | some a => .ok a
  | none => .error .decode

/-- The integer of its digits, with a sign before them. -/
def intOfText (text : List Char) : ℤ :=
  let magnitude := (digitsOf (text.dropWhile (· = '-'))).foldl
    (fun (n : ℕ) ch => 10 * n + (ch.toNat - 48)) 0
  if text.head? = some '-' then -(magnitude : ℤ) else magnitude

section Scan

variable {φ : Type} (limits : PyLimits) (parseFloat : List Char → φ)

/-- The constants, and what they stand for. -/
def constants : List (String × PyValue φ) :=
  [("null", .none), ("true", .bool true), ("false", .bool false),
    ("NaN", .float (parseFloat "nan".toList)), ("Infinity", .float (parseFloat "inf".toList)),
    ("-Infinity", .float (parseFloat "-inf".toList))]

def scanNumber (text : List Char) : Except LoadsError (PyValue φ × List Char) :=
  let number := numberOf text
  if number = [] then .error .decode
  else if number.any fun ch => ch ∈ ['.', 'e', 'E'] then
    .ok (.float (parseFloat number), text.drop number.length)
  else if limits.digits < (number.filter Char.isDigit).length then .error .digits
  else .ok (.int (intOfText number), text.drop number.length)

/-- A constant or a number. -/
def scanAtom (text : List Char) : Except LoadsError (PyValue φ × List Char) :=
  match (constants parseFloat).findSome? fun (token, value) =>
    (parseToken token text).map fun rest => (value, rest) with
  | some found => .ok found
  | none => scanNumber limits parseFloat text

mutual

/-- A value, where so many more arrays and objects may be open. -/
def scanValue : ℕ → ℕ → List Char → Except LoadsError (PyValue φ × List Char)
  | 0, _, _ => .error .decode
  | _ + 1, _, [] => .error .decode
  | fuel + 1, depth, ch :: rest =>
    if ch = '"' then do
      let (chars, rest) ← orDecode (scanString fuel rest)
      .ok (.str chars, rest)
    else if ch = '\x7b' then
      match depth with
      | 0 => .error .recursion
      | depth + 1 =>
        match expect '\x7d' (skipSpace rest) with
        | some rest => .ok (.dict [], rest)
        | none => do
          let (members, rest) ← scanMembers fuel depth (skipSpace rest)
          .ok (.dict members, rest)
    else if ch = '[' then
      match depth with
      | 0 => .error .recursion
      | depth + 1 =>
        match expect ']' (skipSpace rest) with
        | some rest => .ok (.list [], rest)
        | none => do
          let (items, rest) ← scanItems fuel depth (skipSpace rest)
          .ok (.list items, rest)
    else scanAtom limits parseFloat (ch :: rest)

/-- The items of an array that has some, and its end. -/
def scanItems : ℕ → ℕ → List Char → Except LoadsError (List (PyValue φ) × List Char)
  | 0, _, _ => .error .decode
  | fuel + 1, depth, text => do
    let (item, text) ← scanValue fuel depth text
    match expect ']' (skipSpace text) with
    | some rest => .ok ([item], rest)
    | none => do
      let text ← orDecode (expect ',' (skipSpace text))
      let (items, rest) ← scanItems fuel depth (skipSpace text)
      .ok (item :: items, rest)

/-- The members of an object that has some, and its end. -/
def scanMembers : ℕ → ℕ → List Char → Except LoadsError (List (PyStr × PyValue φ) × List Char)
  | 0, _, _ => .error .decode
  | fuel + 1, depth, text => do
    let text ← orDecode (expect '"' text)
    let (key, text) ← orDecode (scanString fuel text)
    let text ← orDecode (expect ':' (skipSpace text))
    let (value, text) ← scanValue fuel depth (skipSpace text)
    match expect '\x7d' (skipSpace text) with
    | some rest => .ok ([(key, value)], rest)
    | none => do
      let text ← orDecode (expect ',' (skipSpace text))
      let (members, rest) ← scanMembers fuel depth (skipSpace text)
      .ok ((key, value) :: members, rest)

end

/-- `json.loads`. An array takes two readers for each of its brackets. -/
def pyLoads (text : List Char) : Except LoadsError (PyValue φ) := do
  let (value, rest) ← scanValue limits parseFloat (2 * text.length + 1) limits.depth
    (skipSpace text)
  if skipSpace rest = [] then .ok value else .error .decode

/-! ## Within the limits -/

/-- A reader that has read something of a text of that length, or has raised an exception: a
`JSONDecodeError`, where the text is within the limits. -/
def Reads {α : Type} (within : Prop) (length : ℕ) : Except LoadsError (α × List Char) → Prop
  | .ok (_, rest) => rest.length < length
  | .error error => within → error = .decode

variable {limits parseFloat} {α β : Type} {within : Prop} {length : ℕ} {text : List Char}

theorem Reads.bind {r : Except LoadsError (α × List Char)}
    {f : α × List Char → Except LoadsError (β × List Char)} (h : Reads within length r)
    (hf : ∀ a rest, rest.length < length → Reads within length (f (a, rest))) :
    Reads within length (r >>= f) := by
  cases r with
  | error error => exact h
  | ok found => exact hf found.1 found.2 h

theorem Reads.mono {length' : ℕ} {r : Except LoadsError (α × List Char)}
    (h : Reads within length r) (hle : length ≤ length') : Reads within length' r := by
  cases r with
  | error error => exact h
  | ok found => exact Nat.lt_of_lt_of_le h hle

theorem Reads.orDecode {found : Option (α × List Char)}
    (h : ∀ a rest, found = some (a, rest) → rest.length < length) :
    Reads within length (orDecode found) := by
  cases found with
  | none => exact fun _ => rfl
  | some found => exact h found.1 found.2 rfl

theorem length_expect {ch : Char} {rest : List Char} (h : expect ch text = some rest) :
    rest.length < text.length := by
  rw [expect_eq_some h]
  exact Nat.lt_succ_self _

/-- A mark comes first. -/
theorem Reads.bind_expect {ch : Char} {f : List Char → Except LoadsError (α × List Char)}
    (hle : text.length ≤ length)
    (hf : ∀ rest, rest.length < length → Reads within length (f rest)) :
    Reads within length (Foundation.orDecode (expect ch text) >>= f) := by
  cases hexpect : expect ch text with
  | none => exact fun _ => rfl
  | some rest => exact hf rest (Nat.lt_of_lt_of_le (length_expect hexpect) hle)

theorem length_skipSpace (text : List Char) : (skipSpace text).length ≤ text.length :=
  (List.dropWhile_suffix _).length_le

theorem length_scanUnicode {c : CodePoint} {rest : List Char}
    (h : scanUnicode text = some (c, rest)) : rest.length ≤ text.length := by
  simp only [scanUnicode, Option.bind_eq_bind, Option.bind_eq_some_iff] at h
  obtain ⟨⟨code, text'⟩, hhex, h⟩ := h
  obtain ⟨token, rfl, -⟩ := parseHex_eq_some hhex
  simp only [List.length_append]
  dsimp only at h
  split at h
  · split at h
    · rename_i hlow
      obtain ⟨token', rfl, -⟩ := parseLowSurrogate_eq_some hlow
      obtain ⟨-, rfl⟩ := Prod.mk.inj (Option.some.inj h)
      simp only [List.length_append]
      omega
    · obtain ⟨-, rfl⟩ := Prod.mk.inj (Option.some.inj h)
      omega
  · obtain ⟨-, rfl⟩ := Prod.mk.inj (Option.some.inj h)
    omega

theorem length_scanEscape {c : CodePoint} {rest : List Char}
    (h : scanEscape text = some (c, rest)) : rest.length < text.length := by
  cases text with
  | nil => cases h
  | cons ch text =>
    simp only [scanEscape] at h
    split at h
    · exact Nat.lt_succ_of_le (length_scanUnicode h)
    · obtain ⟨decoded, -, h⟩ := Option.map_eq_some_iff.mp h
      cases h
      exact Nat.lt_succ_self _

theorem length_scanString {fuel : ℕ} {chars : PyStr} {rest : List Char}
    (h : scanString fuel text = some (chars, rest)) : rest.length < text.length := by
  induction fuel generalizing text chars with
  | zero => cases h
  | succ fuel ih =>
    cases text with
    | nil => cases h
    | cons ch text =>
      unfold scanString at h
      split at h
      · cases h
        exact Nat.lt_succ_self _
      split at h
      · simp only [Option.bind_eq_bind, Option.bind_eq_some_iff] at h
        obtain ⟨⟨decoded, text'⟩, hescape, ⟨chars', rest'⟩, hstring, h⟩ := h
        obtain ⟨-, rfl⟩ := Prod.mk.inj (Option.some.inj h)
        exact Nat.lt_succ_of_lt ((ih hstring).trans (length_scanEscape hescape))
      split at h
      · cases h
      · simp only [Option.bind_eq_bind, Option.bind_eq_some_iff] at h
        obtain ⟨⟨chars', rest'⟩, hstring, h⟩ := h
        cases h
        exact Nat.lt_succ_of_lt (ih hstring)

/-- No number has more digits than the text has characters. -/
theorem reads_scanNumber (hdigits : within → text.length ≤ limits.digits) :
    Reads within text.length (scanNumber limits parseFloat text) := by
  obtain ⟨⟨rest, hrest⟩, -⟩ := numericPrefix_numberOf text
  have hlength : (numberOf text).length + rest.length = text.length := by
    conv_rhs => rw [← hrest, List.length_append]
  simp only [scanNumber]
  split
  · exact fun _ => rfl
  rename_i hne
  have hpos : 0 < (numberOf text).length := List.length_pos_iff.mpr hne
  split
  · simp only [Reads, List.length_drop]
    omega
  split
  · rename_i hmany
    intro hwithin
    have hle := List.length_filter_le Char.isDigit (numberOf text)
    have hdigits := hdigits hwithin
    omega
  · simp only [Reads, List.length_drop]
    omega

theorem reads_scanAtom (hdigits : within → text.length ≤ limits.digits) :
    Reads within text.length (scanAtom limits parseFloat text) := by
  unfold scanAtom
  split
  · rename_i found hfound
    obtain ⟨⟨token, value⟩, hmem, hfound⟩ := List.exists_of_findSome?_eq_some hfound
    obtain ⟨rest, hrest, rfl⟩ := Option.map_eq_some_iff.mp hfound
    have htext := parseToken_eq_some hrest
    have htoken : token.toList ≠ [] := by
      simp only [constants, List.mem_cons, List.not_mem_nil, or_false, Prod.mk.injEq] at hmem
      rcases hmem with h | h | h | h | h | h <;> rw [h.1] <;> decide
    have hpos : 0 < token.toList.length := List.length_pos_iff.mpr htoken
    simp only [Reads]
    rw [htext, List.length_append]
    omega
  · exact reads_scanNumber hdigits

/-- The readers with so much fuel read something, and stay within the limits. -/
def WithinLimits (limits : PyLimits) (parseFloat : List Char → φ) (fuel : ℕ) : Prop :=
  ∀ depth text (within : Prop), (within → text.length ≤ depth ∧ text.length ≤ limits.digits) →
    Reads within text.length (scanValue limits parseFloat fuel depth text) ∧
    Reads within text.length (scanItems limits parseFloat fuel depth text) ∧
    Reads within text.length (scanMembers limits parseFloat fuel depth text)

variable {fuel depth : ℕ}

/-- Every array and object that is opened takes a character of the text. -/
theorem reads_scanValue (h : WithinLimits limits parseFloat fuel)
    (hwithin : within → text.length ≤ depth ∧ text.length ≤ limits.digits) :
    Reads within text.length (scanValue limits parseFloat (fuel + 1) depth text) := by
  cases text with
  | nil => exact fun _ => rfl
  | cons ch rest =>
    simp only [List.length_cons] at hwithin ⊢
    have hspace := length_skipSpace rest
    unfold scanValue
    split
    · exact (Reads.orDecode fun chars rest' h => Nat.lt_succ_of_lt (length_scanString h)).bind
        fun chars rest' h => h
    split
    · cases depth with
      | zero =>
        -- The text has a character, so it is not within a depth of none.
        intro hin
        have := hwithin hin
        omega
      | succ depth =>
        cases hclose : expect '}' (skipSpace rest) with
        | some rest' =>
          exact Nat.lt_succ_of_lt (Nat.lt_of_lt_of_le (length_expect hclose) hspace)
        | none =>
          have hin (h : within) : (skipSpace rest).length ≤ depth ∧
              (skipSpace rest).length ≤ limits.digits := by
            have := hwithin h
            omega
          exact ((h depth (skipSpace rest) within hin).2.2.mono (by omega)).bind
            fun members rest' h => h
    split
    · cases depth with
      | zero =>
        intro hin
        have := hwithin hin
        omega
      | succ depth =>
        cases hclose : expect ']' (skipSpace rest) with
        | some rest' =>
          exact Nat.lt_succ_of_lt (Nat.lt_of_lt_of_le (length_expect hclose) hspace)
        | none =>
          have hin (h : within) : (skipSpace rest).length ≤ depth ∧
              (skipSpace rest).length ≤ limits.digits := by
            have := hwithin h
            omega
          exact ((h depth (skipSpace rest) within hin).2.1.mono (by omega)).bind
            fun items rest' h => h
    · exact reads_scanAtom fun hin => (hwithin hin).2

theorem reads_scanItems (h : WithinLimits limits parseFloat fuel)
    (hwithin : within → text.length ≤ depth ∧ text.length ≤ limits.digits) :
    Reads within text.length (scanItems limits parseFloat (fuel + 1) depth text) := by
  have hafter {rest : List Char} (hrest : rest.length ≤ text.length) (hin : within) :
      rest.length ≤ depth ∧ rest.length ≤ limits.digits :=
    ⟨hrest.trans (hwithin hin).1, hrest.trans (hwithin hin).2⟩
  unfold scanItems
  refine (h depth text within hwithin).1.bind fun item rest hrest => ?_
  have hspace := length_skipSpace rest
  dsimp only
  cases hclose : expect ']' (skipSpace rest) with
  | some rest' =>
    have hlt := length_expect hclose
    show rest'.length < text.length
    omega
  | none =>
    refine Reads.bind_expect (by omega) fun rest' hrest' => ?_
    have hspace' := length_skipSpace rest'
    exact ((h depth (skipSpace rest') within (hafter (by omega))).2.1.mono (by omega)).bind
      fun items rest'' h => h

theorem reads_scanMembers (h : WithinLimits limits parseFloat fuel)
    (hwithin : within → text.length ≤ depth ∧ text.length ≤ limits.digits) :
    Reads within text.length (scanMembers limits parseFloat (fuel + 1) depth text) := by
  have hafter {rest : List Char} (hrest : rest.length ≤ text.length) (hin : within) :
      rest.length ≤ depth ∧ rest.length ≤ limits.digits :=
    ⟨hrest.trans (hwithin hin).1, hrest.trans (hwithin hin).2⟩
  unfold scanMembers
  -- The name of the member, the colon and its value.
  refine Reads.bind_expect (Nat.le_refl _) fun rest₁ h₁ => ?_
  refine Reads.bind (Reads.orDecode fun key rest h => (length_scanString h).trans h₁)
    fun key rest₂ h₂ => ?_
  have hspace₂ := length_skipSpace rest₂
  refine Reads.bind_expect (by omega) fun rest₃ h₃ => ?_
  have hspace₃ := length_skipSpace rest₃
  refine ((h depth (skipSpace rest₃) within (hafter (by omega))).1.mono (by omega)).bind
    fun value rest₄ h₄ => ?_
  have hspace₄ := length_skipSpace rest₄
  dsimp only
  -- The end of the object, or the members after a comma.
  cases hclose : expect '}' (skipSpace rest₄) with
  | some rest' =>
    have hlt := length_expect hclose
    show rest'.length < text.length
    omega
  | none =>
    refine Reads.bind_expect (by omega) fun rest₅ h₅ => ?_
    have hspace₅ := length_skipSpace rest₅
    exact ((h depth (skipSpace rest₅) within (hafter (by omega))).2.2.mono (by omega)).bind
      fun members rest' h => h

theorem withinLimits (limits : PyLimits) (parseFloat : List Char → φ) (fuel : ℕ) :
    WithinLimits limits parseFloat fuel := by
  induction fuel with
  | zero => exact fun depth text within _ => ⟨fun _ => rfl, fun _ => rfl, fun _ => rfl⟩
  | succ fuel ih =>
    exact fun depth text within hwithin =>
      ⟨reads_scanValue ih hwithin, reads_scanItems ih hwithin, reads_scanMembers ih hwithin⟩

/-- **A text within the limits** raises a `JSONDecodeError` at most. -/
theorem pyLoads_of_length_le {error : LoadsError} (hdepth : text.length ≤ limits.depth)
    (hdigits : text.length ≤ limits.digits) (h : pyLoads limits parseFloat text = .error error) :
    error = .decode := by
  have hspace := length_skipSpace text
  have hreads := (withinLimits limits parseFloat (2 * text.length + 1) limits.depth
    (skipSpace text) True fun _ => by omega).1
  unfold pyLoads at h
  cases hscan : scanValue limits parseFloat (2 * text.length + 1) limits.depth
    (skipSpace text) with
  | error error' =>
    rw [hscan] at h hreads
    obtain rfl : error' = error := Except.error.inj h
    exact hreads trivial
  | ok found =>
    rw [hscan] at h
    change (if _ then _ else _) = _ at h
    split at h
    · cases h
    · simpa using h.symm

/-! ## Enough fuel -/

/-- The rest of a value is shorter than its text. -/
theorem length_scanValue {fuel depth : ℕ} {value : PyValue φ} {rest : List Char}
    (h : scanValue limits parseFloat fuel depth text = .ok (value, rest)) :
    rest.length < text.length := by
  have hreads := (withinLimits limits parseFloat fuel depth text False nofun).1
  rw [h] at hreads
  exact hreads

theorem scanString_succ {fuel : ℕ} (h : text.length < fuel) :
    scanString (fuel + 1) text = scanString fuel text := by
  induction fuel generalizing text with
  | zero => omega
  | succ fuel ih =>
    cases text with
    | nil => rfl
    | cons ch rest =>
      simp only [List.length_cons] at h
      have hescape (decoded : CodePoint) (rest' : List Char)
          (hscan : scanEscape rest = some (decoded, rest')) :
          scanString (fuel + 1) rest' = scanString fuel rest' :=
        ih (by have := length_scanEscape hscan; omega)
      rw [scanString, scanString, ih (by omega)]
      cases hscan : scanEscape rest with
      | none => rfl
      | some found =>
        obtain ⟨decoded, rest'⟩ := found
        simp only [Option.bind_eq_bind, Option.bind_some, hescape decoded rest' hscan]

/-- What is done with a value, where that is the same for every value there is. -/
theorem bind_congr_of_ok {ε α β : Type} {r : Except ε α} {f g : α → Except ε β}
    (h : ∀ a, r = .ok a → f a = g a) : (r >>= f) = r >>= g := by
  cases r with
  | error error => rfl
  | ok a => exact h a rfl

/-- One more unit of fuel changes nothing: a value of a text takes two for each of its characters
and one more. -/
def EnoughFuel (limits : PyLimits) (parseFloat : List Char → φ) (fuel : ℕ) : Prop :=
  ∀ depth text,
    (2 * text.length < fuel → scanValue limits parseFloat (fuel + 1) depth text =
      scanValue limits parseFloat fuel depth text) ∧
    (2 * text.length + 1 < fuel → scanItems limits parseFloat (fuel + 1) depth text =
      scanItems limits parseFloat fuel depth text) ∧
    (2 * text.length + 1 < fuel → scanMembers limits parseFloat (fuel + 1) depth text =
      scanMembers limits parseFloat fuel depth text)

theorem orDecode_eq_ok {α : Type} {found : Option α} {a : α} (h : orDecode found = .ok a) :
    found = some a := by
  cases found with
  | none => cases h
  | some b => exact congrArg some (Except.ok.inj h)

theorem enoughFuel (limits : PyLimits) (parseFloat : List Char → φ) (fuel : ℕ) :
    EnoughFuel limits parseFloat fuel := by
  induction fuel with
  | zero => exact fun depth text => ⟨by omega, by omega, by omega⟩
  | succ fuel ih =>
    intro depth text
    refine ⟨fun h => ?_, fun h => ?_, fun h => ?_⟩
    · cases text with
      | nil => rfl
      | cons ch rest =>
        simp only [List.length_cons] at h
        have hspace := length_skipSpace rest
        have hitems (depth : ℕ) := (ih depth (skipSpace rest)).2.1 (by omega)
        have hmembers (depth : ℕ) := (ih depth (skipSpace rest)).2.2 (by omega)
        unfold scanValue
        rw [scanString_succ (by omega)]
        simp only [hitems, hmembers]
    · rw [scanItems, scanItems, (ih depth text).1 (by omega)]
      refine bind_congr_of_ok fun ⟨item, rest⟩ hvalue => ?_
      have hrest := length_scanValue hvalue
      have hspace := length_skipSpace rest
      dsimp only
      cases expect ']' (skipSpace rest) with
      | some rest' => rfl
      | none =>
        refine bind_congr_of_ok fun rest' hcomma => ?_
        have hrest' := length_expect (orDecode_eq_ok hcomma)
        have hspace' := length_skipSpace rest'
        rw [(ih depth (skipSpace rest')).2.1 (by omega)]
    · rw [scanMembers, scanMembers]
      refine bind_congr_of_ok fun rest₁ h₁ => ?_
      have h₁ := length_expect (orDecode_eq_ok h₁)
      rw [scanString_succ (by omega)]
      refine bind_congr_of_ok fun ⟨key, rest₂⟩ h₂ => ?_
      have h₂ := length_scanString (orDecode_eq_ok h₂)
      have hspace₂ := length_skipSpace rest₂
      refine bind_congr_of_ok fun rest₃ h₃ => ?_
      have h₃ := length_expect (orDecode_eq_ok h₃)
      have hspace₃ := length_skipSpace rest₃
      dsimp only
      rw [(ih depth (skipSpace rest₃)).1 (by omega)]
      refine bind_congr_of_ok fun ⟨value, rest₄⟩ h₄ => ?_
      have h₄ := length_scanValue h₄
      have hspace₄ := length_skipSpace rest₄
      dsimp only
      cases expect '\x7d' (skipSpace rest₄) with
      | some rest' => rfl
      | none =>
        refine bind_congr_of_ok fun rest₅ h₅ => ?_
        have h₅ := length_expect (orDecode_eq_ok h₅)
        have hspace₅ := length_skipSpace rest₅
        rw [(ih depth (skipSpace rest₅)).2.2 (by omega)]

/-- **The fuel is enough**: with more of it `json.loads` is the same. -/
theorem pyLoads_eq {fuel : ℕ} (h : 2 * text.length < fuel) :
    pyLoads limits parseFloat text = (do
      let (value, rest) ← scanValue limits parseFloat fuel limits.depth (skipSpace text)
      if skipSpace rest = [] then .ok value else .error .decode) := by
  have hspace := length_skipSpace text
  have hsame : scanValue limits parseFloat fuel limits.depth (skipSpace text) =
      scanValue limits parseFloat (2 * text.length + 1) limits.depth (skipSpace text) := by
    induction fuel, h using Nat.le_induction with
    | base => rfl
    | succ fuel hle ih => rw [((enoughFuel limits parseFloat fuel) _ _).1 (by omega), ih]
  rw [hsame]
  rfl

end Scan

end Foundation
