import Portex.Foundation.PythonJson
import Portex.Foundation.SortKey
import Mathlib.Data.Char
import Mathlib.Data.List.Lex
import Mathlib.Data.List.Nodup

/-!
# JSON in ASCII

A writer of objects of strings in one line, whose characters outside ASCII are escaped, and the
proof that the reader gives back what it has written.

## Main definitions

* `asciiEscape`: a string as it is escaped
* `asciiObject`: the text of an object of strings

## Main results

* `loads_asciiObject`: an object that was written is read back, in the order of its names
* `pyLoads_asciiObject`: `json.loads` raises no exception of it
* `Json.get?_members`: what the members of an object are, where no name occurs twice
-/

namespace Foundation

/-! ## Writing -/

/-- Four hexadecimal digits. -/
def hexDigits (n : ℕ) : List Char :=
  [hexDigit (n / 4096 % 16), hexDigit (n / 256 % 16), hexDigit (n / 16 % 16), hexDigit (n % 16)]

/-- A character within a string; one that is not of the first plane is a surrogate pair. -/
def asciiEscapeChar (ch : Char) : List Char :=
  if ch.toNat < 127 then escapeChar ch
  else if ch.toNat < 0x10000 then '\\' :: 'u' :: hexDigits ch.toNat
  else
    '\\' :: 'u' :: hexDigits (0xD800 + (ch.toNat - 0x10000) / 0x400) ++
      '\\' :: 'u' :: hexDigits (0xDC00 + (ch.toNat - 0x10000) % 0x400)

def asciiEscape (chars : List Char) : List Char := chars.flatMap asciiEscapeChar

def asciiQuoted (chars : List Char) : List Char := '"' :: asciiEscape chars ++ ['"']

/-- The members of an object, the first of which follows an opening brace. -/
def asciiMembers : List (List Char × List Char) → List Char
  | [] => []
  | [(name, value)] => asciiQuoted name ++ ':' :: ' ' :: asciiQuoted value
  | (name, value) :: members =>
    asciiQuoted name ++ ':' :: ' ' :: asciiQuoted value ++ ',' :: ' ' :: asciiMembers members

/-- `json.dumps(value, sort_keys=True)`, of a dict whose values are strings. -/
def asciiObject (members : List (List Char × List Char)) : List Char :=
  '\x7b' :: asciiMembers (sortedBy Prod.fst members) ++ ['\x7d']

/-- The members as they are read. -/
def stringMembers (members : List (List Char × List Char)) : List (List Char × Json) :=
  members.map fun member => (member.1, .str member.2)

/-! ## Characters -/

/-- No character is half of a surrogate pair. -/
theorem toNat_valid (ch : Char) :
    ch.toNat < 0xD800 ∨ 0xDFFF < ch.toNat ∧ ch.toNat < 0x110000 :=
  ch.valid

theorem parseHex_hexDigits {n : ℕ} (h : n < 0x10000) (text : List Char) :
    parseHex (hexDigits n ++ text) = some (n, text) := by
  have hdigit (m : ℕ) : hexValue? (hexDigit (m % 16)) = some (m % 16) :=
    hexValue?_hexDigit (Nat.mod_lt _ (by decide))
  have hvalue : ((n / 4096 % 16 * 16 + n / 256 % 16) * 16 + n / 16 % 16) * 16 + n % 16 = n := by
    omega
  simp only [hexDigits, List.cons_append, List.nil_append, parseHex, hdigit, Option.bind_eq_bind,
    Option.bind_some, hvalue]

/-- A character of the first plane is no half of a pair. -/
theorem parseUnicode_hexDigits {ch : Char} (h : ch.toNat < 0x10000) (text : List Char) :
    parseUnicode (hexDigits ch.toNat ++ text) = some (ch, text) := by
  have hvalid := toNat_valid ch
  have hhigh : ¬ (0xD800 ≤ ch.toNat ∧ ch.toNat < 0xDC00) := by omega
  have hlow : ¬ (0xDC00 ≤ ch.toNat ∧ ch.toNat < 0xE000) := by omega
  simp only [parseUnicode, parseHex_hexDigits h, Option.bind_eq_bind, Option.bind_some,
    if_neg hhigh, if_neg hlow, Char.ofNat_toNat]

/-- The second half of a pair is read after the first. -/
theorem parseUnicode_pair {high low : ℕ} (hhigh : 0xD800 ≤ high ∧ high < 0xDC00)
    (hlow : 0xDC00 ≤ low ∧ low < 0xE000) (text : List Char) :
    parseUnicode (hexDigits high ++ '\\' :: 'u' :: hexDigits low ++ text) =
      some (Char.ofNat (0x10000 + (high - 0xD800) * 0x400 + (low - 0xDC00)), text) := by
  have hpair : parseLowSurrogate ('\\' :: 'u' :: (hexDigits low ++ text)) = some (low, text) := by
    simp only [parseLowSurrogate, expect, if_true, Option.bind_eq_bind, Option.bind_some,
      parseHex_hexDigits (show low < 0x10000 by omega), if_pos hlow]
  rw [List.append_assoc]
  simp only [parseUnicode, parseHex_hexDigits (show high < 0x10000 by omega),
    Option.bind_eq_bind, Option.bind_some, if_pos hhigh, List.cons_append, hpair]

/-- The code of the character that a pair stands for. -/
theorem pair_eq {n : ℕ} (h : 0x10000 ≤ n) :
    0x10000 + (0xD800 + (n - 0x10000) / 0x400 - 0xD800) * 0x400 +
      (0xDC00 + (n - 0x10000) % 0x400 - 0xDC00) = n := by
  omega

theorem asciiEscapeChar_cases (ch : Char) :
    (asciiEscapeChar ch = [ch] ∧ Bare ch ∧ ¬ ch.toNat < 32) ∨
      ∃ token, asciiEscapeChar ch = '\\' :: token ∧
        ∀ text, parseEscape (token ++ text) = some (ch, text) := by
  unfold asciiEscapeChar
  split
  · exact escapeChar_cases ch
  · split
    · rename_i h
      exact .inr ⟨_, rfl, parseUnicode_hexDigits h⟩
    · rename_i h
      have hvalid := toNat_valid ch
      refine .inr ⟨_, rfl, fun text => ?_⟩
      have hhigh : 0xD800 ≤ 0xD800 + (ch.toNat - 0x10000) / 0x400 ∧
          0xD800 + (ch.toNat - 0x10000) / 0x400 < 0xDC00 := by omega
      have hlow : 0xDC00 ≤ 0xDC00 + (ch.toNat - 0x10000) % 0x400 ∧
          0xDC00 + (ch.toNat - 0x10000) % 0x400 < 0xE000 := by omega
      have hparse := parseUnicode_pair hhigh hlow text
      rw [pair_eq (Nat.not_lt.mp h), Char.ofNat_toNat] at hparse
      exact hparse

theorem parseString_asciiEscapeChar (ch : Char) (fuel : ℕ) (text : List Char) :
    parseString (fuel + 1) (asciiEscapeChar ch ++ text) =
      (parseString fuel text).map fun (chars, rest) => (ch :: chars, rest) := by
  rcases asciiEscapeChar_cases ch with ⟨hself, hplain, hcontrol⟩ | ⟨token, htoken, hparse⟩
  · rw [hself, List.singleton_append]
    simp only [parseString, if_neg hplain.1, if_neg hplain.2, if_neg hcontrol]
    cases parseString fuel text <;> rfl
  · have hquote : '\\' ≠ '"' := by decide
    rw [htoken, List.cons_append]
    simp only [parseString, if_neg hquote, if_true, hparse, Option.bind_eq_bind, Option.bind_some]
    cases parseString fuel text <;> rfl

theorem asciiEscapeChar_ne_nil (ch : Char) : asciiEscapeChar ch ≠ [] := by
  rcases asciiEscapeChar_cases ch with ⟨h, -⟩ | ⟨token, h, -⟩ <;> rw [h] <;>
    exact List.cons_ne_nil _ _

/-! ## Strings -/

theorem length_le_asciiEscape (chars : List Char) : chars.length ≤ (asciiEscape chars).length := by
  induction chars with
  | nil => exact Nat.zero_le _
  | cons ch chars ih =>
    have hch := List.length_pos_of_ne_nil (asciiEscapeChar_ne_nil ch)
    have hescape : asciiEscape (ch :: chars) = asciiEscapeChar ch ++ asciiEscape chars := rfl
    rw [hescape, List.length_append, List.length_cons]
    omega

/-- A string that was escaped is read back, up to its closing quote. -/
theorem parseString_asciiEscape (chars : List Char) {fuel : ℕ} (hfuel : chars.length < fuel)
    (text : List Char) :
    parseString fuel (asciiEscape chars ++ '"' :: text) = some (chars, text) := by
  induction chars generalizing fuel with
  | nil =>
    obtain ⟨fuel, rfl⟩ := Nat.exists_eq_add_of_lt hfuel
    simp [asciiEscape, parseString]
  | cons ch chars ih =>
    obtain ⟨fuel, rfl⟩ : ∃ n, fuel = n + 1 := ⟨fuel - 1, by omega⟩
    have hescape : asciiEscape (ch :: chars) = asciiEscapeChar ch ++ asciiEscape chars := rfl
    rw [hescape, List.append_assoc, parseString_asciiEscapeChar, ih (Nat.lt_of_succ_lt_succ hfuel)]
    rfl

theorem asciiQuoted_append (chars text : List Char) :
    asciiQuoted chars ++ text = '"' :: (asciiEscape chars ++ '"' :: text) := by
  simp [asciiQuoted]

theorem parseValue_asciiQuoted (chars : List Char) {fuel : ℕ} (hfuel : chars.length + 1 < fuel)
    (text : List Char) :
    parseValue fuel (asciiQuoted chars ++ text) = some (.str chars, text) := by
  obtain ⟨fuel, rfl⟩ : ∃ n, fuel = n + 1 := ⟨fuel - 1, by omega⟩
  rw [asciiQuoted_append]
  simp only [parseValue, if_true, parseString_asciiEscape chars (Nat.lt_of_succ_lt_succ hfuel)]
  rfl

/-! ## Objects -/

theorem expect_asciiQuoted (chars text : List Char) :
    expect '"' (asciiQuoted chars ++ text) = some (asciiEscape chars ++ '"' :: text) := by
  rw [asciiQuoted_append]
  simp [expect]

/-- A mark that is no blank is where it is expected. -/
theorem expect_skipSpace {ch : Char} (h : isJsonSpace ch = false) (text : List Char) :
    expect ch (skipSpace (ch :: text)) = some text := by
  rw [skipSpace_of_head h]
  simp [expect]

/-- An object goes on after a comma. -/
theorem expect_close_comma (text : List Char) :
    expect '\x7d' (skipSpace (',' :: text)) = none := by
  rw [skipSpace_of_head (by decide)]
  simp [expect]

/-- A string comes after the blank before it. -/
theorem skipSpace_asciiQuoted (chars text : List Char) :
    skipSpace (' ' :: (asciiQuoted chars ++ text)) = asciiQuoted chars ++ text := by
  have hhead : skipSpace (asciiQuoted chars ++ text) = asciiQuoted chars ++ text :=
    skipSpace_of_head (by decide) _
  exact hhead

theorem asciiMembers_singleton (name value text : List Char) :
    asciiMembers [(name, value)] ++ text =
      asciiQuoted name ++ ':' :: ' ' :: (asciiQuoted value ++ text) := by
  simp [asciiMembers]

theorem asciiMembers_cons {members : List (List Char × List Char)} (hne : members ≠ [])
    (name value text : List Char) :
    asciiMembers ((name, value) :: members) ++ text =
      asciiQuoted name ++ ':' :: ' ' ::
        (asciiQuoted value ++ ',' :: ' ' :: (asciiMembers members ++ text)) := by
  cases members with
  | nil => exact absurd rfl hne
  | cons next members => simp [asciiMembers]

/-- The next member comes after the blank before it. -/
theorem skipSpace_asciiMembers {members : List (List Char × List Char)} (hne : members ≠ [])
    (text : List Char) :
    skipSpace (' ' :: (asciiMembers members ++ text)) = asciiMembers members ++ text := by
  obtain ⟨⟨name, value⟩, members, rfl⟩ := List.exists_cons_of_ne_nil hne
  cases members with
  | nil => rw [asciiMembers_singleton, skipSpace_asciiQuoted]
  | cons next members =>
    rw [asciiMembers_cons (List.cons_ne_nil next members), skipSpace_asciiQuoted]

/-- What a member takes of the text. -/
theorem length_asciiMembers (name value : List Char) (members : List (List Char × List Char)) :
    name.length + value.length + 4 + (asciiMembers members).length ≤
      (asciiMembers ((name, value) :: members)).length := by
  have hname := length_le_asciiEscape name
  have hvalue := length_le_asciiEscape value
  cases members with
  | nil =>
    simp only [asciiMembers, asciiQuoted, List.length_append, List.length_cons, List.length_nil]
    omega
  | cons next members =>
    simp only [asciiMembers, asciiQuoted, List.length_append, List.length_cons, List.length_nil]
    omega

/-- A member of an object, up to what follows its value. -/
theorem parseMembers_ascii {name value : List Char} {fuel : ℕ} (hname : name.length < fuel)
    (hvalue : value.length + 1 < fuel) (text : List Char) :
    parseMembers (fuel + 1) (asciiQuoted name ++ ':' :: ' ' :: (asciiQuoted value ++ text)) =
      match expect '\x7d' (skipSpace text) with
      | some rest => some ([(name, .str value)], rest)
      | none => (expect ',' (skipSpace text)).bind fun text =>
        (parseMembers fuel (skipSpace text)).bind fun (members, rest) =>
          some ((name, .str value) :: members, rest) := by
  have hcolon : expect ':' (skipSpace (':' :: ' ' :: (asciiQuoted value ++ text))) =
      some (' ' :: (asciiQuoted value ++ text)) := expect_skipSpace (by decide) _
  cases hclose : expect '\x7d' (skipSpace text) <;>
    simp only [parseMembers, expect_asciiQuoted, parseString_asciiEscape name hname, hcolon,
      skipSpace_asciiQuoted, parseValue_asciiQuoted value hvalue, hclose, Option.bind_eq_bind,
      Option.bind_some]

theorem parseMembers_asciiMembers {members : List (List Char × List Char)} (hne : members ≠ [])
    (fuel : ℕ) (hfuel : (asciiMembers members).length ≤ fuel) :
    parseMembers fuel (asciiMembers members ++ ['\x7d']) = some (stringMembers members, []) := by
  induction members generalizing fuel with
  | nil => exact absurd rfl hne
  | cons member members ih =>
    obtain ⟨name, value⟩ := member
    have hlength := length_asciiMembers name value members
    obtain ⟨fuel, rfl⟩ : ∃ n, fuel = n + 1 := ⟨fuel - 1, by omega⟩
    by_cases hlast : members = []
    · subst hlast
      rw [asciiMembers_singleton, parseMembers_ascii (by omega) (by omega)]
      rfl
    · have hcomma : expect ',' (skipSpace (',' :: ' ' :: (asciiMembers members ++ ['\x7d']))) =
          some (' ' :: (asciiMembers members ++ ['\x7d'])) := expect_skipSpace (by decide) _
      rw [asciiMembers_cons hlast, parseMembers_ascii (by omega) (by omega)]
      simp only [expect_close_comma, hcomma, Option.bind_some, skipSpace_asciiMembers hlast,
        ih hlast fuel (by omega)]
      rfl

theorem sortedBy_ne_nil {members : List (List Char × List Char)} (hne : members ≠ []) :
    sortedBy Prod.fst members ≠ [] := by
  intro hnil
  have hperm := sortedBy_perm Prod.fst members
  rw [hnil] at hperm
  exact hne hperm.nil_eq.symm

/-- The first member starts with its quote. -/
theorem asciiMembers_eq_cons {members : List (List Char × List Char)} (hne : members ≠ []) :
    ∃ tail, asciiMembers members = '"' :: tail := by
  obtain ⟨⟨name, value⟩, members, rfl⟩ := List.exists_cons_of_ne_nil hne
  cases members with
  | nil => exact ⟨_, rfl⟩
  | cons next members => exact ⟨_, rfl⟩

/-- **An object that was written is read back**, in the order of its names. -/
theorem loads_asciiObject {members : List (List Char × List Char)} (hne : members ≠ []) :
    loads (asciiObject members) = some (.object (stringMembers (sortedBy Prod.fst members))) := by
  have hsorted := sortedBy_ne_nil hne
  obtain ⟨tail, htail⟩ := asciiMembers_eq_cons hsorted
  apply loads_object
  · rw [htail]
    exact skipSpace_of_head (by decide) _
  · rw [htail]
    simp [expect]
  · apply parseMembers_asciiMembers hsorted
    show _ ≤ (asciiMembers (sortedBy Prod.fst members) ++ ['\x7d']).length + 1
    rw [List.length_append]
    omega

/-! ## No exception -/

theorem scanUnicode_of_parseUnicode {text rest : List Char} {ch : Char}
    (h : parseUnicode text = some (ch, rest)) : ∃ c, scanUnicode text = some (c, rest) := by
  unfold parseUnicode at h
  unfold scanUnicode
  cases hhex : parseHex text with
  | none =>
    rw [hhex] at h
    cases h
  | some found =>
    obtain ⟨code, text'⟩ := found
    simp only [hhex, Option.bind_eq_bind, Option.bind_some] at h ⊢
    split at h
    · rename_i hhigh
      rw [if_pos hhigh]
      cases hlow : parseLowSurrogate text' with
      | none =>
        simp only [hlow] at h ⊢
        obtain ⟨-, rfl⟩ := Prod.mk.inj (Option.some.inj h)
        exact ⟨_, rfl⟩
      | some found =>
        simp only [hlow] at h ⊢
        obtain ⟨-, rfl⟩ := Prod.mk.inj (Option.some.inj h)
        exact ⟨_, rfl⟩
    · rename_i hhigh
      rw [if_neg hhigh]
      split at h <;> obtain ⟨-, rfl⟩ := Prod.mk.inj (Option.some.inj h) <;> exact ⟨_, rfl⟩

theorem scanEscape_of_parseEscape {text rest : List Char} {ch : Char}
    (h : parseEscape text = some (ch, rest)) : ∃ c, scanEscape text = some (c, rest) := by
  cases text with
  | nil => cases h
  | cons mark text =>
    simp only [parseEscape] at h
    simp only [scanEscape]
    split at h
    · rename_i hmark
      rw [if_pos hmark]
      exact scanUnicode_of_parseUnicode h
    · rename_i hmark
      obtain ⟨decoded, hsimple, hfound⟩ := Option.map_eq_some_iff.mp h
      cases hfound
      rw [if_neg hmark, hsimple]
      exact ⟨_, rfl⟩

/-- A string ends where it ends for the other reader. -/
theorem scanString_of_parseString {fuel : ℕ} {text chars rest : List Char}
    (h : parseString fuel text = some (chars, rest)) :
    ∃ found, scanString fuel text = some (found, rest) := by
  induction fuel generalizing text chars with
  | zero => cases h
  | succ fuel ih =>
    cases text with
    | nil => cases h
    | cons ch text =>
      unfold parseString at h
      unfold scanString
      split at h
      · rename_i hquote
        cases h
        exact ⟨[], if_pos hquote⟩
      rename_i hquote
      rw [if_neg hquote]
      split at h
      · rename_i hescape
        simp only [Option.bind_eq_bind, Option.bind_eq_some_iff] at h
        obtain ⟨⟨decoded, text'⟩, hparse, ⟨chars', rest'⟩, hstring, h⟩ := h
        obtain ⟨-, rfl⟩ := Prod.mk.inj (Option.some.inj h)
        obtain ⟨c, hscan⟩ := scanEscape_of_parseEscape hparse
        obtain ⟨found, hfound⟩ := ih hstring
        refine ⟨c :: found, ?_⟩
        simp only [if_pos hescape, hscan, hfound, Option.bind_eq_bind, Option.bind_some]
      rename_i hescape
      rw [if_neg hescape]
      split at h
      · cases h
      rename_i hcontrol
      simp only [Option.bind_eq_bind, Option.bind_eq_some_iff] at h
      obtain ⟨⟨chars', rest'⟩, hstring, h⟩ := h
      obtain ⟨-, rfl⟩ := Prod.mk.inj (Option.some.inj h)
      obtain ⟨found, hfound⟩ := ih hstring
      refine ⟨.ofChar ch :: found, ?_⟩
      simp only [if_neg hcontrol, hfound, Option.bind_eq_bind, Option.bind_some]

section NoException

variable {φ : Type} (limits : PyLimits) (parseFloat : List Char → φ)

theorem ok_bind {ε α β : Type} (a : α) (f : α → Except ε β) : (.ok a >>= f) = f a := rfl

theorem orDecode_some {α : Type} (a : α) : orDecode (some a) = .ok a := rfl

theorem scanString_asciiEscape (chars : List Char) {fuel : ℕ} (hfuel : chars.length < fuel)
    (text : List Char) :
    ∃ found, scanString fuel (asciiEscape chars ++ '"' :: text) = some (found, text) :=
  scanString_of_parseString (parseString_asciiEscape chars hfuel text)

/-- A member of an object, up to what follows its value. -/
theorem scanMembers_ascii {name value : List Char} {fuel : ℕ} (hname : name.length < fuel)
    (hvalue : value.length + 1 < fuel) (depth : ℕ) (text : List Char) :
    ∃ key found, scanMembers limits parseFloat (fuel + 1) depth
        (asciiQuoted name ++ ':' :: ' ' :: (asciiQuoted value ++ text)) =
      (match expect '\x7d' (skipSpace text) with
      | some rest => .ok ([(key, found)], rest)
      | none => do
        let text ← orDecode (expect ',' (skipSpace text))
        let (members, rest) ← scanMembers limits parseFloat fuel depth (skipSpace text)
        .ok ((key, found) :: members, rest)) := by
  obtain ⟨fuel, rfl⟩ : ∃ n, fuel = n + 1 := ⟨fuel - 1, by omega⟩
  obtain ⟨key, hkey⟩ := scanString_asciiEscape name hname
    (':' :: ' ' :: (asciiQuoted value ++ text))
  obtain ⟨chars, hchars⟩ := scanString_asciiEscape value (Nat.lt_of_succ_lt_succ hvalue) text
  have hcolon : expect ':' (skipSpace (':' :: ' ' :: (asciiQuoted value ++ text))) =
      some (' ' :: (asciiQuoted value ++ text)) := expect_skipSpace (by decide) _
  have hscan : scanValue limits parseFloat (fuel + 1) depth (asciiQuoted value ++ text) =
      .ok (.str chars, text) := by
    rw [asciiQuoted_append]
    simp only [scanValue, if_true, hchars, orDecode_some, ok_bind]
  refine ⟨key, .str chars, ?_⟩
  cases hclose : expect '\x7d' (skipSpace text) <;>
    simp only [scanMembers, expect_asciiQuoted, hkey, hcolon, skipSpace_asciiQuoted, hscan, hclose,
      orDecode_some, ok_bind]

theorem scanMembers_asciiMembers {members : List (List Char × List Char)} (hne : members ≠ [])
    (depth fuel : ℕ) (hfuel : (asciiMembers members).length ≤ fuel) :
    ∃ found, scanMembers limits parseFloat fuel depth (asciiMembers members ++ ['\x7d']) =
      .ok (found, []) := by
  induction members generalizing fuel with
  | nil => exact absurd rfl hne
  | cons member members ih =>
    obtain ⟨name, value⟩ := member
    have hlength := length_asciiMembers name value members
    obtain ⟨fuel, rfl⟩ : ∃ n, fuel = n + 1 := ⟨fuel - 1, by omega⟩
    by_cases hlast : members = []
    · subst hlast
      obtain ⟨key, found, hscan⟩ := scanMembers_ascii limits parseFloat
        (show name.length < fuel by omega) (show value.length + 1 < fuel by omega) depth ['\x7d']
      rw [asciiMembers_singleton, hscan]
      exact ⟨_, rfl⟩
    · obtain ⟨later, hlater⟩ := ih hlast fuel (by omega)
      obtain ⟨key, found, hscan⟩ := scanMembers_ascii limits parseFloat
        (show name.length < fuel by omega) (show value.length + 1 < fuel by omega) depth
        (',' :: ' ' :: (asciiMembers members ++ ['\x7d']))
      have hcomma : expect ',' (skipSpace (',' :: ' ' :: (asciiMembers members ++ ['\x7d']))) =
          some (' ' :: (asciiMembers members ++ ['\x7d'])) := expect_skipSpace (by decide) _
      rw [asciiMembers_cons hlast, hscan, expect_close_comma, hcomma]
      show ∃ found, (scanMembers limits parseFloat fuel depth (skipSpace (' ' :: _)) >>= _) =
        Except.ok (found, [])
      rw [skipSpace_asciiMembers hlast, hlater]
      exact ⟨_, rfl⟩

/-- **`json.loads` raises no exception** of an object that was written. -/
theorem pyLoads_asciiObject {members : List (List Char × List Char)} (hne : members ≠ [])
    (hdepth : 0 < limits.depth) :
    ∃ value, pyLoads limits parseFloat (asciiObject members) = .ok value := by
  have hsorted := sortedBy_ne_nil hne
  obtain ⟨depth, hdepth⟩ : ∃ n, limits.depth = n + 1 := ⟨limits.depth - 1, by omega⟩
  obtain ⟨tail, htail⟩ := asciiMembers_eq_cons hsorted
  have hspace : skipSpace (asciiMembers (sortedBy Prod.fst members) ++ ['\x7d']) =
      asciiMembers (sortedBy Prod.fst members) ++ ['\x7d'] := by
    rw [htail]
    exact skipSpace_of_head (by decide) _
  have hopen : expect '\x7d' (asciiMembers (sortedBy Prod.fst members) ++ ['\x7d']) = none := by
    rw [htail]
    simp [expect]
  obtain ⟨found, hscan⟩ := scanMembers_asciiMembers limits parseFloat hsorted depth
    (2 * (asciiObject members).length) (by
      simp only [asciiObject, List.length_append, List.length_cons]
      omega)
  refine ⟨.dict found, ?_⟩
  have hvalue : scanValue limits parseFloat (2 * (asciiObject members).length + 1) limits.depth
      (skipSpace (asciiObject members)) = .ok (.dict found, []) := by
    have hbrace : skipSpace (asciiObject members) =
        '\x7b' :: (asciiMembers (sortedBy Prod.fst members) ++ ['\x7d']) :=
      skipSpace_of_head (by decide) _
    rw [hbrace, hdepth, scanValue, if_neg (by decide), if_pos rfl]
    simp only [hspace, hopen, hscan]
    rfl
  rw [pyLoads, hvalue]
  rfl

end NoException

/-! ## Members -/

theorem Json.get?_eq_none_iff {name : List Char} {members : List (List Char × Json)} :
    Json.get? name members = none ↔ name ∉ members.map Prod.fst := by
  induction members with
  | nil => simp [Json.get?]
  | cons member members ih =>
    obtain ⟨key, value⟩ := member
    rw [List.map_cons, List.mem_cons, not_or, ← ih, Json.get?]
    cases Json.get? name members with
    | none => simp [eq_comm]
    | some found => simp

/-- Where no name occurs twice, the members are what their names stand for. -/
theorem Json.get?_members {name : List Char} {value : Json} {members : List (List Char × Json)}
    (hnodup : (members.map Prod.fst).Nodup) :
    Json.get? name members = some value ↔ (name, value) ∈ members := by
  induction members with
  | nil => simp [Json.get?]
  | cons member members ih =>
    obtain ⟨key, found⟩ := member
    rw [List.map_cons, List.nodup_cons] at hnodup
    rw [List.mem_cons, Prod.mk.injEq, ← ih hnodup.2, Json.get?]
    cases hget : Json.get? name members with
    | none => simp [eq_comm]
    | some other =>
      have hkey : name ≠ key := by
        rintro rfl
        have hnone := Json.get?_eq_none_iff.mpr hnodup.1
        rw [hget] at hnone
        cases hnone
      simp [hkey]

end Foundation
