import Mathlib.Data.List.Infix
import Mathlib.Data.List.TakeWhile
import Mathlib.Tactic.Common
import Portex.Foundation.Text

/-!
# JSON

A reader of JSON texts, with the compact form of a string as writers produce it. The reader takes
what a strict decoder takes; a lone surrogate, which no character is, is read as U+FFFD, and a
number is left as it is written.

## Main definitions

* `Json`: what a text stands for
* `quoted`: a string as it is written
* `loads`: the value of a text
* `Lexed`, `lex`: where a text is within its strings

## Main results

* `parseValue_quoted`: a string that was written is read back
* `loads_lex`: a text that is read is outside its strings at the end
* `members_of_no_quote`: an object without members in a text without quotes
-/

namespace Foundation

inductive Json
  | null
  | bool (value : Bool)
  | number (digits : List Char)
  | str (chars : List Char)
  | array (items : List Json)
  | object (members : List (List Char × Json))

/-- The value of the last member of that name. -/
def Json.get? (name : List Char) : List (List Char × Json) → Option Json
  | [] => none
  | (key, value) :: members =>
    match Json.get? name members with
    | some value => some value
    | none => if key = name then some value else none

/-! ## Writing -/

def hexDigit (n : ℕ) : Char :=
  if n < 10 then Char.ofNat (48 + n) else Char.ofNat (87 + n)

/-- A character within a string. -/
def escapeChar (ch : Char) : List Char :=
  if ch = '"' then ['\\', '"']
  else if ch = '\\' then ['\\', '\\']
  else if ch = '\n' then ['\\', 'n']
  else if ch = '\r' then ['\\', 'r']
  else if ch = '\t' then ['\\', 't']
  else if ch.toNat = 8 then ['\\', 'b']
  else if ch.toNat = 12 then ['\\', 'f']
  else if ch.toNat < 32 then
    ['\\', 'u', '0', '0', hexDigit (ch.toNat / 16), hexDigit (ch.toNat % 16)]
  else [ch]

def escape (chars : List Char) : List Char := chars.flatMap escapeChar

def quoted (chars : List Char) : List Char := '"' :: escape chars ++ ['"']

/-! ## Reading -/

def isJsonSpace (ch : Char) : Bool := ch = ' ' || ch = '\n' || ch = '\r' || ch = '\t'

def skipSpace (text : List Char) : List Char := text.dropWhile isJsonSpace

def expect (ch : Char) : List Char → Option (List Char)
  | [] => none
  | c :: rest => if c = ch then some rest else none

def hexValue? (ch : Char) : Option ℕ :=
  if ch.isDigit then some (ch.toNat - 48)
  else if 'a' ≤ ch ∧ ch ≤ 'f' then some (ch.toNat - 87)
  else if 'A' ≤ ch ∧ ch ≤ 'F' then some (ch.toNat - 55)
  else none

def parseHex (text : List Char) : Option (ℕ × List Char) :=
  match text with
  | a :: b :: c :: d :: rest => do
    let a ← hexValue? a
    let b ← hexValue? b
    let c ← hexValue? c
    let d ← hexValue? d
    some (((a * 16 + b) * 16 + c) * 16 + d, rest)
  | _ => none

/-- The second half of a surrogate pair. -/
def parseLowSurrogate (text : List Char) : Option (ℕ × List Char) := do
  let text ← expect '\\' text
  let text ← expect 'u' text
  let (code, text) ← parseHex text
  if 0xDC00 ≤ code ∧ code < 0xE000 then some (code, text) else none

/-- What follows `\u`. -/
def parseUnicode (text : List Char) : Option (Char × List Char) := do
  let (code, text) ← parseHex text
  if 0xD800 ≤ code ∧ code < 0xDC00 then
    match parseLowSurrogate text with
    | some (low, text) =>
      some (Char.ofNat (0x10000 + (code - 0xD800) * 0x400 + (low - 0xDC00)), text)
    | none => some (Char.ofNat 0xFFFD, text)
  else if 0xDC00 ≤ code ∧ code < 0xE000 then some (Char.ofNat 0xFFFD, text)
  else some (Char.ofNat code, text)

def simpleEscape? (ch : Char) : Option Char :=
  if ch = '"' ∨ ch = '\\' ∨ ch = '/' then some ch
  else if ch = 'n' then some '\n'
  else if ch = 'r' then some '\r'
  else if ch = 't' then some '\t'
  else if ch = 'b' then some (Char.ofNat 8)
  else if ch = 'f' then some (Char.ofNat 12)
  else none

/-- What follows a backslash. -/
def parseEscape : List Char → Option (Char × List Char)
  | [] => none
  | ch :: rest =>
    if ch = 'u' then parseUnicode rest else (simpleEscape? ch).map fun decoded => (decoded, rest)

/-- What follows the opening quote. -/
def parseString : ℕ → List Char → Option (List Char × List Char)
  | 0, _ => none
  | _ + 1, [] => none
  | fuel + 1, ch :: rest =>
    if ch = '"' then some ([], rest)
    else if ch = '\\' then do
      let (decoded, rest) ← parseEscape rest
      let (chars, rest) ← parseString fuel rest
      some (decoded :: chars, rest)
    else if ch.toNat < 32 then none
    else do
      let (chars, rest) ← parseString fuel rest
      some (ch :: chars, rest)

/-- The text goes on with the token. -/
def parseToken (token : String) (text : List Char) : Option (List Char) :=
  if token.toList.isPrefixOf text then some (text.drop token.toList.length) else none

def digitsOf (text : List Char) : List Char := text.takeWhile Char.isDigit

/-- The integral part of a number. -/
def integerOf (text : List Char) : List Char :=
  match text with
  | '0' :: _ => ['0']
  | _ => digitsOf text

/-- The part of a number that starts with one of the marks, where there is one. -/
def partOf (marks signs : List Char) (text : List Char) : List Char :=
  match text with
  | [] => []
  | mark :: rest =>
    if mark ∈ marks then
      let sign := (rest.take 1).filter (· ∈ signs)
      let digits := digitsOf (rest.drop sign.length)
      if digits = [] then [] else mark :: sign ++ digits
    else []

def numberOf (text : List Char) : List Char :=
  let sign := (text.take 1).filter (· = '-')
  let integer := integerOf (text.drop sign.length)
  if integer = [] then []
  else
    let fraction := partOf ['.'] [] (text.drop (sign ++ integer).length)
    let exponent := partOf ['e', 'E'] ['-', '+'] (text.drop (sign ++ integer ++ fraction).length)
    sign ++ integer ++ fraction ++ exponent

def parseNumber (text : List Char) : Option (Json × List Char) :=
  if numberOf text = [] then none
  else some (.number (numberOf text), text.drop (numberOf text).length)

/-- A constant or a number. -/
def parseAtom (text : List Char) : Option (Json × List Char) :=
  ((parseToken "null" text).map fun rest => (Json.null, rest)) <|>
  ((parseToken "true" text).map fun rest => (Json.bool true, rest)) <|>
  ((parseToken "false" text).map fun rest => (Json.bool false, rest)) <|>
  parseNumber text <|>
  ((parseToken "NaN" text).map fun rest => (Json.number "NaN".toList, rest)) <|>
  ((parseToken "Infinity" text).map fun rest => (Json.number "Infinity".toList, rest)) <|>
  ((parseToken "-Infinity" text).map fun rest => (Json.number "-Infinity".toList, rest))

mutual

def parseValue : ℕ → List Char → Option (Json × List Char)
  | 0, _ => none
  | _ + 1, [] => none
  | fuel + 1, ch :: rest =>
    if ch = '"' then (parseString fuel rest).map fun (chars, rest) => (.str chars, rest)
    else if ch = '\x7b' then
      match expect '\x7d' (skipSpace rest) with
      | some rest => some (.object [], rest)
      | none => (parseMembers fuel (skipSpace rest)).map fun (members, rest) =>
        (.object members, rest)
    else if ch = '[' then
      match expect ']' (skipSpace rest) with
      | some rest => some (.array [], rest)
      | none => (parseItems fuel (skipSpace rest)).map fun (items, rest) => (.array items, rest)
    else parseAtom (ch :: rest)

/-- The items of an array that has some, and its end. -/
def parseItems : ℕ → List Char → Option (List Json × List Char)
  | 0, _ => none
  | fuel + 1, text => do
    let (item, text) ← parseValue fuel text
    match expect ']' (skipSpace text) with
    | some rest => some ([item], rest)
    | none =>
      let text ← expect ',' (skipSpace text)
      let (items, rest) ← parseItems fuel (skipSpace text)
      some (item :: items, rest)

/-- The members of an object that has some, and its end. -/
def parseMembers : ℕ → List Char → Option (List (List Char × Json) × List Char)
  | 0, _ => none
  | fuel + 1, text => do
    let text ← expect '"' text
    let (key, text) ← parseString fuel text
    let text ← expect ':' (skipSpace text)
    let (value, text) ← parseValue fuel (skipSpace text)
    match expect '\x7d' (skipSpace text) with
    | some rest => some ([(key, value)], rest)
    | none =>
      let text ← expect ',' (skipSpace text)
      let (members, rest) ← parseMembers fuel (skipSpace text)
      some ((key, value) :: members, rest)

end

/-- The value of a text, where it has one. -/
def loads (text : List Char) : Option Json :=
  match parseValue (text.length + 1) (skipSpace text) with
  | some (value, rest) => if skipSpace rest = [] then some value else none
  | none => none

/-! ## Where a text is within its strings -/

inductive Lexed
  | outside | string | escape
  /-- A string has just ended. -/
  | closed
  /-- No text of JSON starts so. -/
  | invalid
  deriving DecidableEq

def Lexed.step : Lexed → Char → Lexed
  | .outside, ch => if ch = '"' then .string else if ch = '\\' then .invalid else .outside
  | .string, ch => if ch = '"' then .closed else if ch = '\\' then .escape else .string
  | .escape, _ => .string
  | .closed, ch => if ch = '"' ∨ ch = '\\' ∨ ch.isAlpha then .invalid else .outside
  | .invalid, _ => .invalid

def lex (state : Lexed) (text : List Char) : Lexed := text.foldl Lexed.step state

@[simp] theorem lex_nil (state : Lexed) : lex state [] = state := rfl

@[simp] theorem lex_cons (state : Lexed) (ch : Char) (text : List Char) :
    lex state (ch :: text) = lex (state.step ch) text := rfl

@[simp] theorem lex_append (state : Lexed) (text text' : List Char) :
    lex state (text ++ text') = lex (lex state text) text' :=
  List.foldl_append

@[simp] theorem lex_invalid (text : List Char) : lex .invalid text = .invalid := by
  induction text with
  | nil => rfl
  | cons ch text ih => exact ih

/-- Outside the strings. -/
def Lexed.Settled (state : Lexed) : Prop := state = .outside ∨ state = .closed

/-- The character is neither a quote nor a backslash. -/
def Bare (ch : Char) : Prop := ch ≠ '"' ∧ ch ≠ '\\'

instance : DecidablePred Bare := fun ch =>
  inferInstanceAs (Decidable (ch ≠ '"' ∧ ch ≠ '\\'))

theorem Bare.step_outside {ch : Char} (h : Bare ch) : Lexed.step .outside ch = .outside := by
  simp [Lexed.step, h.1, h.2]

theorem Bare.step_string {ch : Char} (h : Bare ch) : Lexed.step .string ch = .string := by
  simp [Lexed.step, h.1, h.2]

theorem lex_outside_of_bare {text : List Char} (h : ∀ ch ∈ text, Bare ch) :
    lex .outside text = .outside := by
  induction text with
  | nil => rfl
  | cons ch text ih =>
    rw [lex_cons, (h ch List.mem_cons_self).step_outside]
    exact ih fun ch' hch' => h ch' (List.mem_cons_of_mem _ hch')

theorem lex_string_of_bare {text : List Char} (h : ∀ ch ∈ text, Bare ch) :
    lex .string text = .string := by
  induction text with
  | nil => rfl
  | cons ch text ih =>
    rw [lex_cons, (h ch List.mem_cons_self).step_string]
    exact ih fun ch' hch' => h ch' (List.mem_cons_of_mem _ hch')

/-! ### What the readers consume -/

theorem expect_eq_some {ch : Char} {text rest : List Char} (h : expect ch text = some rest) :
    text = ch :: rest := by
  cases text with
  | nil => cases h
  | cons c text =>
    simp only [expect] at h
    split at h
    · rename_i hc
      rw [hc, Option.some.inj h]
    · cases h

theorem bare_of_hexValue? {ch : Char} {n : ℕ} (h : hexValue? ch = some n) : Bare ch := by
  constructor
  · rintro rfl
    have hnone : hexValue? '"' = none := by decide
    rw [hnone] at h
    cases h
  · rintro rfl
    have hnone : hexValue? '\\' = none := by decide
    rw [hnone] at h
    cases h

theorem parseHex_eq_some {text rest : List Char} {n : ℕ} (h : parseHex text = some (n, rest)) :
    ∃ token, text = token ++ rest ∧ ∀ ch ∈ token, Bare ch := by
  unfold parseHex at h
  split at h
  · rename_i a b c d rest'
    simp only [Option.bind_eq_bind, Option.bind_eq_some_iff, Option.some.injEq, Prod.mk.injEq] at h
    obtain ⟨_, ha, _, hb, _, hc, _, hd, -, rfl⟩ := h
    refine ⟨[a, b, c, d], rfl, ?_⟩
    simp [bare_of_hexValue? ha, bare_of_hexValue? hb, bare_of_hexValue? hc,
      bare_of_hexValue? hd]
  · cases h

theorem parseLowSurrogate_eq_some {text rest : List Char} {n : ℕ}
    (h : parseLowSurrogate text = some (n, rest)) :
    ∃ token, text = token ++ rest ∧ lex .string token = .string := by
  simp only [parseLowSurrogate, Option.bind_eq_bind, Option.bind_eq_some_iff] at h
  obtain ⟨text', hslash, text'', hu, ⟨code, rest'⟩, hhex, hresult⟩ := h
  obtain ⟨token, rfl, hplain⟩ := parseHex_eq_some hhex
  obtain rfl := expect_eq_some hslash
  obtain rfl := expect_eq_some hu
  simp only at hresult
  split at hresult
  · cases hresult
    refine ⟨'\\' :: 'u' :: token, rfl, ?_⟩
    rw [lex_cons, lex_cons]
    exact lex_string_of_bare hplain
  · cases hresult

theorem parseUnicode_eq_some {text rest : List Char} {ch : Char}
    (h : parseUnicode text = some (ch, rest)) :
    ∃ token, text = token ++ rest ∧ lex .string token = .string := by
  simp only [parseUnicode, Option.bind_eq_bind, Option.bind_eq_some_iff] at h
  obtain ⟨⟨code, text'⟩, hhex, hresult⟩ := h
  obtain ⟨token, rfl, hplain⟩ := parseHex_eq_some hhex
  have htoken := lex_string_of_bare hplain
  simp only at hresult
  split at hresult
  · split at hresult
    · rename_i low text'' hlow
      obtain ⟨token', rfl, hlex⟩ := parseLowSurrogate_eq_some hlow
      obtain ⟨-, rfl⟩ := Prod.mk.inj (Option.some.inj hresult)
      exact ⟨token ++ token', (List.append_assoc _ _ _).symm, by rw [lex_append, htoken, hlex]⟩
    · obtain ⟨-, rfl⟩ := Prod.mk.inj (Option.some.inj hresult)
      exact ⟨token, rfl, htoken⟩
  · split at hresult
    · obtain ⟨-, rfl⟩ := Prod.mk.inj (Option.some.inj hresult)
      exact ⟨token, rfl, htoken⟩
    · obtain ⟨-, rfl⟩ := Prod.mk.inj (Option.some.inj hresult)
      exact ⟨token, rfl, htoken⟩

theorem parseEscape_eq_some {text rest : List Char} {ch : Char}
    (h : parseEscape text = some (ch, rest)) :
    ∃ token, text = token ++ rest ∧ lex .escape token = .string := by
  cases text with
  | nil => cases h
  | cons c text =>
    simp only [parseEscape] at h
    split at h
    · obtain ⟨token, rfl, hlex⟩ := parseUnicode_eq_some h
      exact ⟨c :: token, rfl, hlex⟩
    · obtain ⟨_, -, hpair⟩ := Option.map_eq_some_iff.mp h
      cases hpair
      exact ⟨[c], rfl, rfl⟩

/-- A string is read up to its closing quote. -/
theorem parseString_eq_some {fuel : ℕ} {text rest chars : List Char}
    (h : parseString fuel text = some (chars, rest)) :
    ∃ token, text = token ++ rest ∧ lex .string token = .closed := by
  induction fuel generalizing text chars with
  | zero => cases h
  | succ fuel ih =>
    cases text with
    | nil => cases h
    | cons ch text =>
      unfold parseString at h
      split at h
      · rename_i hquote
        cases h
        exact ⟨[ch], rfl, by simp [Lexed.step, hquote]⟩
      · rename_i hquote
        split at h
        · rename_i hslash
          simp only [Option.bind_eq_bind, Option.bind_eq_some_iff] at h
          obtain ⟨⟨decoded, text'⟩, hescape, ⟨chars', rest'⟩, hstring, hresult⟩ := h
          cases hresult
          obtain ⟨token, rfl, htoken⟩ := parseEscape_eq_some hescape
          obtain ⟨token', rfl, htoken'⟩ := ih hstring
          refine ⟨ch :: token ++ token', by simp, ?_⟩
          have hstep : Lexed.step .string ch = .escape := by simp [Lexed.step, hslash]
          rw [List.cons_append, lex_cons, hstep, lex_append, htoken, htoken']
        · rename_i hslash
          split at h
          · cases h
          · simp only [Option.bind_eq_bind, Option.bind_eq_some_iff] at h
            obtain ⟨⟨chars', rest'⟩, hstring, hresult⟩ := h
            cases hresult
            obtain ⟨token, rfl, htoken⟩ := ih hstring
            refine ⟨ch :: token, rfl, ?_⟩
            rw [lex_cons, Bare.step_string ⟨hquote, hslash⟩, htoken]

theorem parseToken_eq_some {token : String} {text rest : List Char}
    (h : parseToken token text = some rest) : text = token.toList ++ rest := by
  unfold parseToken at h
  split at h
  · rename_i hinitial
    obtain ⟨rest', rfl⟩ := List.isPrefixOf_iff_prefix.mp hinitial
    rw [← Option.some.inj h, List.drop_left]
  · cases h

/-- A character of a number. -/
def isNumeric (ch : Char) : Bool := ch.isDigit || ch ∈ ['-', '+', '.', 'e', 'E']

theorem bare_of_isNumeric {ch : Char} (h : isNumeric ch = true) : Bare ch := by
  constructor
  · rintro rfl
    exact absurd h (by decide)
  · rintro rfl
    exact absurd h (by decide)

/-- The start of a text, all of it characters of a number. -/
def NumericPrefix (token text : List Char) : Prop :=
  token <+: text ∧ ∀ ch ∈ token, isNumeric ch = true

theorem NumericPrefix.nil (text : List Char) : NumericPrefix [] text :=
  ⟨List.nil_prefix, fun ch hch => by cases hch⟩

theorem NumericPrefix.append {token token' text : List Char} (h : NumericPrefix token text)
    (h' : NumericPrefix token' (text.drop token.length)) : NumericPrefix (token ++ token') text := by
  obtain ⟨⟨rest, rfl⟩, hnumeric⟩ := h
  obtain ⟨hinitial, hnumeric'⟩ := h'
  rw [List.drop_left] at hinitial
  refine ⟨List.prefix_append_right_inj token |>.mpr hinitial, fun ch hch => ?_⟩
  rcases List.mem_append.mp hch with hch | hch
  · exact hnumeric ch hch
  · exact hnumeric' ch hch

theorem numericPrefix_digitsOf (text : List Char) : NumericPrefix (digitsOf text) text :=
  ⟨List.takeWhile_prefix _, fun ch hch => by
    simp [isNumeric, List.mem_takeWhile_imp hch]⟩

theorem numericPrefix_sign {signs : List Char} (h : ∀ ch ∈ signs, isNumeric ch = true)
    (text : List Char) : NumericPrefix ((text.take 1).filter (· ∈ signs)) text := by
  cases text with
  | nil => exact .nil _
  | cons ch text =>
    by_cases hch : ch ∈ signs
    · have hhead : NumericPrefix [ch] (ch :: text) :=
        ⟨⟨text, rfl⟩, fun c hc => List.mem_singleton.mp hc ▸ h ch hch⟩
      simpa only [List.take_succ_cons, List.take_zero, List.filter_cons, hch, decide_true, if_true,
        List.filter_nil] using hhead
    · simpa [hch] using NumericPrefix.nil (ch :: text)

theorem numericPrefix_integerOf (text : List Char) : NumericPrefix (integerOf text) text := by
  unfold integerOf
  split
  · exact ⟨⟨_, rfl⟩, by simp [isNumeric]⟩
  · exact numericPrefix_digitsOf text

theorem numericPrefix_partOf {marks signs : List Char}
    (hmarks : ∀ ch ∈ marks, isNumeric ch = true) (hsigns : ∀ ch ∈ signs, isNumeric ch = true)
    (text : List Char) : NumericPrefix (partOf marks signs text) text := by
  cases text with
  | nil => exact .nil _
  | cons mark rest =>
    simp only [partOf]
    split
    · rename_i hmark
      split
      · exact .nil _
      · have hhead : NumericPrefix [mark] (mark :: rest) :=
          ⟨⟨rest, rfl⟩, by simpa using hmarks mark hmark⟩
        exact (hhead.append (numericPrefix_sign hsigns rest)).append (by
          simpa using numericPrefix_digitsOf _)
    · exact .nil _

theorem numericPrefix_numberOf (text : List Char) : NumericPrefix (numberOf text) text := by
  simp only [numberOf]
  split
  · exact .nil _
  · have hpoint : ∀ ch ∈ ['.'], isNumeric ch = true := forall_of_all (by decide)
    have hexponent : ∀ ch ∈ ['e', 'E'], isNumeric ch = true := forall_of_all (by decide)
    have hsigns : ∀ ch ∈ ['-', '+'], isNumeric ch = true := forall_of_all (by decide)
    have hsign : NumericPrefix ((text.take 1).filter (· = '-')) text := by
      have hminus : ∀ ch ∈ ['-'], isNumeric ch = true := forall_of_all (by decide)
      simpa using numericPrefix_sign hminus text
    refine ((hsign.append (numericPrefix_integerOf _)).append ?_).append ?_
    · exact numericPrefix_partOf hpoint (fun _ hch => by cases hch) _
    · exact numericPrefix_partOf hexponent hsigns _

/-- A constant or a number holds no quotes. -/
theorem parseAtom_eq_some {text rest : List Char} {value : Json}
    (h : parseAtom text = some (value, rest)) :
    (∃ token, text = token ++ rest ∧ ∀ ch ∈ token, Bare ch) ∧
      ∀ members, value ≠ .object members := by
  have htoken {token : String} {json : Json}
      (h : (parseToken token text).map (fun rest => (json, rest)) = some (value, rest)) :
      text = token.toList ++ rest ∧ value = json := by
    obtain ⟨rest', hparse, hpair⟩ := Option.map_eq_some_iff.mp h
    obtain ⟨rfl, rfl⟩ := Prod.mk.inj hpair
    exact ⟨parseToken_eq_some hparse, rfl⟩
  have hword {token : String} {json : Json} (hplain : ∀ ch ∈ token.toList, Bare ch)
      (hjson : ∀ members, json ≠ .object members)
      (h : (parseToken token text).map (fun rest => (json, rest)) = some (value, rest)) :
      (∃ token, text = token ++ rest ∧ ∀ ch ∈ token, Bare ch) ∧
        ∀ members, value ≠ .object members := by
    obtain ⟨htext, rfl⟩ := htoken h
    exact ⟨⟨_, htext, hplain⟩, hjson⟩
  simp only [parseAtom, Option.orElse_eq_orElse, Option.orElse_eq_or, Option.or_eq_some_iff] at h
  rcases h with h | ⟨-, h | ⟨-, h | ⟨-, h | ⟨-, h | ⟨-, h | ⟨-, h⟩⟩⟩⟩⟩⟩
  · exact hword (forall_of_all (by decide)) (fun _ hobject => by cases hobject) h
  · exact hword (forall_of_all (by decide)) (fun _ hobject => by cases hobject) h
  · exact hword (forall_of_all (by decide)) (fun _ hobject => by cases hobject) h
  · unfold parseNumber at h
    split at h
    · cases h
    · obtain ⟨rfl, rfl⟩ := Prod.mk.inj (Option.some.inj h)
      obtain ⟨⟨rest, hrest⟩, hnumeric⟩ := numericPrefix_numberOf text
      refine ⟨⟨numberOf text, ?_, fun ch hch => bare_of_isNumeric (hnumeric ch hch)⟩,
        fun _ hobject => by cases hobject⟩
      rw [List.prefix_iff_eq_append.mp ⟨rest, hrest⟩]
  · exact hword (forall_of_all (by decide)) (fun _ hobject => by cases hobject) h
  · exact hword (forall_of_all (by decide)) (fun _ hobject => by cases hobject) h
  · exact hword (forall_of_all (by decide)) (fun _ hobject => by cases hobject) h

theorem bare_of_isJsonSpace {ch : Char} (h : isJsonSpace ch = true) :
    Bare ch ∧ ch.isAlpha = false := by
  simp only [isJsonSpace, Bool.or_eq_true, decide_eq_true_eq] at h
  rcases h with ((rfl | rfl) | rfl) | rfl <;> decide

theorem Lexed.Settled.step {state : Lexed} {ch : Char} (h : state.Settled) (hplain : Bare ch)
    (halpha : ch.isAlpha = false) : state.step ch = .outside := by
  rcases h with rfl | rfl
  · exact hplain.step_outside
  · simp [Lexed.step, hplain.1, hplain.2, halpha]

theorem skipSpace_eq (text : List Char) :
    ∃ space, text = space ++ skipSpace text ∧ ∀ ch ∈ space, isJsonSpace ch = true :=
  ⟨_, List.takeWhile_append_dropWhile.symm, fun _ hch => List.mem_takeWhile_imp hch⟩

theorem Lexed.Settled.space {state : Lexed} (h : state.Settled) {space : List Char}
    (hspace : ∀ ch ∈ space, isJsonSpace ch = true) : (lex state space).Settled := by
  induction space generalizing state with
  | nil => exact h
  | cons ch space ih =>
    obtain ⟨hplain, halpha⟩ := bare_of_isJsonSpace (hspace ch List.mem_cons_self)
    rw [lex_cons, h.step hplain halpha]
    exact ih (.inl rfl) fun ch' hch' => hspace ch' (List.mem_cons_of_mem _ hch')

/-- After a value, a mark is read as such. -/
theorem Lexed.Settled.mark {state : Lexed} (h : state.Settled) {text rest : List Char} {ch : Char}
    (hexpect : expect ch (skipSpace text) = some rest)
    (hch : Bare ch ∧ ch.isAlpha = false) :
    ∃ token, text = token ++ rest ∧ lex state token = .outside := by
  obtain ⟨space, htext, hspace⟩ := skipSpace_eq text
  rw [expect_eq_some hexpect] at htext
  refine ⟨space ++ [ch], by rw [htext, List.append_assoc]; rfl, ?_⟩
  rw [lex_append, lex_cons, (h.space hspace).step hch.1 hch.2, lex_nil]

/-- Space before a value. -/
theorem lex_outside_space (text : List Char) :
    ∃ space, text = space ++ skipSpace text ∧ lex .outside space = .outside := by
  obtain ⟨space, htext, hspace⟩ := skipSpace_eq text
  exact ⟨space, htext, lex_outside_of_bare fun ch hch =>
    (bare_of_isJsonSpace (hspace ch hch)).1⟩

/-- What the reader of values consumes leaves no string open. -/
def ReadsValue (fuel : ℕ) : Prop :=
  ∀ {text rest : List Char} {value : Json}, parseValue fuel text = some (value, rest) →
    ∃ token, text = token ++ rest ∧ (lex .outside token).Settled

def ReadsItems (fuel : ℕ) : Prop :=
  ∀ {text rest : List Char} {items : List Json}, parseItems fuel text = some (items, rest) →
    ∃ token, text = token ++ rest ∧ lex .outside token = .outside

def ReadsMembers (fuel : ℕ) : Prop :=
  ∀ {text rest : List Char} {members : List (List Char × Json)},
    parseMembers fuel text = some (members, rest) →
      ∃ token, text = token ++ rest ∧ lex .outside token = .outside

theorem readsValue_succ {fuel : ℕ} (hitems : ReadsItems fuel) (hmembers : ReadsMembers fuel) :
    ReadsValue (fuel + 1) := by
  intro text rest value h
  cases text with
  | nil => cases h
  | cons ch text =>
    -- An array or an object, empty or not, from its opening mark on.
    have hempty {rest' : List Char} {close : Char} (hch : Bare ch)
        (hclose : Bare close ∧ close.isAlpha = false)
        (hexpect : expect close (skipSpace text) = some rest') :
        ∃ token, ch :: text = token ++ rest' ∧ (lex .outside token).Settled := by
      obtain ⟨token, rfl, hlex⟩ := Lexed.Settled.mark (.inl rfl) hexpect hclose
      refine ⟨ch :: token, rfl, .inl ?_⟩
      rw [lex_cons, hch.step_outside, hlex]
    have hinner {rest' : List Char} (hch : Bare ch)
        (htoken : ∃ token, skipSpace text = token ++ rest' ∧ lex .outside token = .outside) :
        ∃ token, ch :: text = token ++ rest' ∧ (lex .outside token).Settled := by
      obtain ⟨space, htext, hspace⟩ := lex_outside_space text
      obtain ⟨token, hinner, htoken⟩ := htoken
      rw [hinner] at htext
      refine ⟨ch :: space ++ token, by simp [htext], .inl ?_⟩
      rw [List.cons_append, lex_cons, hch.step_outside, lex_append, hspace, htoken]
    unfold parseValue at h
    split at h
    · rename_i hquote
      obtain ⟨⟨chars, rest'⟩, hstring, hpair⟩ := Option.map_eq_some_iff.mp h
      obtain ⟨-, rfl⟩ := Prod.mk.inj hpair
      obtain ⟨token, rfl, hlex⟩ := parseString_eq_some hstring
      refine ⟨ch :: token, rfl, .inr ?_⟩
      simp [Lexed.step, hquote, hlex]
    · split at h
      · rename_i hch
        have hplain : Bare ch := hch ▸ by decide
        split at h
        · rename_i hexpect
          obtain ⟨-, rfl⟩ := Prod.mk.inj (Option.some.inj h)
          exact hempty hplain (by decide) hexpect
        · obtain ⟨⟨members, rest'⟩, hparse, hpair⟩ := Option.map_eq_some_iff.mp h
          obtain ⟨-, rfl⟩ := Prod.mk.inj hpair
          exact hinner hplain (hmembers hparse)
      · split at h
        · rename_i hch
          have hplain : Bare ch := hch ▸ by decide
          split at h
          · rename_i hexpect
            obtain ⟨-, rfl⟩ := Prod.mk.inj (Option.some.inj h)
            exact hempty hplain (by decide) hexpect
          · obtain ⟨⟨items, rest'⟩, hparse, hpair⟩ := Option.map_eq_some_iff.mp h
            obtain ⟨-, rfl⟩ := Prod.mk.inj hpair
            exact hinner hplain (hitems hparse)
        · obtain ⟨⟨token, htext, hplain⟩, -⟩ := parseAtom_eq_some h
          exact ⟨token, htext, .inl (lex_outside_of_bare hplain)⟩

theorem readsItems_succ {fuel : ℕ} (hvalue : ReadsValue fuel) (hitems : ReadsItems fuel) :
    ReadsItems (fuel + 1) := by
  intro text rest items h
  simp only [parseItems, Option.bind_eq_bind, Option.bind_eq_some_iff] at h
  obtain ⟨⟨item, text'⟩, hitem, h⟩ := h
  obtain ⟨token, rfl, htoken⟩ := hvalue hitem
  simp only at h
  split at h
  · rename_i hend
    obtain ⟨-, rfl⟩ := Prod.mk.inj (Option.some.inj h)
    obtain ⟨token', rfl, hmark⟩ := htoken.mark hend (by decide)
    exact ⟨token ++ token', (List.append_assoc _ _ _).symm, by rw [lex_append, hmark]⟩
  · simp only [Option.bind_eq_some_iff] at h
    obtain ⟨text'', hcomma, ⟨items', rest'⟩, hparse, hpair⟩ := h
    obtain ⟨-, rfl⟩ := Prod.mk.inj (Option.some.inj hpair)
    obtain ⟨token', rfl, hmark⟩ := htoken.mark hcomma (by decide)
    obtain ⟨space, hspace, hlex⟩ := lex_outside_space text''
    obtain ⟨token'', hrest, htoken''⟩ := hitems hparse
    rw [hrest] at hspace
    refine ⟨token ++ token' ++ space ++ token'', by simp [hspace], ?_⟩
    rw [lex_append, lex_append, lex_append, hmark, hlex, htoken'']

theorem readsMembers_succ {fuel : ℕ} (hvalue : ReadsValue fuel) (hmembers : ReadsMembers fuel) :
    ReadsMembers (fuel + 1) := by
  intro text rest members h
  simp only [parseMembers, Option.bind_eq_bind, Option.bind_eq_some_iff] at h
  obtain ⟨text₁, hquote, ⟨key, text₂⟩, hkey, text₃, hcolon, ⟨value, text₄⟩, hparse, h⟩ := h
  obtain rfl := expect_eq_some hquote
  obtain ⟨token, rfl, htoken⟩ := parseString_eq_some hkey
  obtain ⟨token', rfl, hmark⟩ := Lexed.Settled.mark (.inr htoken) hcolon (by decide)
  obtain ⟨space, hspace, hlex⟩ := lex_outside_space text₃
  obtain ⟨token'', hrest, htoken''⟩ := hvalue hparse
  rw [hrest] at hspace
  have hbefore : (lex .outside ('"' :: token ++ token' ++ space ++ token'')).Settled := by
    have hstep : Lexed.step .outside '"' = .string := rfl
    rw [lex_append, lex_append, lex_append, lex_cons, hstep, hmark, hlex]
    exact htoken''
  simp only at h
  split at h
  · rename_i hend
    obtain ⟨-, rfl⟩ := Prod.mk.inj (Option.some.inj h)
    obtain ⟨last, rfl, hlast⟩ := hbefore.mark hend (by decide)
    exact ⟨_, by simp [hspace], (lex_append _ _ _).trans hlast⟩
  · simp only [Option.bind_eq_some_iff] at h
    obtain ⟨text₅, hcomma, ⟨members', rest'⟩, hrests, hpair⟩ := h
    obtain ⟨-, rfl⟩ := Prod.mk.inj (Option.some.inj hpair)
    obtain ⟨last, rfl, hlast⟩ := hbefore.mark hcomma (by decide)
    obtain ⟨space', hspace', hlex'⟩ := lex_outside_space text₅
    obtain ⟨others, hothers, hlexothers⟩ := hmembers hrests
    rw [hothers] at hspace'
    refine ⟨('"' :: token ++ token' ++ space ++ token'') ++ last ++ space' ++ others,
      by simp [hspace, hspace'], ?_⟩
    rw [lex_append, lex_append, lex_append, hlast, hlex', hlexothers]

theorem reads (fuel : ℕ) : ReadsValue fuel ∧ ReadsItems fuel ∧ ReadsMembers fuel := by
  induction fuel with
  | zero =>
    refine ⟨fun {_ _ _} h => ?_, fun {_ _ _} h => ?_, fun {_ _ _} h => ?_⟩
    · simp [parseValue] at h
    · simp [parseItems] at h
    · simp [parseMembers] at h
  | succ fuel ih =>
    obtain ⟨hvalue, hitems, hmembers⟩ := ih
    exact ⟨readsValue_succ hitems hmembers, readsItems_succ hvalue hitems,
      readsMembers_succ hvalue hmembers⟩

/-- **A text that is read is outside its strings** at the end. -/
theorem loads_lex {text : List Char} {value : Json} (h : loads text = some value) :
    (lex .outside text).Settled := by
  unfold loads at h
  split at h
  · rename_i value' rest hparse
    split at h
    · rename_i hrest
      obtain ⟨space, hspace, hlex⟩ := lex_outside_space text
      obtain ⟨token, htoken, hsettled⟩ := (reads _).1 hparse
      obtain ⟨space', hspace', hlast⟩ := skipSpace_eq rest
      rw [htoken] at hspace
      rw [hspace, lex_append, hlex, lex_append]
      rw [hrest, List.append_nil] at hspace'
      exact hsettled.space (hspace' ▸ hlast)
    · cases h
  · cases h

theorem parseValue_of_no_quote {fuel : ℕ} {text rest : List Char}
    {members : List (List Char × Json)} (htext : '"' ∉ text)
    (h : parseValue fuel text = some (.object members, rest)) : members = [] := by
  cases fuel with
  | zero => simp [parseValue] at h
  | succ fuel =>
    cases text with
    | nil => simp [parseValue] at h
    | cons ch text =>
      simp only [parseValue] at h
      split at h
      · rename_i hquote
        exact absurd (hquote ▸ List.mem_cons_self) htext
      · split at h
        · split at h
          · cases h
            rfl
          · -- A member would start with a quote.
            obtain ⟨⟨members', rest'⟩, hmembers, -⟩ := Option.map_eq_some_iff.mp h
            cases fuel with
            | zero => simp [parseMembers] at hmembers
            | succ fuel =>
              simp only [parseMembers, Option.bind_eq_bind, Option.bind_eq_some_iff] at hmembers
              obtain ⟨text', hquote, -⟩ := hmembers
              obtain ⟨space, hspace, -⟩ := skipSpace_eq text
              rw [expect_eq_some hquote] at hspace
              exact absurd (by simp [hspace]) htext
        · split at h
          · split at h
            · cases h
            · obtain ⟨_, -, hpair⟩ := Option.map_eq_some_iff.mp h
              cases hpair
          · exact absurd rfl ((parseAtom_eq_some h).2 members)

/-- **An object in a text without quotes** has no members. -/
theorem members_of_no_quote {text : List Char} {members : List (List Char × Json)}
    (htext : '"' ∉ text) (h : loads text = some (.object members)) : members = [] := by
  unfold loads at h
  split at h
  · rename_i value rest hparse
    split at h
    · obtain rfl := Option.some.inj h
      obtain ⟨space, hspace, -⟩ := skipSpace_eq text
      exact parseValue_of_no_quote
        (fun hin => htext (hspace ▸ List.mem_append_right _ hin)) hparse
    · cases h
  · cases h

/-! ## What is written is read back -/

theorem hexValue?_hexDigit {n : ℕ} (h : n < 16) : hexValue? (hexDigit n) = some n := by
  have hall : ∀ n < 16, hexValue? (hexDigit n) = some n := by decide
  exact hall n h

/-- What follows the backslash of a character that is escaped. -/
theorem parseEscape_control {ch : Char} (h : ch.toNat < 32) (text : List Char) :
    parseEscape ('u' :: '0' :: '0' :: hexDigit (ch.toNat / 16) :: hexDigit (ch.toNat % 16) :: text) =
      some (ch, text) := by
  have hzero : hexValue? '0' = some 0 := by decide
  have hhex : parseHex
      ('0' :: '0' :: hexDigit (ch.toNat / 16) :: hexDigit (ch.toNat % 16) :: text) =
        some (ch.toNat, text) := by
    simp only [parseHex, hzero, hexValue?_hexDigit (n := ch.toNat / 16) (by omega),
      hexValue?_hexDigit (n := ch.toNat % 16) (by omega), Option.bind_eq_bind, Option.bind_some,
      Option.some.injEq, Prod.mk.injEq, and_true]
    omega
  have hhigh : ¬ (0xD800 ≤ ch.toNat ∧ ch.toNat < 0xDC00) := by omega
  have hlow : ¬ (0xDC00 ≤ ch.toNat ∧ ch.toNat < 0xE000) := by omega
  simp only [parseEscape, if_true, parseUnicode, hhex, Option.bind_eq_bind, Option.bind_some,
    if_neg hhigh, if_neg hlow, Char.ofNat_toNat]

theorem escapeChar_cases (ch : Char) :
    (escapeChar ch = [ch] ∧ Bare ch ∧ ¬ ch.toNat < 32) ∨
      ∃ token, escapeChar ch = '\\' :: token ∧
        ∀ text, parseEscape (token ++ text) = some (ch, text) := by
  unfold escapeChar
  have hsimple {c : Char} (hu : c ≠ 'u') (h : simpleEscape? c = some ch) :
      ∃ token, ['\\', c] = '\\' :: token ∧
        ∀ text, parseEscape (token ++ text) = some (ch, text) :=
    ⟨[c], rfl, fun text => by simp [parseEscape, hu, h]⟩
  split
  · rename_i h
    exact .inr (hsimple (by decide) (by rw [h]; rfl))
  · split
    · rename_i h
      exact .inr (hsimple (by decide) (by rw [h]; rfl))
    · rename_i hquote hslash
      split
      · rename_i h
        exact .inr (hsimple (by decide) (by rw [h]; rfl))
      · split
        · rename_i h
          exact .inr (hsimple (by decide) (by rw [h]; rfl))
        · split
          · rename_i h
            exact .inr (hsimple (by decide) (by rw [h]; rfl))
          · split
            · rename_i h
              refine .inr (hsimple (by decide) ?_)
              rw [← Char.ofNat_toNat ch, h]
              rfl
            · split
              · rename_i h
                refine .inr (hsimple (by decide) ?_)
                rw [← Char.ofNat_toNat ch, h]
                rfl
              · split
                · rename_i h
                  exact .inr ⟨_, rfl, parseEscape_control h⟩
                · rename_i h
                  exact .inl ⟨rfl, ⟨hquote, hslash⟩, h⟩

theorem parseString_escapeChar (ch : Char) (fuel : ℕ) (text : List Char) :
    parseString (fuel + 1) (escapeChar ch ++ text) =
      (parseString fuel text).map fun (chars, rest) => (ch :: chars, rest) := by
  rcases escapeChar_cases ch with ⟨hself, hplain, hcontrol⟩ | ⟨token, htoken, hparse⟩
  · rw [hself, List.singleton_append]
    simp only [parseString, if_neg hplain.1, if_neg hplain.2, if_neg hcontrol]
    cases parseString fuel text <;> rfl
  · have hquote : '\\' ≠ '"' := by decide
    rw [htoken, List.cons_append]
    simp only [parseString, if_neg hquote, if_true, hparse, Option.bind_eq_bind, Option.bind_some]
    cases parseString fuel text <;> rfl

/-- A string that was escaped is read back, up to its closing quote. -/
theorem parseString_escape (chars : List Char) {fuel : ℕ} (hfuel : chars.length < fuel)
    (text : List Char) : parseString fuel (escape chars ++ '"' :: text) = some (chars, text) := by
  induction chars generalizing fuel with
  | nil =>
    obtain ⟨fuel, rfl⟩ := Nat.exists_eq_add_of_lt hfuel
    simp [escape, parseString]
  | cons ch chars ih =>
    obtain ⟨fuel, rfl⟩ : ∃ n, fuel = n + 1 := ⟨fuel - 1, by omega⟩
    have hescape : escape (ch :: chars) = escapeChar ch ++ escape chars := rfl
    rw [hescape, List.append_assoc, parseString_escapeChar,
      ih (Nat.lt_of_succ_lt_succ hfuel)]
    rfl

/-- **A string that was written is read back.** -/
theorem parseValue_quoted (chars : List Char) {fuel : ℕ} (hfuel : chars.length + 1 < fuel)
    (text : List Char) : parseValue fuel (quoted chars ++ text) = some (.str chars, text) := by
  obtain ⟨fuel, rfl⟩ : ∃ n, fuel = n + 1 := ⟨fuel - 1, by omega⟩
  have hquoted : quoted chars ++ text = '"' :: (escape chars ++ '"' :: text) := by
    simp [quoted]
  rw [hquoted]
  simp only [parseValue, if_true, parseString_escape chars (Nat.lt_of_succ_lt_succ hfuel)]
  rfl

theorem skipSpace_of_head {ch : Char} (h : isJsonSpace ch = false) (text : List Char) :
    skipSpace (ch :: text) = ch :: text := by
  simp [skipSpace, h]

theorem skipSpace_quoted (chars text : List Char) :
    skipSpace (quoted chars ++ text) = quoted chars ++ text :=
  skipSpace_of_head (by decide) _

/-- A member of an object, up to its value. -/
theorem parseMembers_quoted {key : List Char} {fuel : ℕ} (hkey : key.length < fuel)
    (text : List Char) :
    parseMembers (fuel + 1) (quoted key ++ ':' :: text) =
      (parseValue fuel (skipSpace text)).bind fun (value, text) =>
        match expect '\x7d' (skipSpace text) with
        | some rest => some ([(key, value)], rest)
        | none => (expect ',' (skipSpace text)).bind fun text =>
          (parseMembers fuel (skipSpace text)).bind fun (members, rest) =>
            some ((key, value) :: members, rest) := by
  have hquoted : quoted key ++ ':' :: text = '"' :: (escape key ++ '"' :: ':' :: text) := by
    simp [quoted]
  have hopen : expect '"' (quoted key ++ ':' :: text) =
      some (escape key ++ '"' :: ':' :: text) := by
    rw [hquoted]
    simp [expect]
  have hcolon : expect ':' (skipSpace (':' :: text)) = some text := by
    rw [skipSpace_of_head (by decide)]
    simp [expect]
  simp only [parseMembers, hopen, parseString_escape key hkey, hcolon, Option.bind_eq_bind,
    Option.bind_some]

theorem parseMembers_cons {key text after rest : List Char} {value : Json} {fuel : ℕ}
    (hkey : key.length < fuel) (hvalue : parseValue fuel (skipSpace text) = some (value, after))
    (hafter : skipSpace after = ',' :: rest) :
    parseMembers (fuel + 1) (quoted key ++ ':' :: text) =
      (parseMembers fuel (skipSpace rest)).bind fun (members, rest) =>
        some ((key, value) :: members, rest) := by
  have hend : expect '\x7d' (',' :: rest) = none := by simp [expect]
  have hcomma : expect ',' (',' :: rest) = some rest := by simp [expect]
  rw [parseMembers_quoted hkey, hvalue]
  simp only [Option.bind_some, hafter, hend, hcomma]

theorem parseMembers_last {key text after rest : List Char} {value : Json} {fuel : ℕ}
    (hkey : key.length < fuel) (hvalue : parseValue fuel (skipSpace text) = some (value, after))
    (hafter : skipSpace after = '\x7d' :: rest) :
    parseMembers (fuel + 1) (quoted key ++ ':' :: text) = some ([(key, value)], rest) := by
  have hend : expect '\x7d' ('\x7d' :: rest) = some rest := by simp [expect]
  rw [parseMembers_quoted hkey, hvalue]
  simp only [Option.bind_some, hafter, hend]

/-- An object that has members is read by its members. -/
theorem loads_object {text : List Char} {members : List (List Char × Json)}
    (htext : skipSpace text = text) (hend : expect '\x7d' text = none)
    (h : parseMembers (text.length + 1) text = some (members, [])) :
    loads ('\x7b' :: text) = some (.object members) := by
  have hvalue : parseValue (('\x7b' :: text).length + 1) ('\x7b' :: text) =
      some (.object members, []) := by
    rw [List.length_cons]
    simp [parseValue, htext, hend, h]
  unfold loads
  rw [skipSpace_of_head (by decide), hvalue]
  rfl

/-! ## What is escaped -/

@[simp] theorem escape_cons (ch : Char) (chars : List Char) :
    escape (ch :: chars) = escapeChar ch ++ escape chars := rfl

@[simp] theorem escape_append (chars chars' : List Char) :
    escape (chars ++ chars') = escape chars ++ escape chars' :=
  List.flatMap_append

theorem escapeChar_ne_nil (ch : Char) : escapeChar ch ≠ [] := by
  rcases escapeChar_cases ch with ⟨h, -⟩ | ⟨token, h, -⟩ <;> rw [h] <;> exact List.cons_ne_nil _ _

/-- What is escaped does not leave the string. -/
theorem length_le_escape (text : List Char) : text.length ≤ (escape text).length := by
  induction text with
  | nil => exact Nat.zero_le _
  | cons ch text ih =>
    have hch := List.length_pos_of_ne_nil (escapeChar_ne_nil ch)
    rw [escape_cons, List.length_append, List.length_cons]
    omega

theorem lex_string_escape (chars : List Char) : lex .string (escape chars) = .string := by
  induction chars with
  | nil => rfl
  | cons ch chars ih =>
    have hch : lex .string (escapeChar ch) = .string := by
      rcases escapeChar_cases ch with ⟨hself, hplain, -⟩ | ⟨token, htoken, hparse⟩
      · rw [hself, lex_cons, hplain.step_string, lex_nil]
      · obtain ⟨token', heq, hlex⟩ := parseEscape_eq_some (hparse [])
        rw [List.append_nil, List.append_nil] at heq
        rw [htoken, heq]
        exact hlex
    rw [escape_cons, lex_append, hch, ih]

/-- Outside a string, what is escaped starts nothing of JSON unless there was nothing to escape. -/
theorem lex_outside_escape (chars : List Char) :
    lex .outside (escape chars) = .invalid ∨
      lex .outside (escape chars) = .outside ∧ '"' ∉ escape chars := by
  induction chars with
  | nil => exact .inr ⟨rfl, by simp [escape]⟩
  | cons ch chars ih =>
    rw [escape_cons, lex_append]
    rcases escapeChar_cases ch with ⟨hself, hplain, -⟩ | ⟨token, htoken, -⟩
    · rw [hself, lex_cons, hplain.step_outside, lex_nil]
      rcases ih with hinvalid | ⟨houtside, hnot⟩
      · exact .inl hinvalid
      · refine .inr ⟨houtside, ?_⟩
        simp [hplain.1.symm, hnot]
    · refine .inl ?_
      have hstep : Lexed.step .outside '\\' = .invalid := rfl
      rw [htoken, lex_cons, hstep, lex_invalid, lex_invalid]

/-- The characters of the escapes. -/
def escapeMarks : List Char :=
  ['\\', '"', 'n', 'r', 't', 'b', 'f', 'u', '0', '1', '2', '3', '4', '5', '6', '7', '8', '9', 'a',
    'c', 'd', 'e']

/-- The character stands for itself, and is part of no escape. -/
def Verbatim (ch : Char) : Prop := ch ∉ escapeMarks ∧ ¬ ch.toNat < 32

instance : DecidablePred Verbatim := fun ch =>
  inferInstanceAs (Decidable (ch ∉ escapeMarks ∧ ¬ ch.toNat < 32))

theorem hexDigit_mem {n : ℕ} (h : n < 16) : hexDigit n ∈ escapeMarks := by
  have hall : ∀ n < 16, hexDigit n ∈ escapeMarks := by decide
  exact hall n h

theorem escapeChar_subset (ch : Char) :
    escapeChar ch = [ch] ∨ ∀ c ∈ escapeChar ch, c ∈ escapeMarks := by
  unfold escapeChar
  repeat' split
  all_goals first
    | exact .inr (forall_of_all (by decide))
    | exact .inl rfl
    | rename_i hcontrol
      refine .inr fun c hc => ?_
      simp only [List.mem_cons, List.not_mem_nil, or_false] at hc
      rcases hc with rfl | rfl | rfl | rfl | rfl | rfl
      · decide
      · decide
      · decide
      · decide
      · exact hexDigit_mem (by omega)
      · exact hexDigit_mem (by omega)

theorem Verbatim.escapeChar_eq {ch : Char} (h : Verbatim ch) : escapeChar ch = [ch] := by
  -- What is escaped is a mark itself or a control character.
  obtain ⟨hmark, hcontrol⟩ := h
  have hquote : ch ≠ '"' := fun heq => hmark (heq ▸ by decide)
  have hslash : ch ≠ '\\' := fun heq => hmark (heq ▸ by decide)
  have hline : ch ≠ '\n' := fun heq => hcontrol (heq ▸ by decide)
  have hreturn : ch ≠ '\r' := fun heq => hcontrol (heq ▸ by decide)
  have htab : ch ≠ '\t' := fun heq => hcontrol (heq ▸ by decide)
  unfold escapeChar
  rw [if_neg hquote, if_neg hslash, if_neg hline, if_neg hreturn, if_neg htab,
    if_neg (by omega), if_neg (by omega), if_neg hcontrol]

theorem escape_of_verbatim {chars : List Char} (h : ∀ ch ∈ chars, Verbatim ch) :
    escape chars = chars := by
  induction chars with
  | nil => rfl
  | cons ch chars ih =>
    rw [escape_cons, (h ch List.mem_cons_self).escapeChar_eq,
      ih fun c hc => h c (List.mem_cons_of_mem _ hc)]
    rfl

theorem Verbatim.eq_of_mem {c ch : Char} (h : Verbatim c) (hc : c ∈ escapeChar ch) : ch = c := by
  rcases escapeChar_subset ch with hself | hmarks
  · rw [hself] at hc
    exact (List.mem_singleton.mp hc).symm
  · exact absurd (hmarks c hc) h.1

/-- **Where a text occurs in an escaped string**, it occurs in the string. -/
theorem escape_eq_append {sub : List Char} (hsub : sub ≠ []) (hverbatim : ∀ ch ∈ sub, Verbatim ch)
    {chars before after : List Char} (h : escape chars = before ++ sub ++ after) :
    ∃ x y, chars = x ++ sub ++ y ∧ before = escape x ∧ after = escape y := by
  induction chars generalizing before sub with
  | nil =>
    have hnil := (List.append_eq_nil_iff.mp (List.append_eq_nil_iff.mp h.symm).1).2
    exact absurd hnil hsub
  | cons ch chars ih =>
    rw [escape_cons, List.append_assoc] at h
    rcases List.append_eq_append_iff.mp h with ⟨v, rfl, hv⟩ | ⟨v, hch, hv⟩
    · obtain ⟨x, y, rfl, rfl, rfl⟩ := ih hsub hverbatim (hv.trans (List.append_assoc _ _ _).symm)
      exact ⟨ch :: x, y, rfl, rfl, rfl⟩
    · cases v with
      | nil =>
        rw [List.append_nil] at hch
        have hfront : escape chars = [] ++ sub ++ after := hv.symm
        obtain ⟨x, y, rfl, hx, rfl⟩ := ih hsub hverbatim hfront
        exact ⟨ch :: x, y, rfl, by rw [escape_cons, ← hx, hch, List.append_nil], rfl⟩
      | cons c v =>
        cases sub with
        | nil => exact absurd rfl hsub
        | cons d sub =>
          -- The first character of the text is the one that is escaped.
          obtain ⟨rfl, htail⟩ := List.cons.inj hv
          have hd := hverbatim d List.mem_cons_self
          obtain rfl := hd.eq_of_mem (hch ▸ List.mem_append_right _ List.mem_cons_self)
          rw [hd.escapeChar_eq] at hch
          obtain ⟨rfl, rfl⟩ : before = [] ∧ v = [] := by
            cases before with
            | nil => exact ⟨rfl, (List.cons.inj hch).2.symm⟩
            | cons _ before => simp at hch
          by_cases htail' : sub = []
          · subst htail'
            exact ⟨[], chars, rfl, rfl, by simpa using htail⟩
          · have hfront : escape chars = [] ++ sub ++ after := htail.symm
            obtain ⟨x, y, rfl, hx, rfl⟩ := ih htail'
              (fun ch hch => hverbatim ch (List.mem_cons_of_mem _ hch)) hfront
            cases x with
            | nil => exact ⟨[], y, rfl, rfl, rfl⟩
            | cons c x =>
              exact absurd (List.append_eq_nil_iff.mp hx.symm).1 (escapeChar_ne_nil c)

end Foundation
