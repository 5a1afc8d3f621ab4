import Portex.Foundation.Json
import Mathlib.Data.Char
import Mathlib.Data.List.Lex
import Mathlib.Data.List.Sort

/-!
# Writing JSON

A writer of JSON texts with sorted names and an indent of two, and the proof that the reader gives
back what it has written, up to the order of the names.

## Main definitions

* `Json.sorted`: a value with the members of its objects in the order of their names
* `render`, `dumps`: the text of a value
* `Json.Written`: the values whose numbers are written as numbers

## Main results

* `parseValue_render`: a value that was written is read back, whatever follows it
* `loads_dumps`: a text that was written is read as the sorted value
* `cr_notMem_render`: no text that is written holds a carriage return
* `Json.sorted_sorted`: sorting is idempotent
-/

namespace Foundation

/-! ## Sorting -/

/-- The order of the names of members. -/
def nameLE (member member' : List Char × Json) : Prop := member.1 ≤ member'.1

instance : DecidableRel nameLE := fun member member' =>
  inferInstanceAs (Decidable (member.1 ≤ member'.1))

mutual

/-- The value with the members of its objects in the order of their names. -/
def Json.sorted : Json → Json
  | .array items => .array (sortedItems items)
  | .object members => .object ((sortedMembers members).insertionSort nameLE)
  | .null => .null
  | .bool value => .bool value
  | .number digits => .number digits
  | .str chars => .str chars

def sortedItems : List Json → List Json
  | [] => []
  | item :: items => item.sorted :: sortedItems items

def sortedMembers : List (List Char × Json) → List (List Char × Json)
  | [] => []
  | (name, value) :: members => (name, value.sorted) :: sortedMembers members

end

/-! ## Writing -/

/-- A new line at a level of indentation. -/
def newline (level : ℕ) : List Char := '\n' :: List.replicate (2 * level) ' '

mutual

/-- The text of a value at a level of indentation. -/
def render (level : ℕ) : Json → List Char
  | .null => "null".toList
  | .bool value => if value then "true".toList else "false".toList
  | .number digits => digits
  | .str chars => quoted chars
  | .array [] => ['[', ']']
  | .array (item :: items) => '[' :: renderItems (level + 1) (item :: items) ++ newline level ++ [']']
  | .object [] => ['\x7b', '\x7d']
  | .object (member :: members) =>
    '\x7b' :: renderMembers (level + 1) (member :: members) ++ newline level ++ ['\x7d']

/-- The items of an array, each on its own line. -/
def renderItems (level : ℕ) : List Json → List Char
  | [] => []
  | [item] => newline level ++ render level item
  | item :: items => newline level ++ render level item ++ ',' :: renderItems level items

/-- The members of an object, each on its own line. -/
def renderMembers (level : ℕ) : List (List Char × Json) → List Char
  | [] => []
  | [(name, value)] => newline level ++ quoted name ++ ':' :: ' ' :: render level value
  | (name, value) :: members =>
    newline level ++ quoted name ++ ':' :: ' ' :: render level value ++
      ',' :: renderMembers level members

end

/-- `json.dumps(value, ensure_ascii=False, indent=2, sort_keys=True)`. -/
def dumps (value : Json) : List Char := render 0 value.sorted

/-- The text of a number, or a constant that stands for one. -/
def IsNumber (digits : List Char) : Prop :=
  (digits ≠ [] ∧ numberOf digits = digits) ∨
    digits ∈ ["NaN".toList, "Infinity".toList, "-Infinity".toList]

instance : DecidablePred IsNumber := fun digits =>
  inferInstanceAs (Decidable ((digits ≠ [] ∧ numberOf digits = digits) ∨ _))

mutual

/-- The numbers of the value are written as numbers. -/
def Json.Written : Json → Prop
  | .number digits => IsNumber digits
  | .array items => WrittenItems items
  | .object members => WrittenMembers members
  | _ => True

def WrittenItems : List Json → Prop
  | [] => True
  | item :: items => item.Written ∧ WrittenItems items

def WrittenMembers : List (List Char × Json) → Prop
  | [] => True
  | (_, value) :: members => value.Written ∧ WrittenMembers members

end

/-! ## Sorted values -/

theorem writtenMembers_iff {members : List (List Char × Json)} :
    WrittenMembers members ↔ ∀ member ∈ members, member.2.Written := by
  induction members with
  | nil => simp [WrittenMembers]
  | cons member members ih => simp [WrittenMembers, ih]

theorem sortedMembers_eq (members : List (List Char × Json)) :
    sortedMembers members = members.map fun member => (member.1, member.2.sorted) := by
  induction members with
  | nil => rfl
  | cons member members ih => simp [sortedMembers, ih]

theorem sortedItems_eq (items : List Json) : sortedItems items = items.map Json.sorted := by
  induction items with
  | nil => rfl
  | cons item items ih => simp [sortedItems, ih]

instance : Std.Total nameLE := ⟨fun member member' => le_total member.1 member'.1⟩

instance : IsTrans (List Char × Json) nameLE :=
  ⟨fun _ _ _ h h' => le_trans (α := List Char) h h'⟩

mutual

theorem Json.Written.sorted {value : Json} (h : value.Written) : value.sorted.Written := by
  match value with
  | .null | .bool _ | .str _ => trivial
  | .number _ => exact h
  | .array items => exact writtenItems_sorted h
  | .object members =>
    show WrittenMembers ((sortedMembers members).insertionSort nameLE)
    rw [writtenMembers_iff]
    intro member hmember
    rw [List.mem_insertionSort] at hmember
    exact writtenMembers_iff.mp (writtenMembers_sorted h) member hmember

theorem writtenItems_sorted {items : List Json} (h : WrittenItems items) :
    WrittenItems (sortedItems items) := by
  match items with
  | [] => trivial
  | item :: items => exact ⟨h.1.sorted, writtenItems_sorted h.2⟩

theorem writtenMembers_sorted {members : List (List Char × Json)} (h : WrittenMembers members) :
    WrittenMembers (sortedMembers members) := by
  match members with
  | [] => trivial
  | (name, value) :: members => exact ⟨h.1.sorted, writtenMembers_sorted h.2⟩

end

/-- The order of the names is that of the names alone. -/
theorem insertionSort_map {f : Json → Json} (members : List (List Char × Json)) :
    (members.map fun member => (member.1, f member.2)).insertionSort nameLE =
      (members.insertionSort nameLE).map fun member => (member.1, f member.2) := by
  symm
  apply List.map_insertionSort
  intro member _ member' _
  rfl

mutual

/-- **Sorting is idempotent.** -/
theorem Json.sorted_sorted (value : Json) : value.sorted.sorted = value.sorted := by
  match value with
  | .null | .bool _ | .number _ | .str _ => rfl
  | .array items => exact congrArg Json.array (sortedItems_sorted items)
  | .object members =>
    show Json.object ((sortedMembers ((sortedMembers members).insertionSort nameLE)).insertionSort
      nameLE) = Json.object ((sortedMembers members).insertionSort nameLE)
    rw [sortedMembers_eq, ← insertionSort_map, ← sortedMembers_eq, sortedMembers_sorted,
      (List.pairwise_insertionSort nameLE _).insertionSort_eq]

theorem sortedItems_sorted (items : List Json) :
    sortedItems (sortedItems items) = sortedItems items := by
  match items with
  | [] => rfl
  | item :: items => simp only [sortedItems, item.sorted_sorted, sortedItems_sorted items]

theorem sortedMembers_sorted (members : List (List Char × Json)) :
    sortedMembers (sortedMembers members) = sortedMembers members := by
  match members with
  | [] => rfl
  | (name, value) :: members =>
    simp only [sortedMembers, value.sorted_sorted, sortedMembers_sorted members]

end

/-! ## Where a number ends -/

/-- No number goes on into the text. -/
def Stops (text : List Char) : Prop := ∀ ch ∈ text.head?, isNumeric ch = false

theorem Stops.cons {ch : Char} (h : isNumeric ch = false) (text : List Char) :
    Stops (ch :: text) := by
  rintro _ ⟨⟩
  exact h

theorem not_isDigit_of_isNumeric {ch : Char} (h : isNumeric ch = false) : ch.isDigit = false := by
  simp only [isNumeric, Bool.or_eq_false_iff] at h
  exact h.1

variable {rest : List Char}

theorem digitsOf_append (hstops : Stops rest) (text : List Char) :
    digitsOf (text ++ rest) = digitsOf text := by
  induction text with
  | nil =>
    cases rest with
    | nil => rfl
    | cons ch rest =>
      have hdigit := not_isDigit_of_isNumeric (hstops ch rfl)
      simp [digitsOf, hdigit]
  | cons ch text ih =>
    unfold digitsOf at ih ⊢
    rw [List.cons_append, List.takeWhile_cons, List.takeWhile_cons, ih]

theorem integerOf_of_ne {ch : Char} (h : ch ≠ '0') (text : List Char) :
    integerOf (ch :: text) = digitsOf (ch :: text) := by
  unfold integerOf
  split
  · rename_i heq
    exact absurd (List.cons.inj heq).1 h
  · rfl

theorem integerOf_append (hstops : Stops rest) (text : List Char) :
    integerOf (text ++ rest) = integerOf text := by
  cases text with
  | nil =>
    cases rest with
    | nil => rfl
    | cons ch rest =>
      have hzero : ch ≠ '0' := by
        rintro rfl
        exact absurd (hstops '0' rfl) (by decide)
      rw [List.nil_append, integerOf_of_ne hzero]
      exact digitsOf_append hstops []
  | cons ch text =>
    by_cases hzero : ch = '0'
    · rw [hzero]
      rfl
    · rw [List.cons_append, integerOf_of_ne hzero, integerOf_of_ne hzero]
      exact digitsOf_append hstops (ch :: text)

theorem sign_append {signs : List Char} (hsigns : ∀ ch ∈ signs, isNumeric ch = true)
    (hstops : Stops rest) (text : List Char) :
    ((text ++ rest).take 1).filter (· ∈ signs) = (text.take 1).filter (· ∈ signs) := by
  cases text with
  | cons ch text => rfl
  | nil =>
    cases rest with
    | nil => rfl
    | cons ch rest =>
      have hsign : ch ∉ signs := by
        intro hmem
        exact absurd (hstops ch rfl) (by simp [hsigns ch hmem])
      simp [hsign]

theorem drop_append_of_isPre {token text : List Char} (h : token <+: text) :
    (text ++ rest).drop token.length = text.drop token.length ++ rest :=
  List.drop_append_of_le_length h.length_le

theorem partOf_append {marks signs : List Char} (hmarks : ∀ ch ∈ marks, isNumeric ch = true)
    (hsigns : ∀ ch ∈ signs, isNumeric ch = true) (hstops : Stops rest) (text : List Char) :
    partOf marks signs (text ++ rest) = partOf marks signs text := by
  cases text with
  | nil =>
    cases rest with
    | nil => rfl
    | cons ch rest =>
      have hmark : ch ∉ marks := by
        intro hmem
        exact absurd (hstops ch rfl) (by simp [hmarks ch hmem])
      simp [partOf, hmark]
  | cons mark text =>
    simp only [List.cons_append, partOf, sign_append hsigns hstops text]
    rw [drop_append_of_isPre (numericPrefix_sign hsigns text).1, digitsOf_append hstops]

/-- A number is read up to its end. -/
theorem numberOf_append (hstops : Stops rest) (text : List Char) :
    numberOf (text ++ rest) = numberOf text := by
  have hminus : ∀ ch ∈ ['-'], isNumeric ch = true := forall_of_all (by decide)
  have hpoint : ∀ ch ∈ ['.'], isNumeric ch = true := forall_of_all (by decide)
  have hexponent : ∀ ch ∈ ['e', 'E'], isNumeric ch = true := forall_of_all (by decide)
  have hsigns : ∀ ch ∈ ['-', '+'], isNumeric ch = true := forall_of_all (by decide)
  have hnone : ∀ ch ∈ ([] : List Char), isNumeric ch = true := fun _ hch => by cases hch
  have hsign : NumericPrefix ((text.take 1).filter (· = '-')) text := by
    simpa using numericPrefix_sign hminus text
  have hsign' : ((text ++ rest).take 1).filter (· = '-') = (text.take 1).filter (· = '-') := by
    simpa using sign_append hminus hstops text
  have hinteger := hsign.append (numericPrefix_integerOf (text.drop _))
  have hfraction := hinteger.append (numericPrefix_partOf hpoint hnone (text.drop _))
  simp only [numberOf, hsign', drop_append_of_isPre hsign.1, integerOf_append hstops,
    drop_append_of_isPre hinteger.1, partOf_append hpoint hnone hstops,
    drop_append_of_isPre hfraction.1, partOf_append hexponent hsigns hstops]

/-! ## What is written is read back -/

theorem parseToken_of_ne (token : String) {c ch : Char} {chars : List Char}
    (htoken : token.toList = c :: chars) (h : c ≠ ch) (text : List Char) :
    parseToken token (ch :: text) = none := by
  simp [parseToken, htoken, List.isPrefixOf, h]

theorem parseToken_append (token : String) (text : List Char) :
    parseToken token (token.toList ++ text) = some text := by
  have hinitial : token.toList.isPrefixOf (token.toList ++ text) = true :=
    List.isPrefixOf_iff_prefix.mpr (List.prefix_append _ _)
  rw [parseToken, if_pos hinitial, List.drop_left]

/-- The first character of a number. -/
theorem head_of_numberOf {digits : List Char} (hne : digits ≠ []) (h : numberOf digits = digits) :
    ∃ ch tail, digits = ch :: tail ∧ isNumeric ch = true := by
  obtain ⟨ch, tail, rfl⟩ := List.exists_cons_of_ne_nil hne
  refine ⟨ch, tail, rfl, ?_⟩
  have hnumeric := (numericPrefix_numberOf (ch :: tail)).2 ch
  rw [h] at hnumeric
  exact hnumeric List.mem_cons_self

theorem ne_of_isNumeric {ch c : Char} (h : isNumeric ch = true) (hc : isNumeric c = false) :
    c ≠ ch := by
  rintro rfl
  rw [h] at hc
  cases hc

/-- What does not start as a word is a number or one of the constants. -/
theorem parseAtom_of_ne {ch : Char} (hnull : 'n' ≠ ch) (htrue : 't' ≠ ch) (hfalse : 'f' ≠ ch)
    (text : List Char) :
    parseAtom (ch :: text) = (parseNumber (ch :: text) <|>
      ((parseToken "NaN" (ch :: text)).map fun rest => (Json.number "NaN".toList, rest)) <|>
      ((parseToken "Infinity" (ch :: text)).map fun rest =>
        (Json.number "Infinity".toList, rest)) <|>
      ((parseToken "-Infinity" (ch :: text)).map fun rest =>
        (Json.number "-Infinity".toList, rest))) := by
  simp [parseAtom, parseToken_of_ne "null" rfl hnull, parseToken_of_ne "true" rfl htrue,
    parseToken_of_ne "false" rfl hfalse]

theorem parseAtom_number {digits : List Char} (h : IsNumber digits) (hstops : Stops rest) :
    parseAtom (digits ++ rest) = some (.number digits, rest) := by
  rcases h with ⟨hne, hnumber⟩ | hconstant
  · obtain ⟨ch, tail, hcons, hch⟩ := head_of_numberOf hne hnumber
    have hparse : parseNumber (digits ++ rest) = some (.number digits, rest) := by
      simp [parseNumber, numberOf_append hstops, hnumber, hne]
    rw [hcons, List.cons_append] at hparse ⊢
    rw [parseAtom_of_ne (ne_of_isNumeric hch (by decide)) (ne_of_isNumeric hch (by decide))
      (ne_of_isNumeric hch (by decide)), hparse]
    rfl
  · -- No constant is a number, or starts as another constant.
    have hnumber {text : List Char} (h : numberOf text = []) :
        parseNumber (text ++ rest) = none := by
      rw [parseNumber, numberOf_append hstops, if_pos h]
    simp only [List.mem_cons, List.not_mem_nil, or_false] at hconstant
    rcases hconstant with rfl | rfl | rfl
    · have hself := parseToken_append "NaN" rest
      have hnone : parseNumber ("NaN".toList ++ rest) = none := hnumber (by decide)
      simp only [String.reduceToList, List.cons_append, List.nil_append] at hself hnone ⊢
      rw [parseAtom_of_ne (by decide) (by decide) (by decide), hnone, hself]
      rfl
    · have hself := parseToken_append "Infinity" rest
      have hnone : parseNumber ("Infinity".toList ++ rest) = none := hnumber (by decide)
      simp only [String.reduceToList, List.cons_append, List.nil_append] at hself hnone ⊢
      rw [parseAtom_of_ne (by decide) (by decide) (by decide), hnone, hself,
        parseToken_of_ne "NaN" rfl (by decide)]
      rfl
    · have hself := parseToken_append "-Infinity" rest
      have hnone : parseNumber ("-Infinity".toList ++ rest) = none := hnumber (by decide)
      simp only [String.reduceToList, List.cons_append, List.nil_append] at hself hnone ⊢
      rw [parseAtom_of_ne (by decide) (by decide) (by decide), hnone, hself,
        parseToken_of_ne "NaN" rfl (by decide), parseToken_of_ne "Infinity" rfl (by decide)]
      rfl

theorem skipSpace_newline (level : ℕ) (text : List Char) :
    skipSpace (newline level ++ text) = skipSpace text := by
  have hspaces (n : ℕ) : skipSpace (List.replicate n ' ' ++ text) = skipSpace text := by
    induction n with
    | zero => rfl
    | succ n ih => exact ih
  exact hspaces (2 * level)

/-- The text of a value does not start with a space, and not as the end of an array. -/
theorem render_head {value : Json} (h : value.Written) (level : ℕ) :
    ∃ ch tail, render level value = ch :: tail ∧ isJsonSpace ch = false ∧ ch ≠ ']' := by
  cases value with
  | null => exact ⟨'n', _, rfl, by decide, by decide⟩
  | bool value =>
    cases value with
    | false => exact ⟨'f', _, rfl, by decide, by decide⟩
    | true => exact ⟨'t', _, rfl, by decide, by decide⟩
  | str chars => exact ⟨'"', _, rfl, by decide, by decide⟩
  | array items => cases items <;> exact ⟨'[', _, rfl, by decide, by decide⟩
  | object members => cases members <;> exact ⟨'\x7b', _, rfl, by decide, by decide⟩
  | number digits =>
    rcases h with ⟨hne, hnumber⟩ | hconstant
    · obtain ⟨ch, tail, hcons, hch⟩ := head_of_numberOf hne hnumber
      refine ⟨ch, tail, hcons, ?_, (ne_of_isNumeric hch (by decide)).symm⟩
      rw [Bool.eq_false_iff]
      intro hspace
      simp only [isJsonSpace, Bool.or_eq_true, decide_eq_true_eq] at hspace
      rcases hspace with ((rfl | rfl) | rfl) | rfl <;> exact absurd hch (by decide)
    · simp only [List.mem_cons, List.not_mem_nil, or_false] at hconstant
      rcases hconstant with rfl | rfl | rfl
      · exact ⟨'N', _, rfl, by decide, by decide⟩
      · exact ⟨'I', _, rfl, by decide, by decide⟩
      · exact ⟨'-', _, rfl, by decide, by decide⟩

theorem skipSpace_render {value : Json} (h : value.Written) (level : ℕ) (text : List Char) :
    skipSpace (render level value ++ text) = render level value ++ text := by
  obtain ⟨ch, tail, hrender, hspace, -⟩ := render_head h level
  rw [hrender]
  exact skipSpace_of_head hspace _

theorem parseValue_atom {ch : Char} (hquote : ch ≠ '"') (hbrace : ch ≠ '\x7b') (hbracket : ch ≠ '[')
    (fuel : ℕ) (text : List Char) : parseValue (fuel + 1) (ch :: text) = parseAtom (ch :: text) := by
  simp [parseValue, hquote, hbrace, hbracket]

theorem parseValue_number {digits : List Char} (h : IsNumber digits) (hstops : Stops rest)
    (fuel : ℕ) : parseValue (fuel + 1) (digits ++ rest) = some (.number digits, rest) := by
  have hatom := parseAtom_number h hstops
  rcases h with ⟨hne, hnumber⟩ | hconstant
  · obtain ⟨ch, tail, hcons, hch⟩ := head_of_numberOf hne hnumber
    rw [hcons, List.cons_append] at hatom ⊢
    rw [parseValue_atom (ne_of_isNumeric hch (by decide)).symm
      (ne_of_isNumeric hch (by decide)).symm (ne_of_isNumeric hch (by decide)).symm, hatom]
  · simp only [List.mem_cons, List.not_mem_nil, or_false] at hconstant
    rcases hconstant with rfl | rfl | rfl <;>
      exact (parseValue_atom (by decide) (by decide) (by decide) fuel _).trans hatom

/-- The items of an array start with the first of them. -/
theorem renderItems_cons (level : ℕ) (item : Json) (items : List Json) :
    ∃ tail, renderItems level (item :: items) = newline level ++ render level item ++ tail := by
  cases items with
  | nil => exact ⟨[], by simp [renderItems]⟩
  | cons next items => exact ⟨',' :: renderItems level (next :: items), by simp [renderItems]⟩

theorem renderMembers_cons (level : ℕ) (member : List Char × Json)
    (members : List (List Char × Json)) :
    ∃ tail, renderMembers level (member :: members) = newline level ++ quoted member.1 ++ tail := by
  cases members with
  | nil => exact ⟨':' :: ' ' :: render level member.2, by simp [renderMembers]⟩
  | cons next members =>
    exact ⟨':' :: ' ' :: render level member.2 ++ ',' :: renderMembers level (next :: members),
      by simp [renderMembers]⟩

theorem length_newline (level : ℕ) : 0 < (newline level).length := by
  simp [newline]

mutual

/-- **A value that was written is read back**, where the text that follows does not go on with a
number. -/
theorem parseValue_render {value : Json} (h : value.Written) (fuel level : ℕ) {rest : List Char}
    (hstops : Stops rest) (hfuel : (render level value).length ≤ fuel) :
    parseValue fuel (render level value ++ rest) = some (value, rest) := by
  obtain ⟨ch, tail, hrender, -, -⟩ := render_head h level
  obtain ⟨fuel, rfl⟩ : ∃ n, fuel = n + 1 := by
    rw [hrender, List.length_cons] at hfuel
    exact ⟨fuel - 1, by omega⟩
  match value with
  | .null => exact parseValue_atom (by decide) (by decide) (by decide) fuel _
  | .bool true => exact parseValue_atom (by decide) (by decide) (by decide) fuel _
  | .bool false => exact parseValue_atom (by decide) (by decide) (by decide) fuel _
  | .number digits => exact parseValue_number h hstops fuel
  | .str chars =>
    have hlength := length_le_escape chars
    simp only [render, quoted, List.length_cons, List.length_append, List.length_nil] at hfuel
    exact parseValue_quoted chars (by omega) rest
  | .array [] =>
    have hend : expect ']' (skipSpace (']' :: rest)) = some rest := by
      rw [skipSpace_of_head (by decide)]
      simp [expect]
    show parseValue (fuel + 1) ('[' :: ']' :: rest) = _
    simp [parseValue, hend]
  | .array (item :: items) =>
    have hitems := parseItems_render (List.cons_ne_nil item items) h fuel (level + 1) level rest
      (by
        simp only [render, List.length_cons, List.length_append] at hfuel
        omega)
    -- The array does not end where its first item starts.
    have hstart : expect ']' (skipSpace (renderItems (level + 1) (item :: items) ++
        (newline level ++ ']' :: rest))) = none := by
      obtain ⟨tail, htail⟩ := renderItems_cons (level + 1) item items
      obtain ⟨ch, chars, hhead, hspace, hch⟩ := render_head h.1 (level + 1)
      rw [htail, List.append_assoc, List.append_assoc, skipSpace_newline, hhead, List.cons_append,
        skipSpace_of_head hspace]
      simp [expect, hch]
    have htext : render level (.array (item :: items)) ++ rest =
        '[' :: (renderItems (level + 1) (item :: items) ++ (newline level ++ ']' :: rest)) := by
      simp [render]
    rw [htext]
    simp [parseValue, hstart, hitems]
  | .object [] =>
    have hend : expect '\x7d' (skipSpace ('\x7d' :: rest)) = some rest := by
      rw [skipSpace_of_head (by decide)]
      simp [expect]
    show parseValue (fuel + 1) ('\x7b' :: '\x7d' :: rest) = _
    simp [parseValue, hend]
  | .object (member :: members) =>
    have hmembers := parseMembers_render (List.cons_ne_nil member members) h fuel (level + 1) level
      rest (by
        simp only [render, List.length_cons, List.length_append] at hfuel
        omega)
    have hstart : expect '\x7d' (skipSpace (renderMembers (level + 1) (member :: members) ++
        (newline level ++ '\x7d' :: rest))) = none := by
      obtain ⟨tail, htail⟩ := renderMembers_cons (level + 1) member members
      rw [htail, List.append_assoc, List.append_assoc, skipSpace_newline, skipSpace_quoted]
      simp [quoted, expect]
    have htext : render level (.object (member :: members)) ++ rest =
        '\x7b' :: (renderMembers (level + 1) (member :: members) ++
          (newline level ++ '\x7d' :: rest)) := by
      simp [render]
    rw [htext]
    simp [parseValue, hstart, hmembers]

theorem parseItems_render {items : List Json} (hne : items ≠ []) (h : WrittenItems items)
    (fuel level outer : ℕ) (rest : List Char) (hfuel : (renderItems level items).length ≤ fuel) :
    parseItems fuel (skipSpace (renderItems level items ++ (newline outer ++ ']' :: rest))) =
      some (items, rest) := by
  match items with
  | [item] =>
    have hnewline := length_newline level
    simp only [renderItems, List.length_append] at hfuel
    obtain ⟨fuel, rfl⟩ : ∃ n, fuel = n + 1 := ⟨fuel - 1, by omega⟩
    have hstops : Stops (newline outer ++ ']' :: rest) := .cons (by decide) _
    have hvalue := parseValue_render h.1 fuel level hstops (by omega)
    have hend : expect ']' (skipSpace (newline outer ++ ']' :: rest)) = some rest := by
      rw [skipSpace_newline, skipSpace_of_head (by decide)]
      simp [expect]
    rw [renderItems, List.append_assoc, skipSpace_newline, skipSpace_render h.1]
    simp [parseItems, hvalue, hend]
  | item :: next :: items =>
    have hnewline := length_newline level
    simp only [renderItems, List.length_append, List.length_cons] at hfuel
    obtain ⟨fuel, rfl⟩ : ∃ n, fuel = n + 1 := ⟨fuel - 1, by omega⟩
    have hstops : Stops (',' :: (renderItems level (next :: items) ++
        (newline outer ++ ']' :: rest))) := .cons (by decide) _
    have hvalue := parseValue_render h.1 fuel level hstops (by omega)
    have hitems := parseItems_render (List.cons_ne_nil next items) h.2 fuel level outer rest
      (by omega)
    have hend : expect ']' (skipSpace (',' :: (renderItems level (next :: items) ++
        (newline outer ++ ']' :: rest)))) = none := by
      rw [skipSpace_of_head (by decide)]
      simp [expect]
    have hcomma : expect ',' (skipSpace (',' :: (renderItems level (next :: items) ++
        (newline outer ++ ']' :: rest)))) =
          some (renderItems level (next :: items) ++ (newline outer ++ ']' :: rest)) := by
      rw [skipSpace_of_head (by decide)]
      simp [expect]
    have htext : renderItems level (item :: next :: items) ++ (newline outer ++ ']' :: rest) =
        newline level ++ (render level item ++ ',' ::
          (renderItems level (next :: items) ++ (newline outer ++ ']' :: rest))) := by
      simp [renderItems]
    rw [htext, skipSpace_newline, skipSpace_render h.1]
    simp [parseItems, hvalue, hend, hcomma, hitems]

theorem parseMembers_render {members : List (List Char × Json)} (hne : members ≠ [])
    (h : WrittenMembers members) (fuel level outer : ℕ) (rest : List Char)
    (hfuel : (renderMembers level members).length ≤ fuel) :
    parseMembers fuel (skipSpace (renderMembers level members ++
      (newline outer ++ '\x7d' :: rest))) = some (members, rest) := by
  match members with
  | [(name, value)] =>
    have hnewline := length_newline level
    have hname := length_le_escape name
    simp only [renderMembers, quoted, List.length_append, List.length_cons, List.length_nil] at hfuel
    obtain ⟨fuel, rfl⟩ : ∃ n, fuel = n + 1 := ⟨fuel - 1, by omega⟩
    have hstops : Stops (newline outer ++ '\x7d' :: rest) := .cons (by decide) _
    have hvalue := parseValue_render h.1 fuel level hstops (by omega)
    have hspace : skipSpace (' ' :: (render level value ++ (newline outer ++ '\x7d' :: rest))) =
        render level value ++ (newline outer ++ '\x7d' :: rest) :=
      skipSpace_render h.1 level _
    have hafter : skipSpace (newline outer ++ '\x7d' :: rest) = '\x7d' :: rest := by
      rw [skipSpace_newline, skipSpace_of_head (by decide)]
    have htext : renderMembers level [(name, value)] ++ (newline outer ++ '\x7d' :: rest) =
        newline level ++ (quoted name ++
          ':' :: ' ' :: (render level value ++ (newline outer ++ '\x7d' :: rest))) := by
      simp [renderMembers]
    rw [htext, skipSpace_newline, skipSpace_quoted]
    exact parseMembers_last (by omega) (by rw [hspace, hvalue]) hafter
  | (name, value) :: next :: members =>
    have hnewline := length_newline level
    have hname := length_le_escape name
    simp only [renderMembers, quoted, List.length_append, List.length_cons, List.length_nil] at hfuel
    obtain ⟨fuel, rfl⟩ : ∃ n, fuel = n + 1 := ⟨fuel - 1, by omega⟩
    have hstops : Stops (',' :: (renderMembers level (next :: members) ++
        (newline outer ++ '\x7d' :: rest))) := .cons (by decide) _
    have hvalue := parseValue_render h.1 fuel level hstops (by omega)
    have hmembers := parseMembers_render (List.cons_ne_nil next members) h.2 fuel level outer rest
      (by omega)
    have hspace : skipSpace (' ' :: (render level value ++ ',' ::
        (renderMembers level (next :: members) ++ (newline outer ++ '\x7d' :: rest)))) =
          render level value ++ ',' ::
            (renderMembers level (next :: members) ++ (newline outer ++ '\x7d' :: rest)) :=
      skipSpace_render h.1 level _
    have htext : renderMembers level ((name, value) :: next :: members) ++
        (newline outer ++ '\x7d' :: rest) =
          newline level ++ (quoted name ++ ':' :: ' ' :: (render level value ++ ',' ::
            (renderMembers level (next :: members) ++ (newline outer ++ '\x7d' :: rest)))) := by
      simp [renderMembers]
    rw [htext, skipSpace_newline, skipSpace_quoted,
      parseMembers_cons (by omega) (by rw [hspace, hvalue]) (skipSpace_of_head (by decide) _),
      hmembers]
    rfl

end

/-- **A text that was written is read as the sorted value**, also with a new line at its end. -/
theorem loads_dumps {value : Json} (h : value.Written) :
    loads (dumps value ++ ['\n']) = some value.sorted := by
  have hstops : Stops ['\n'] := .cons (by decide) _
  have hparse := parseValue_render h.sorted ((dumps value ++ ['\n']).length + 1) 0 hstops (by
    simp only [dumps, List.length_append]
    omega)
  rw [loads, dumps, skipSpace_render h.sorted, ← dumps]
  rw [← dumps] at hparse
  rw [hparse]
  rfl

/-! ## Carriage returns -/

theorem cr_notMem_quoted (chars : List Char) : '\r' ∉ quoted chars := by
  have hescape : '\r' ∉ escape chars := by
    intro hmem
    obtain ⟨ch, -, hch⟩ := List.mem_flatMap.mp hmem
    rcases escapeChar_cases ch with ⟨hself, -, hcontrol⟩ | ⟨token, htoken, -⟩
    · rw [hself, List.mem_singleton] at hch
      rw [← hch] at hcontrol
      exact hcontrol (by decide)
    · rcases escapeChar_subset ch with hself | hmarks
      · -- A character that stands for itself is no backslash, as an escape is.
        rw [hself] at htoken hch
        rw [← List.mem_singleton.mp hch] at htoken
        exact absurd (List.cons.inj htoken).1 (by decide)
      · exact absurd (hmarks _ hch) (by decide)
  simp [quoted, hescape]

theorem cr_notMem_number {digits : List Char} (h : IsNumber digits) : '\r' ∉ digits := by
  intro hmem
  rcases h with ⟨-, hnumber⟩ | hconstant
  · have hnumeric := (numericPrefix_numberOf digits).2 '\r'
    rw [hnumber] at hnumeric
    exact absurd (hnumeric hmem) (by decide)
  · simp only [List.mem_cons, List.not_mem_nil, or_false] at hconstant
    rcases hconstant with rfl | rfl | rfl <;> exact absurd hmem (by decide)

theorem cr_notMem_newline (level : ℕ) : '\r' ∉ newline level := by
  simp [newline, List.mem_replicate]

mutual

/-- **Nothing that is written holds a carriage return.** -/
theorem cr_notMem_render {value : Json} (h : value.Written) (level : ℕ) :
    '\r' ∉ render level value := by
  match value with
  | .null | .bool true | .bool false | .array [] | .object [] => simp [render]
  | .number digits => exact cr_notMem_number h
  | .str chars => exact cr_notMem_quoted chars
  | .array (item :: items) =>
    have hitems := cr_notMem_renderItems h (level + 1)
    simp [render, hitems, cr_notMem_newline]
  | .object (member :: members) =>
    have hmembers := cr_notMem_renderMembers h (level + 1)
    simp [render, hmembers, cr_notMem_newline]

theorem cr_notMem_renderItems {items : List Json} (h : WrittenItems items) (level : ℕ) :
    '\r' ∉ renderItems level items := by
  match items with
  | [] => simp [renderItems]
  | [item] =>
    have hitem := cr_notMem_render h.1 level
    simp [renderItems, hitem, cr_notMem_newline]
  | item :: next :: items =>
    have hitem := cr_notMem_render h.1 level
    have hitems := cr_notMem_renderItems h.2 level
    simp [renderItems, hitem, hitems, cr_notMem_newline]

theorem cr_notMem_renderMembers {members : List (List Char × Json)} (h : WrittenMembers members)
    (level : ℕ) : '\r' ∉ renderMembers level members := by
  match members with
  | [] => simp [renderMembers]
  | [(name, value)] =>
    have hvalue := cr_notMem_render h.1 level
    simp [renderMembers, hvalue, cr_notMem_newline, cr_notMem_quoted]
  | (name, value) :: next :: members =>
    have hvalue := cr_notMem_render h.1 level
    have hmembers := cr_notMem_renderMembers h.2 level
    simp [renderMembers, hvalue, hmembers, cr_notMem_newline, cr_notMem_quoted]

end

end Foundation
