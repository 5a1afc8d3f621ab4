import Portex.Foundation.RegexAtoms
import Portex.Foundation.Text
import Portex.Im.Markdown

/-!
# What a message is read as

The regular expressions of `markdown_to_html` read a message as a list of characters and of
fragments set aside, some of them in bold or italics. The text with placeholders is such a reading
with its placeholders shown, whatever the identifiers are.

## Main definitions

* `Node`, `Fragment`, `Styled`: what a message is read as
* `read`: the reading
* `stashOf`: the dictionary of the fragments

## Main results

* `conversion_eq`: the text with placeholders shows the reading
-/

namespace Portex.Markdown

open Foundation TelegramClient

/-! ## Documents -/

/-- Why a fragment is set aside. -/
inductive Kind
  | codeBlock | markdownLink | inlineCode | unsupported
  deriving DecidableEq

inductive Tag
  | b | i | code | pre
  deriving DecidableEq

def Tag.name : Tag → List Char
  | .b => "b".toList
  | .i => "i".toList
  | .code => "code".toList
  | .pre => "pre".toList

inductive Markup
  | opening (tag : Tag)
  | closing (tag : Tag)

def Markup.html : Markup → List Char
  | .opening tag => "<".toList ++ tag.name ++ ">".toList
  | .closing tag => "</".toList ++ tag.name ++ ">".toList

namespace Kind

def label : Kind → List Char
  | codeBlock => "CODE_BLOCK".toList
  | markdownLink => "MARKDOWN_LINK".toList
  | inlineCode => "INLINE_CODE".toList
  | unsupported => "UNSUPPORTED".toList

/-- The part of the match that is shown, or the match. -/
def group : Kind → Option ℕ
  | codeBlock => some 5
  | inlineCode => some 1
  | markdownLink | unsupported => none

def opening : Kind → List Markup
  | codeBlock => [.opening .pre, .opening .code]
  | inlineCode => [.opening .code]
  | markdownLink | unsupported => []

def closing : Kind → List Markup
  | codeBlock => [.closing .code, .closing .pre]
  | inlineCode => [.closing .code]
  | markdownLink | unsupported => []

end Kind

/-- A character, or a fragment set aside, by its number and with its text in the message. -/
inductive Node
  | char (c : Char)
  | held (kind : Kind) (i : ℕ) (source : List Char)

/-- A fragment, and what is around it in the match. -/
structure Fragment where
  kind : Kind
  opening : List Node
  nodes : List Node
  closing : List Node

/-- What is in bold or italics, and what is around it in the match. -/
inductive Styled (ν : Type)
  | plain (a : ν)
  | tagged (tag : Tag) (opening inner closing : List ν)

/-- A part of a match, and what is around it. -/
def cut {ν : Type} (group : Option ℕ) (parts : List (List ν)) : List ν × List ν × List ν :=
  match group with
  | none => ([], parts.flatten, [])
  | some g => ((parts.take g).flatten, parts.getD g [], (parts.drop (g + 1)).flatten)

theorem cut_append {ν : Type} (group : Option ℕ) (parts : List (List ν)) :
    (cut group parts).1 ++ (cut group parts).2.1 ++ (cut group parts).2.2 = parts.flatten := by
  cases group with
  | none => simp [cut]
  | some g =>
    have hsplit : parts.take g ++ [parts.getD g []] ++ parts.drop (g + 1) = parts ∨
        parts.length ≤ g := by
      rcases Nat.lt_or_ge g parts.length with hg | hg
      · left
        rw [List.getD_eq_getElem?_getD, List.getElem?_eq_getElem hg, Option.getD_some,
          List.take_append_getElem, List.take_append_drop]
      · exact .inr hg
    rcases hsplit with hsplit | hg
    · simpa [cut] using congrArg List.flatten hsplit
    · simp [cut, List.take_of_length_le hg, List.getElem?_eq_none hg,
        List.drop_eq_nil_of_le (Nat.le_succ_of_le hg)]

theorem cut_map {ν : Type} (render : ν → List Char) (group : Option ℕ) (parts : List (List ν)) :
    (cut group (parts.map (·.flatMap render))).2.1 = (cut group parts).2.1.flatMap render := by
  cases group with
  | none =>
    simp only [cut]
    rw [← List.flatMap_def, ← List.flatMap_id, List.flatMap_assoc]
    rfl
  | some g =>
    rcases Nat.lt_or_ge g parts.length with hg | hg
    · simp [cut, hg]
    · simp [cut, hg]

/-! ## Rendering -/

namespace Node

def source : Node → List Char
  | char c => [c]
  | held _ _ source => source

variable (token : Kind → ℕ → List Char)

/-- The node before the text is escaped. -/
def raw : Node → List Char
  | char c => [c]
  | held kind i _ => token kind i

/-- The node after that. -/
def shown : Node → List Char
  | char c => htmlEscapeChar c
  | held kind i _ => token kind i

end Node

namespace Styled

variable {ν : Type}

def shown (render : ν → List Char) : Styled ν → List Char
  | plain a => render a
  | tagged tag _ inner _ =>
    (Markup.opening tag).html ++ inner.flatMap render ++ (Markup.closing tag).html

/-- What the element was made from. -/
def leaves : Styled ν → List ν
  | plain a => [a]
  | tagged _ opening inner closing => opening ++ inner ++ closing

end Styled

/-- What takes the place of a placeholder. -/
def Fragment.replacement (token : Kind → ℕ → List Char) (f : Fragment) : List Char :=
  f.kind.opening.flatMap Markup.html ++ f.nodes.flatMap (Node.shown token) ++
    f.kind.closing.flatMap Markup.html

/-! ## The reading -/

/-- The fragment of a match. -/
def fragmentOf (kind : Kind) (parts : List (List Node)) : Fragment where
  kind := kind
  opening := (cut kind.group parts).1
  nodes := (cut kind.group parts).2.1
  closing := (cut kind.group parts).2.2

/-- A match is set aside. -/
def setAside (kind : Kind) (parts : List (List Node)) (fragments : List Fragment) :
    List Node × List Fragment :=
  ([.held kind fragments.length (parts.flatten.flatMap Node.source)],
    fragments ++ [fragmentOf kind parts])

/-- A match is put in bold or italics. -/
def style {ν σ : Type} (tag : Tag) (group : ℕ) (parts : List (List ν)) (s : σ) :
    List (Styled ν) × σ :=
  let split := cut (some group) parts
  ([.tagged tag split.1 split.2.1 split.2.2], s)

/-- A reading shows an at sign for a placeholder: patterns do not look inside it. -/
def atSign (_ : Kind) (_ : ℕ) : List Char := ['@']

/-- What is set aside for a pattern. -/
def passAside (render : Node → List Char) (kind : Kind) (p : Pattern Char)
    (read : List Node × List Fragment) : List Node × List Fragment :=
  (p.lift render).sub id (setAside kind) read.1 read.2

/-- The patterns that set fragments aside, in their order. -/
def setAsideAll (text : List Char) : List Node × List Fragment :=
  let read := passAside (Node.raw atSign) .codeBlock codeBlock (text.map .char, [])
  let read := passAside (Node.raw atSign) .markdownLink markdownLink read
  let read := passAside (Node.shown atSign) .inlineCode inlineCode read
  unsupportedEmphasis.foldl (fun read p => passAside (Node.shown atSign) .unsupported p read) read

/-- What is put in bold or italics for a pattern. -/
def emphasise {ν : Type} (render : ν → List Char) (tag : Tag) (group : ℕ) (p : Pattern Char)
    (read : List ν × List Fragment) : List (Styled ν) × List Fragment :=
  (p.lift render).sub .plain (style tag group) read.1 read.2

def boldAll (text : List Char) : List (Styled Node) × List Fragment :=
  emphasise (Node.shown atSign) .b 2 bold (setAsideAll text)

/-- A message: its nodes in italics and in bold, and the fragments set aside. -/
def read (text : List Char) : List (Styled (Styled Node)) × List Fragment :=
  emphasise (Styled.shown (Node.shown atSign)) .i 1 italic (boldAll text)

/-! ## Placeholders -/

/-- The characters of placeholders. -/
def tokenChars : List Char := "@_ABCDEFGHIJKLMNOPQRSTUVWXYZ0123456789abcdef".toList

/-- The characters that patterns tell from others. -/
def special : List Char := ['`', '*', '\n', '[', ']', '(', ')']

/-- Placeholders that look like those of `store_replacement`. -/
def Opaque (token : Kind → ℕ → List Char) : Prop :=
  ∀ kind i, token kind i ≠ [] ∧ ∀ c ∈ token kind i, c ∈ tokenChars

theorem opaque_atSign : Opaque atSign := fun _ _ =>
  ⟨List.cons_ne_nil _ _, fun c hc => by rw [List.mem_singleton.mp hc]; decide⟩

/-- The placeholders of some identifiers. -/
def tokenOf (uuid4 : ℕ → Uuid) (kind : Kind) (i : ℕ) : List Char :=
  placeholder kind.label (uuid4 i).hex

theorem mem_hex {uuid : Uuid} {c : Char} (h : c ∈ uuid.hex) : c ∈ hexDigits := by
  obtain ⟨d, -, rfl⟩ := List.mem_map.mp h
  exact List.get_mem _ _

theorem opaque_tokenOf (uuid4 : ℕ → Uuid) : Opaque (tokenOf uuid4) := by
  intro kind i
  have hfront : "@@PORTEX_".toList ⊆ tokenChars := by decide +kernel
  have hlabel : kind.label ⊆ tokenChars := by cases kind <;> decide +kernel
  have hmid : "_".toList ⊆ tokenChars := by decide +kernel
  have hhex : hexDigits ⊆ tokenChars := by decide +kernel
  have hback : "@@".toList ⊆ tokenChars := by decide +kernel
  refine ⟨List.append_ne_nil_of_right_ne_nil _ (by decide), fun c hc => ?_⟩
  exact List.append_subset.mpr ⟨List.append_subset.mpr ⟨List.append_subset.mpr
    ⟨List.append_subset.mpr ⟨hfront, hlabel⟩, hmid⟩, fun d hd => hhex (mem_hex hd)⟩, hback⟩ hc

/-- What `html.escape` makes of the characters that it escapes. -/
def entities : List (List Char) :=
  ["&amp;".toList, "&lt;".toList, "&gt;".toList, "&quot;".toList, "&#x27;".toList]

theorem htmlEscapeChar_cases (c : Char) :
    (c ∉ ['<', '>', '&'] ∧ htmlEscapeChar c = [c]) ∨
      htmlEscapeChar c ∈ entities := by
  unfold htmlEscapeChar entities
  split_ifs <;> simp_all

theorem special_of_mem_tokenChars : ∀ c ∈ tokenChars, c ∉ special :=
  forall_of_all (by decide +kernel)

theorem htmlEscapeChar_of_mem_tokenChars : ∀ c ∈ tokenChars, htmlEscapeChar c = [c] :=
  forall_of_all (by decide +kernel)

/-- A rendering of nodes shows a character or what patterns skip, of which placeholders are the
part that another rendering shows otherwise. -/
structure Renders (token : Kind → ℕ → List Char) (render mark : Node → List Char) : Prop where
  held : ∀ kind i source, render (.held kind i source) = token kind i
  ne_nil : ∀ n, render n ≠ []
  cases : ∀ n, (∃ c, render n = [c]) ∨ ∀ c ∈ render n, c ∉ special
  same : ∀ n, SameButHidden (· ∉ special) (render n) (mark n)

section Rendering

variable {token : Kind → ℕ → List Char}

theorem Opaque.sameButHidden (h : Opaque token) (kind : Kind) (i : ℕ) :
    SameButHidden (· ∉ special) (token kind i) (atSign kind i) :=
  .inr ⟨(h kind i).1, List.cons_ne_nil _ _,
    fun c hc => special_of_mem_tokenChars c ((h kind i).2 c hc),
    fun c hc => special_of_mem_tokenChars c ((opaque_atSign kind i).2 c hc)⟩

theorem renders_raw (h : Opaque token) : Renders token (Node.raw token) (Node.raw atSign) where
  held _ _ _ := rfl
  ne_nil
    | .char _ => List.cons_ne_nil _ _
    | .held kind i _ => (h kind i).1
  cases
    | .char c => .inl ⟨c, rfl⟩
    | .held kind i _ => .inr fun c hc => special_of_mem_tokenChars c ((h kind i).2 c hc)
  same
    | .char _ => .inl rfl
    | .held kind i _ => h.sameButHidden kind i

theorem notMem_special_entities :
    ∀ entity ∈ entities, entity ≠ [] ∧ ∀ c ∈ entity, c ∉ special := by
  intro entity h
  have hnonempty : ∀ entity ∈ entities, entity ≠ [] := by decide
  have hflatten : ∀ c ∈ entities.flatten, c ∉ special := forall_of_all (by decide +kernel)
  exact ⟨hnonempty entity h, fun c hc => hflatten c (List.mem_flatten_of_mem h hc)⟩

theorem renders_shown (h : Opaque token) :
    Renders token (Node.shown token) (Node.shown atSign) where
  held _ _ _ := rfl
  ne_nil
    | .char c => by
      rcases htmlEscapeChar_cases c with ⟨-, hc⟩ | hc
      · rw [Node.shown, hc]
        exact List.cons_ne_nil _ _
      · exact (notMem_special_entities _ hc).1
    | .held kind i _ => (h kind i).1
  cases
    | .char c => by
      rcases htmlEscapeChar_cases c with ⟨-, hc⟩ | hc
      · exact .inl ⟨c, hc⟩
      · exact .inr (notMem_special_entities _ hc).2
    | .held kind i _ => .inr fun c hc => special_of_mem_tokenChars c ((h kind i).2 c hc)
  same
    | .char _ => .inl rfl
    | .held kind i _ => h.sameButHidden kind i

/-- Escaping the text escapes its characters. -/
theorem htmlEscape_raw (h : Opaque token) (nodes : List Node) :
    htmlEscape (nodes.flatMap (Node.raw token)) = nodes.flatMap (Node.shown token) := by
  rw [htmlEscape, List.flatMap_assoc]
  refine List.flatMap_congr fun n _ => ?_
  cases n with
  | char c => exact List.append_nil _
  | held kind i source =>
    show (token kind i).flatMap htmlEscapeChar = token kind i
    rw [List.flatMap_congr fun c hc => htmlEscapeChar_of_mem_tokenChars c ((h kind i).2 c hc)]
    exact List.flatMap_singleton' _

/-! ## The dictionary of the fragments -/

/-- The items of `replacements`. -/
def entries (token : Kind → ℕ → List Char) (fragments : List Fragment) :
    List (List Char × List Char) :=
  fragments.zipIdx.map fun (f, i) => (token f.kind i, f.replacement token)

/-- The identifiers drawn and the dictionary of the fragments. -/
def stashOf (token : Kind → ℕ → List Char) (fragments : List Fragment) : Stash where
  calls := fragments.length
  replacements := Dict.ofItems (entries token fragments)

theorem stashOf_append (fragments : List Fragment) (f : Fragment) :
    stashOf token (fragments ++ [f]) =
      { calls := fragments.length + 1
        replacements := (stashOf token fragments).replacements.insert
          (token f.kind fragments.length) (f.replacement token) } := by
  simp [stashOf, entries, Dict.ofItems, Dict.insertAll, List.zipIdx_append]

/-- A replacement is stored where it is what takes the place of the fragment set aside. -/
theorem storeReplacement_eq {uuid4 : ℕ → Uuid} {render mark : Node → List Char} (kind : Kind)
    {parts : List (List Node)} {replacement : List Char} (fragments : List Fragment)
    (hrenders : Renders (tokenOf uuid4) render mark)
    (hreplacement : replacement = kind.opening.flatMap Markup.html ++
      (cut kind.group parts).2.1.flatMap (Node.shown (tokenOf uuid4)) ++
      kind.closing.flatMap Markup.html) :
    storeReplacement uuid4 kind.label replacement (stashOf (tokenOf uuid4) fragments) =
      ((setAside kind parts fragments).1.flatMap render,
        stashOf (tokenOf uuid4) (setAside kind parts fragments).2) := by
  have hheld : (setAside kind parts fragments).1.flatMap render =
      tokenOf uuid4 kind fragments.length := by
    simp [setAside, hrenders.held]
  rw [hheld, setAside, stashOf_append, hreplacement]
  rfl

end Rendering

/-! ## The regular expressions -/

theorem blind_lit {excluded : List Char} {c : Char} (hc : c ∈ excluded) :
    ∀ d, d ∉ excluded → (d == c) = false := by
  intro d hd
  exact beq_false_of_ne (ne_of_mem_of_not_mem hc hd).symm

theorem blind_noneOf {excluded some : List Char} (h : some ⊆ excluded) :
    Blind (· ∉ excluded) (noneOf some) := by
  have hnone (c : Char) (hc : c ∉ excluded) : noneOf some c = true := by
    simpa [noneOf] using fun hmem => hc (h hmem)
  exact fun c d hc hd => (hnone c hc).trans (hnone d hd).symm

theorem skips_lit {excluded : List Char} {c : Char} {pieces : List (Piece Char)}
    (hc : c ∈ excluded) (h : Skips (· ∉ excluded) pieces) :
    Skips (· ∉ excluded) (lit c :: pieces) :=
  ⟨blind_lit hc, h⟩

theorem skips_many {excluded some : List Char} {c : Char} {plus lazy : Bool}
    {pieces : List (Piece Char)} (hsome : some ⊆ excluded)
    (h : Skips (· ∉ excluded) (lit c :: pieces)) :
    Skips (· ∉ excluded) (.many (noneOf some) plus lazy :: lit c :: pieces) :=
  ⟨blind_noneOf hsome, ⟨_, _, rfl⟩, h⟩

theorem blind_is {excluded : List Char} {c : Char} (hc : c ∈ excluded) :
    Blind (· ∉ excluded) (· == c) :=
  fun d e hd he => (blind_lit hc d hd).trans (blind_lit hc e he).symm

theorem visible_lit {p : Pattern Char} {c : Char} {pieces : List (Piece Char)}
    (h : p.pieces = lit c :: pieces) : p.Visible :=
  ⟨_, pieces, h⟩

theorem skips_markdownLink : Skips (· ∉ special) markdownLink.pieces :=
  skips_lit (by decide) <| skips_many (by decide) <| skips_lit (by decide) <|
    skips_lit (by decide) <| skips_many (by decide) <| skips_lit (by decide) trivial

theorem skips_inlineCode : Skips (· ∉ special) inlineCode.pieces :=
  skips_lit (by decide) <| skips_many (by decide) <| skips_lit (by decide) trivial

theorem skips_bold : Skips (· ∉ special) bold.pieces :=
  skips_lit (by decide) <| skips_lit (by decide) <| skips_many (by decide) <|
    skips_lit (by decide) <| skips_lit (by decide) trivial

theorem blind_codeBlock : ∀ piece ∈ codeBlock.pieces, Blind (· ∉ special) piece.accepts := by
  have htick : Blind (· ∉ special) (· == '`') := blind_is (by decide)
  have hline : Blind (· ∉ special) (· == '\n') := blind_is (by decide)
  have hlanguage : Blind (· ∉ special) (noneOf ['\n', '`']) := blind_noneOf (by decide)
  have hany : Blind (· ∉ special) fun _ => true := fun _ _ _ _ => rfl
  simp only [codeBlock, List.forall_mem_cons]
  exact ⟨htick, htick, htick, hlanguage, hline, hany, htick, htick, htick, nofun⟩

/-- Elements in bold may hold more characters. -/
theorem skips_italic : Skips (· ∉ ['*', '\n']) italic.pieces :=
  skips_lit (by decide) <| skips_many (by decide) <| skips_lit (by decide) trivial

/-- What the patterns behind the code blocks have in common. -/
structure Narrow (p : Pattern Char) : Prop where
  visible : p.Visible
  skips : Skips (· ∉ special) p.pieces
  behind : p.behind = fun _ => false
  ahead : p.ahead = fun _ => false

theorem narrow_markdownLink : Narrow markdownLink :=
  ⟨visible_lit rfl, skips_markdownLink, rfl, rfl⟩

theorem narrow_inlineCode : Narrow inlineCode :=
  ⟨visible_lit rfl, skips_inlineCode, rfl, rfl⟩

theorem narrow_unsupportedEmphasis : ∀ p ∈ unsupportedEmphasis, Narrow p := by
  have hfirst : Skips (· ∉ special) (lit '*' :: lit '*' :: lit '*' ::
      .many (noneOf ['\n']) false true :: lit '*' :: lit '*' :: lit '*' :: []) :=
    skips_lit (by decide) <| skips_lit (by decide) <| skips_lit (by decide) <|
      skips_many (by decide) <| skips_lit (by decide) <| skips_lit (by decide) <|
      skips_lit (by decide) trivial
  have hsecond : Skips (· ∉ special) (lit '*' :: .many (noneOf ['*', '\n']) false false ::
      lit '*' :: lit '*' :: .many (noneOf ['\n']) false true :: lit '*' :: lit '*' ::
      .many (noneOf ['*', '\n']) false false :: lit '*' :: []) :=
    skips_lit (by decide) <| skips_many (by decide) <| skips_lit (by decide) <|
      skips_lit (by decide) <| skips_many (by decide) <| skips_lit (by decide) <|
      skips_lit (by decide) <| skips_many (by decide) <| skips_lit (by decide) trivial
  have hthird : Skips (· ∉ special) (lit '*' :: lit '*' ::
      .many (noneOf ['*', '\n']) false false :: lit '*' :: .many (noneOf ['\n']) false true ::
      lit '*' :: .many (noneOf ['*', '\n']) false false :: lit '*' :: lit '*' :: []) :=
    skips_lit (by decide) <| skips_lit (by decide) <| skips_many (by decide) <|
      skips_lit (by decide) <| skips_many (by decide) <| skips_lit (by decide) <|
      skips_many (by decide) <| skips_lit (by decide) <| skips_lit (by decide) trivial
  intro p hp
  rcases List.mem_cons.mp hp with rfl | hp
  · exact ⟨visible_lit rfl, hfirst, rfl, rfl⟩
  rcases List.mem_cons.mp hp with rfl | hp
  · exact ⟨visible_lit rfl, hsecond, rfl, rfl⟩
  · rw [List.mem_singleton.mp hp]
    exact ⟨visible_lit rfl, hthird, rfl, rfl⟩

section Simulation

variable {uuid4 : ℕ → Uuid} {render mark : Node → List Char} {p : Pattern Char} {kind : Kind}
  {f : List (List Char) → Stash → List Char × Stash}

/-- **A regular expression that sets fragments aside**, on the text and on the nodes. -/
theorem passAside_render (hrenders : Renders (tokenOf uuid4) render mark) (hp : p.Visible)
    (hbehind : p.behind = fun _ => false) (hahead : p.ahead = fun _ => false)
    (hblind : ∀ piece ∈ p.pieces, Blind (· ∉ special) piece.accepts)
    (read : List Node × List Fragment) (hwhole : ∀ n ∈ read.1, TakesWhole render n p.pieces)
    (hf : ∀ parts fragments, f (parts.map (·.flatMap render))
      (stashOf (tokenOf uuid4) fragments) = ((setAside kind parts fragments).1.flatMap render,
        stashOf (tokenOf uuid4) (setAside kind parts fragments).2)) :
    reSub p f (read.1.flatMap render, stashOf (tokenOf uuid4) read.2) =
      ((passAside mark kind p read).1.flatMap render,
        stashOf (tokenOf uuid4) (passAside mark kind p read).2) := by
  have hlift : p.lift render = p.lift mark :=
    Pattern.lift_eq_of_blind hrenders.same (by rw [hbehind]; exact fun _ _ _ _ => rfl)
      (by rw [hahead]; exact fun _ _ _ _ => rfl) hblind
  rw [passAside, ← hlift]
  exact Pattern.sub_render hp (fun n _ => hrenders.ne_nil n) hwhole (fun _ => rfl) hf read.2

/-- The same where the pattern skips placeholders. -/
theorem passAside_render_of_skips (hrenders : Renders (tokenOf uuid4) render mark)
    (hp : Narrow p) (hf : ∀ parts fragments, f (parts.map (·.flatMap render))
      (stashOf (tokenOf uuid4) fragments) = ((setAside kind parts fragments).1.flatMap render,
        stashOf (tokenOf uuid4) (setAside kind parts fragments).2))
    (read : List Node × List Fragment) :
    reSub p f (read.1.flatMap render, stashOf (tokenOf uuid4) read.2) =
      ((passAside mark kind p read).1.flatMap render,
        stashOf (tokenOf uuid4) (passAside mark kind p read).2) := by
  refine passAside_render hrenders hp.visible hp.behind hp.ahead (Blind.of_skips hp.skips)
    read (fun n _ => ?_) hf
  rcases hrenders.cases n with ⟨c, hc⟩ | hhidden
  · exact takesWhole_of_singleton hc
  · exact takesWhole_of_skips hp.skips hhidden

theorem replaceCodeBlock_eq (parts : List (List Node)) (fragments : List Fragment) :
    replaceCodeBlock uuid4 (parts.map (·.flatMap (Node.raw (tokenOf uuid4))))
        (stashOf (tokenOf uuid4) fragments) =
      ((setAside .codeBlock parts fragments).1.flatMap (Node.raw (tokenOf uuid4)),
        stashOf (tokenOf uuid4) (setAside .codeBlock parts fragments).2) := by
  refine storeReplacement_eq .codeBlock fragments (renders_raw (opaque_tokenOf uuid4)) ?_
  have hcut := cut_map (Node.raw (tokenOf uuid4)) (some 5) parts
  rw [← htmlEscape_raw (opaque_tokenOf uuid4)]
  exact congrArg (fun group => "<pre><code>".toList ++ htmlEscape group ++
    "</code></pre>".toList) hcut

theorem replaceMarkdownLink_eq (parts : List (List Node)) (fragments : List Fragment) :
    replaceMarkdownLink uuid4 (parts.map (·.flatMap (Node.raw (tokenOf uuid4))))
        (stashOf (tokenOf uuid4) fragments) =
      ((setAside .markdownLink parts fragments).1.flatMap (Node.raw (tokenOf uuid4)),
        stashOf (tokenOf uuid4) (setAside .markdownLink parts fragments).2) := by
  refine storeReplacement_eq .markdownLink fragments (renders_raw (opaque_tokenOf uuid4)) ?_
  have hcut := cut_map (Node.raw (tokenOf uuid4)) none parts
  rw [← htmlEscape_raw (opaque_tokenOf uuid4)]
  exact (congrArg htmlEscape hcut).trans (List.append_nil _).symm

theorem replaceInlineCode_eq (parts : List (List Node)) (fragments : List Fragment) :
    replaceInlineCode uuid4 (parts.map (·.flatMap (Node.shown (tokenOf uuid4))))
        (stashOf (tokenOf uuid4) fragments) =
      ((setAside .inlineCode parts fragments).1.flatMap (Node.shown (tokenOf uuid4)),
        stashOf (tokenOf uuid4) (setAside .inlineCode parts fragments).2) := by
  refine storeReplacement_eq .inlineCode fragments (renders_shown (opaque_tokenOf uuid4)) ?_
  have hcut := cut_map (Node.shown (tokenOf uuid4)) (some 1) parts
  exact congrArg (fun group => "<code>".toList ++ group ++ "</code>".toList) hcut

theorem replaceUnsupportedEmphasis_eq (parts : List (List Node)) (fragments : List Fragment) :
    replaceUnsupportedEmphasis uuid4 (parts.map (·.flatMap (Node.shown (tokenOf uuid4))))
        (stashOf (tokenOf uuid4) fragments) =
      ((setAside .unsupported parts fragments).1.flatMap (Node.shown (tokenOf uuid4)),
        stashOf (tokenOf uuid4) (setAside .unsupported parts fragments).2) := by
  refine storeReplacement_eq .unsupported fragments (renders_shown (opaque_tokenOf uuid4)) ?_
  have hcut := cut_map (Node.shown (tokenOf uuid4)) none parts
  exact hcut.trans (List.append_nil _).symm

/-- **All that is set aside**, on the text and on the nodes. -/
theorem setAsideAll_eq (uuid4 : ℕ → Uuid) (text : List Char) :
    fragmentsAside uuid4 text =
      ((setAsideAll text).1.flatMap (Node.shown (tokenOf uuid4)),
        stashOf (tokenOf uuid4) (setAsideAll text).2) := by
  have hraw := renders_raw (opaque_tokenOf uuid4)
  have hshown := renders_shown (opaque_tokenOf uuid4)
  have hempty : ({ calls := 0, replacements := ∅ } : Stash) = stashOf (tokenOf uuid4) [] := rfl
  have htext : text = (text.map Node.char).flatMap (Node.raw (tokenOf uuid4)) := by
    rw [List.flatMap_map]
    exact (List.flatMap_singleton' text).symm
  -- a text without placeholders is one of single characters
  have hwhole : ∀ n ∈ text.map Node.char,
      TakesWhole (Node.raw (tokenOf uuid4)) n codeBlock.pieces := by
    intro n hn
    obtain ⟨c, -, rfl⟩ := List.mem_map.mp hn
    exact takesWhole_of_singleton rfl
  have hcode := passAside_render (p := codeBlock) hraw (visible_lit rfl) rfl rfl
    blind_codeBlock (text.map Node.char, []) hwhole replaceCodeBlock_eq
  have hlink := passAside_render_of_skips hraw narrow_markdownLink replaceMarkdownLink_eq
  have hinline := passAside_render_of_skips hshown narrow_inlineCode replaceInlineCode_eq
  have hemphasis (ps : List (Pattern Char)) (hps : ∀ p ∈ ps, Narrow p)
      (read : List Node × List Fragment) :
      ps.foldl (fun rendered pattern =>
        reSub pattern (replaceUnsupportedEmphasis uuid4) rendered)
          (read.1.flatMap (Node.shown (tokenOf uuid4)), stashOf (tokenOf uuid4) read.2) =
        ((ps.foldl (fun read p => passAside (Node.shown atSign) .unsupported p read) read).1.flatMap
          (Node.shown (tokenOf uuid4)),
          stashOf (tokenOf uuid4) (ps.foldl (fun read p =>
            passAside (Node.shown atSign) .unsupported p read) read).2) := by
    induction ps generalizing read with
    | nil => rfl
    | cons p ps ih =>
      have hp := passAside_render_of_skips hshown (hps p List.mem_cons_self)
        replaceUnsupportedEmphasis_eq read
      rw [List.foldl_cons, List.foldl_cons, ← ih fun q hq => hps q (List.mem_cons_of_mem _ hq)]
      exact congrArg (List.foldl _ · ps) hp
  rw [← htext] at hcode
  unfold fragmentsAside
  simp only [hempty, hcode, hlink, htmlEscape_raw (opaque_tokenOf uuid4), hinline,
    hemphasis _ narrow_unsupportedEmphasis]
  rfl

/-! ## Emphasis -/

/-- Every element in bold is of characters other than asterisks and the end of a line. -/
theorem inner_of_fits_bold {parts : List (List Node)}
    (hfits : List.Forall₂ Piece.Fits (bold.lift (Node.shown atSign)).pieces parts) :
    ∀ n ∈ (cut (some 2) parts).2.1, ∀ c ∈ n.shown (tokenOf uuid4), c ∉ ['*', '\n'] := by
  obtain _ | ⟨-, _ | ⟨-, _ | ⟨hinner, -⟩⟩⟩ := hfits
  intro n hn c hc
  have hall := ((renders_shown (opaque_tokenOf uuid4)).same n).all_eq
    (blind_noneOf (by decide : ['*', '\n'] ⊆ special))
  have hmark : (n.shown atSign).all (noneOf ['*', '\n']) = true := hinner.1 n hn
  rw [hmark, List.all_eq_true] at hall
  simpa [noneOf] using hall c hc

theorem tagged_eq {ν : Type} {render : ν → List Char} (tag : Tag) (group : ℕ) {τ : Type}
    {S : τ → Stash} (parts : List (List ν)) (t : τ) :
    tagged tag.name group (parts.map (·.flatMap render)) (S t) =
      ((style tag group parts t).1.flatMap (Styled.shown render),
        S (style tag group parts t).2) := by
  have hcut := cut_map render (some group) parts
  simp only [style, tagged, List.flatMap_singleton, Styled.shown, Markup.html, ← hcut]
  simp [cut]

/-- **A regular expression of the emphasis**, on the text and on the nodes. -/
theorem emphasise_render {ν : Type} {render mark : ν → List Char} (tag : Tag) (group : ℕ)
    (hp : p.Visible) (hlift : p.lift render = p.lift mark) {read : List ν × List Fragment}
    (hne : ∀ a ∈ read.1, render a ≠ []) (hwhole : ∀ a ∈ read.1, TakesWhole render a p.pieces) :
    reSub p (tagged tag.name group) (read.1.flatMap render, stashOf (tokenOf uuid4) read.2) =
      ((emphasise mark tag group p read).1.flatMap (Styled.shown render),
        stashOf (tokenOf uuid4) (emphasise mark tag group p read).2) := by
  rw [emphasise, ← hlift]
  have hkeep (a : ν) : Styled.shown render (.plain a) = render a := rfl
  exact Pattern.sub_render hp hne hwhole hkeep
    (tagged_eq (S := stashOf (tokenOf uuid4)) tag group) read.2

theorem shown_tagged_ne_nil {ν : Type} {render : ν → List Char} {tag : Tag}
    {opening inner closing : List ν} :
    Styled.shown render (.tagged tag opening inner closing) ≠ [] :=
  List.append_ne_nil_of_right_ne_nil _ (List.append_ne_nil_of_right_ne_nil _ (by decide))

theorem getLast?_shown_tagged {ν : Type} {render : ν → List Char} {tag : Tag}
    {opening inner closing : List ν} :
    (Styled.shown render (.tagged tag opening inner closing)).getLast? = some '>' := by
  show ((Markup.opening tag).html ++ inner.flatMap render ++
    ("</".toList ++ tag.name ++ ['>'])).getLast? = some '>'
  rw [← List.append_assoc]
  exact List.getLast?_concat

theorem boldAll_render (uuid4 : ℕ → Uuid) (text : List Char) :
    reSub bold (tagged "b".toList 2) ((setAsideAll text).1.flatMap (Node.shown (tokenOf uuid4)),
        stashOf (tokenOf uuid4) (setAsideAll text).2) =
      ((boldAll text).1.flatMap (Styled.shown (Node.shown (tokenOf uuid4))),
        stashOf (tokenOf uuid4) (boldAll text).2) := by
  have hshown := renders_shown (opaque_tokenOf uuid4)
  have hlift : bold.lift (Node.shown (tokenOf uuid4)) = bold.lift (Node.shown atSign) :=
    Pattern.lift_eq_of_blind hshown.same (fun _ _ _ _ => rfl) (fun _ _ _ _ => rfl)
      (Blind.of_skips skips_bold)
  refine emphasise_render .b 2 (visible_lit rfl) hlift (fun n _ => hshown.ne_nil n) fun n _ => ?_
  rcases hshown.cases n with ⟨c, hc⟩ | hhidden
  · exact takesWhole_of_singleton hc
  · exact takesWhole_of_skips skips_bold hhidden

/-- What is in bold holds no asterisk and no end of a line, and is taken whole. -/
theorem takesWhole_boldAll (text : List Char) : ∀ a ∈ (boldAll text).1,
    TakesWhole (Styled.shown (Node.shown (tokenOf uuid4))) a italic.pieces := by
  have hopening : ∀ c ∈ (Markup.opening .b).html, c ∉ ['*', '\n'] := forall_of_all (by decide)
  have hclosing : ∀ c ∈ (Markup.closing .b).html, c ∉ ['*', '\n'] := forall_of_all (by decide)
  refine Pattern.forall_sub (visible_lit (p := bold) rfl).lift ?_ ?_ _
  · intro n _
    rcases (renders_shown (opaque_tokenOf uuid4)).cases n with ⟨c, hc⟩ | hhidden
    · exact takesWhole_of_singleton hc
    · have hsub : ['*', '\n'] ⊆ special := by decide
      exact takesWhole_of_skips skips_italic fun c hc hmem => hhidden c hc (hsub hmem)
  · intro parts fragments hfits _ a ha
    rw [List.mem_singleton.mp ha]
    refine takesWhole_of_skips skips_italic fun c hc => ?_
    rcases List.mem_append.mp hc with hc | hc
    · rcases List.mem_append.mp hc with hc | hc
      · exact hopening c hc
      · obtain ⟨n, hn, hc⟩ := List.mem_flatMap.mp hc
        exact inner_of_fits_bold hfits n hn c hc
    · exact hclosing c hc

/-- What is in bold looks the same to the pattern of italics whatever the placeholders are. -/
theorem lift_italic :
    italic.lift (Styled.shown (Node.shown (tokenOf uuid4))) =
      italic.lift (Styled.shown (Node.shown atSign)) := by
  have hsame := (renders_shown (opaque_tokenOf uuid4)).same
  have hhidden : ∀ c, c ∉ special → c ∉ ['*', '\n'] :=
    fun c hc hmem => hc ((by decide : ['*', '\n'] ⊆ special) hmem)
  have hasterisk : Blind (· ∉ special) (· == '*') := blind_is (by decide)
  refine Pattern.lift_congr ?_ ?_ ?_
  · intro a
    cases a with
    | plain n => exact (hsame n).any_getLast? hasterisk
    | tagged tag opening inner closing =>
      rw [getLast?_shown_tagged, getLast?_shown_tagged]
  · intro a
    cases a with
    | plain n => exact (hsame n).any_head? hasterisk
    | tagged tag opening inner closing => rfl
  · intro piece hpiece a
    have hblind : Blind (· ∉ special) piece.accepts :=
      (Blind.of_skips skips_italic piece hpiece).mono hhidden
    cases a with
    | plain n => exact (hsame n).all_eq hblind
    | tagged tag opening inner closing =>
      have hinner : (inner.flatMap (Node.shown (tokenOf uuid4))).all piece.accepts =
          (inner.flatMap (Node.shown atSign)).all piece.accepts := by
        rw [List.all_flatMap, List.all_flatMap]
        exact List.all_congr rfl fun n => (hsame n).all_eq hblind
      simp only [liftClass, Styled.shown, List.all_append, hinner]

theorem read_render (uuid4 : ℕ → Uuid) (text : List Char) :
    reSub italic (tagged "i".toList 1)
        ((boldAll text).1.flatMap (Styled.shown (Node.shown (tokenOf uuid4))),
          stashOf (tokenOf uuid4) (boldAll text).2) =
      ((read text).1.flatMap (Styled.shown (Styled.shown (Node.shown (tokenOf uuid4)))),
        stashOf (tokenOf uuid4) (read text).2) := by
  refine emphasise_render .i 1 (visible_lit rfl) lift_italic (fun a _ => ?_)
    (takesWhole_boldAll text)
  cases a with
  | plain n => exact (renders_shown (opaque_tokenOf uuid4)).ne_nil n
  | tagged tag opening inner closing => exact shown_tagged_ne_nil

/-- **The text with placeholders** shows the reading. -/
theorem conversion_eq (uuid4 : ℕ → Uuid) (text : List Char) :
    conversion uuid4 text =
      ((read text).1.flatMap (Styled.shown (Styled.shown (Node.shown (tokenOf uuid4)))),
        stashOf (tokenOf uuid4) (read text).2) := by
  have haside := congrArg (reSub bold (tagged "b".toList 2)) (setAsideAll_eq uuid4 text)
  have hbold := congrArg (reSub italic (tagged "i".toList 1))
    (haside.trans (boldAll_render uuid4 text))
  exact hbold.trans (read_render uuid4 text)

end Simulation

end Portex.Markdown
