import Portex.Im.Kept
import Portex.Im.WellFormed

/-!
# What the output escapes

Every character of markup in the output is in a tag or in an entity. The output shows those of the
message, escaped and in their order, but for those that it does not show at all: the language of a
code block is left out, and so is a fragment that another one spans.

## Main definitions

* `escapedIn`: the characters of markup that a text shows escaped
* `EscapesMarkup`: the output shows those of the message
* `NestedMarkup`, `LanguageMarkup`: where it does not

## Main results

* `escapedIn_markdownToHtml`: what the output shows
* `escapesMarkup_iff`: when it shows all
* `not_escapesMarkup_linkInCode`: a link in inline code
-/

namespace Portex.Markdown

open Foundation TelegramClient

def markupChars : List Char := ['<', '>', '&']

/-- The characters of markup in a text. -/
def markupIn (text : List Char) : List Char := text.filter fun c => c ∈ markupChars

/-- The characters of markup that a text shows escaped: at each place the one whose entity begins
there. -/
def escapedIn : List Char → List Char
  | [] => []
  | c :: rest => (markupChars.filter fun m => htmlEscapeChar m <+: c :: rest) ++ escapedIn rest

/-- The output shows every character of markup in the message, escaped, and in its order. -/
def EscapesMarkup (uuid4 : ℕ → Uuid) (text : List Char) : Prop :=
  escapedIn (markdownToHtml uuid4 text) = markupIn text

/-- A fragment spans one that was set aside before and has a character of markup. -/
def NestedMarkup (text : List Char) : Prop :=
  ∃ f ∈ (read text).2, ∃ n ∈ f.nodes, n.index?.isSome = true ∧ markupIn n.source ≠ []

/-- The line that opens a code block names a language with a character of markup. -/
def LanguageMarkup (text : List Char) : Prop :=
  ∃ f ∈ (read text).2, f.kind = .codeBlock ∧ markupIn (f.opening.flatMap Node.source) ≠ []

instance (text : List Char) : Decidable (NestedMarkup text) :=
  inferInstanceAs (Decidable (∃ f ∈ (read text).2, ∃ n ∈ f.nodes, n.index?.isSome = true ∧
    markupIn n.source ≠ []))

instance (text : List Char) : Decidable (LanguageMarkup text) :=
  inferInstanceAs (Decidable (∃ f ∈ (read text).2, f.kind = .codeBlock ∧
    markupIn (f.opening.flatMap Node.source) ≠ []))

/-! ## Entities -/

theorem exists_cons_of_markupChars : ∀ m ∈ markupChars, ∃ rest, htmlEscapeChar m = '&' :: rest := by
  intro m hm
  rcases htmlEscapeChar_cases m with ⟨hnot, -⟩ | h
  · exact absurd hm hnot
  · exact exists_cons_of_entity _ h

theorem escapedIn_cons_of_ne {c : Char} (hc : c ≠ '&') (rest : List Char) :
    escapedIn (c :: rest) = escapedIn rest := by
  have hnone : (markupChars.filter fun m => htmlEscapeChar m <+: c :: rest) = [] := by
    rw [List.filter_eq_nil_iff]
    intro m hm
    obtain ⟨tail, htail⟩ := exists_cons_of_markupChars m hm
    rw [htail, decide_eq_true_eq, List.cons_prefix_cons]
    exact fun h => hc h.1.symm
  rw [escapedIn, hnone, List.nil_append]

theorem amp_notMem_html (m : Markup) : '&' ∉ m.html := by
  cases m with
  | opening tag => cases tag <;> decide
  | closing tag => cases tag <;> decide

/-- Text without ampersands shows nothing escaped. -/
theorem escapedIn_append {front : List Char} (h : '&' ∉ front) (back : List Char) :
    escapedIn (front ++ back) = escapedIn back := by
  induction front with
  | nil => rfl
  | cons c front ih =>
    rw [List.cons_append, escapedIn_cons_of_ne (fun hc => h (by rw [hc]; exact List.mem_cons_self))]
    exact ih fun hmem => h (List.mem_cons_of_mem _ hmem)

/-- An escaped character is shown where it is one of markup. -/
theorem escapedIn_htmlEscapeChar (c : Char) (back : List Char) :
    escapedIn (htmlEscapeChar c ++ back) = markupIn [c] ++ escapedIn back := by
  have hentity (m : Char) (tail : List Char) (hm : htmlEscapeChar m = '&' :: tail)
      (htail : '&' ∉ tail) : escapedIn (htmlEscapeChar m ++ back) =
        (markupChars.filter fun k => htmlEscapeChar k <+: '&' :: (tail ++ back)) ++
          escapedIn back := by
    rw [hm, List.cons_append, escapedIn, escapedIn_append htail]
  by_cases hamp : c = '&'
  · subst hamp
    rw [hentity '&' "amp;".toList rfl (by decide)]
    rfl
  by_cases hlt : c = '<'
  · subst hlt
    rw [hentity '<' "lt;".toList rfl (by decide)]
    rfl
  by_cases hgt : c = '>'
  · subst hgt
    rw [hentity '>' "gt;".toList rfl (by decide)]
    rfl
  have hmarkup : markupIn [c] = [] := by
    simp [markupIn, markupChars, hamp, hlt, hgt]
  rw [hmarkup, List.nil_append]
  by_cases hquot : c = '"'
  · subst hquot
    rw [hentity '"' "quot;".toList rfl (by decide)]
    rfl
  by_cases hapos : c = '\''
  · subst hapos
    rw [hentity '\'' "#x27;".toList rfl (by decide)]
    rfl
  have hself : htmlEscapeChar c = [c] := by
    simp [htmlEscapeChar, hamp, hlt, hgt, hquot, hapos]
  rw [hself]
  exact escapedIn_cons_of_ne hamp back

/-! ## What the output shows -/

/-- The character of markup that an atom shows escaped. -/
def Atom.escaped : Atom → List Char
  | .kept c => markupIn [c]
  | .left _ _ _ | .tags _ _ => []

theorem escapedIn_html (uuid4 : ℕ → Uuid) (as : List Atom) :
    escapedIn (as.flatMap (Atom.html (tokenOf uuid4))) = as.flatMap Atom.escaped := by
  induction as with
  | nil => rfl
  | cons a as ih =>
    rw [List.flatMap_cons, List.flatMap_cons, ← ih]
    cases a with
    | kept c => exact escapedIn_htmlEscapeChar c _
    | left kind i source =>
      exact escapedIn_append (fun h => notMem_tokenOf kind i _ h (by decide)) _
    | tags markup source =>
      refine escapedIn_append (fun h => ?_) _
      obtain ⟨m, -, hm⟩ := List.mem_flatMap.mp h
      exact amp_notMem_html m hm

/-- **What the output shows**: the characters of markup that are kept. -/
theorem escapedIn_markdownToHtml {uuid4 : ℕ → Uuid} {text : List Char} (hfresh : Fresh uuid4 text) :
    escapedIn (markdownToHtml uuid4 text) = (outputOf text).flatMap Atom.escaped := by
  rw [markdownToHtml_eq hfresh, escapedIn_html]

theorem markupIn_flatMap {α : Type} (source : α → List Char) (as : List α) :
    markupIn (as.flatMap source) = as.flatMap fun a => markupIn (source a) :=
  List.filter_flatMap ..

theorem escaped_sublist (a : Atom) : a.escaped.Sublist (markupIn a.source) := by
  cases a with
  | kept c => exact List.Sublist.refl _
  | left kind i source => exact List.nil_sublist _
  | tags markup source => exact List.nil_sublist _

section Parts

variable {α β : Type} {part whole : α → List β} {as : List α}

theorem flatMap_sublist (h : ∀ a ∈ as, (part a).Sublist (whole a)) :
    (as.flatMap part).Sublist (as.flatMap whole) := by
  induction as with
  | nil => exact List.Sublist.refl _
  | cons a as ih =>
    rw [List.forall_mem_cons] at h
    rw [List.flatMap_cons, List.flatMap_cons]
    exact h.1.append (ih h.2)

/-- Lists put together of parts of others are these only where each part is the whole. -/
theorem flatMap_eq_iff_of_sublist (h : ∀ a ∈ as, (part a).Sublist (whole a)) :
    as.flatMap part = as.flatMap whole ↔ ∀ a ∈ as, part a = whole a := by
  refine ⟨fun heq => ?_, List.flatMap_congr⟩
  induction as with
  | nil => nofun
  | cons a as ih =>
    rw [List.forall_mem_cons] at h ⊢
    rw [List.flatMap_cons, List.flatMap_cons] at heq
    have hwhole := congrArg List.length heq
    rw [List.length_append, List.length_append] at hwhole
    have ha := h.1.length_le
    have has := (flatMap_sublist h.2).length_le
    obtain ⟨hhead, htail⟩ := List.append_inj heq (by omega)
    exact ⟨hhead, ih h.2 htail⟩

end Parts

/-- The output shows all where every atom does. -/
theorem escapesMarkup_iff_forall {uuid4 : ℕ → Uuid} {text : List Char} (hfresh : Fresh uuid4 text) :
    EscapesMarkup uuid4 text ↔ ∀ a ∈ outputOf text, a.escaped = markupIn a.source := by
  have hmarkup : markupIn text = (outputOf text).flatMap fun a => markupIn a.source := by
    rw [← markupIn_flatMap, source_outputOf]
  rw [EscapesMarkup, escapedIn_markdownToHtml hfresh, hmarkup]
  exact flatMap_eq_iff_of_sublist fun a _ => escaped_sublist a

/-! ## What is left out -/

/-- An atom that is no placeholder shows all that it has of markup. -/
def Atom.Shows (a : Atom) : Prop := a.index? = none → a.escaped = markupIn a.source

theorem shows_atom (n : Node) : n.atom.Shows := by
  cases n with
  | char c => exact fun _ => rfl
  | held kind i source => nofun

/-- Bold and italics are made from asterisks. -/
theorem shows_atomsOf (text : List Char) : ∀ a ∈ atomsOf text, a.Shows := by
  have hnodes : ∀ n ∈ (setAsideAll text).1, ∀ a ∈ [n.atom], a.Shows := by
    intro n _ a ha
    rw [List.mem_singleton.mp ha]
    exact shows_atom n
  have hbold : ∀ s ∈ (boldAll text).1, ∀ a ∈ s.atoms fun n => [n.atom], a.Shows :=
    forall_emphasise Atom.Shows (visible_lit rfl) around_bold (fun _ => rfl) (fun _ => rfl) hnodes
  have hitalic : ∀ s ∈ (read text).1, ∀ a ∈ s.atoms (Styled.atoms fun n => [n.atom]), a.Shows :=
    forall_emphasise Atom.Shows (visible_lit rfl) around_italic (fun _ => rfl) (fun _ => rfl) hbold
  intro a ha
  obtain ⟨s, hs, ha⟩ := List.mem_flatMap.mp ha
  exact hitalic s hs a ha

/-- A fragment of which characters of markup are left out. -/
def Fragment.Drops (f : Fragment) : Prop :=
  (∃ n ∈ f.nodes, n.index?.isSome = true ∧ markupIn n.source ≠ []) ∨
    f.kind = .codeBlock ∧ markupIn (f.opening.flatMap Node.source) ≠ []

theorem exists_drops_iff {text : List Char} :
    (∃ f ∈ (read text).2, f.Drops) ↔ NestedMarkup text ∨ LanguageMarkup text := by
  simp only [Fragment.Drops, NestedMarkup, LanguageMarkup, and_or_left, exists_or]

theorem markupIn_opening {kind : Kind} {source : List Char} (h : Marked kind.opening source)
    (hkind : kind ≠ .codeBlock) : markupIn source = [] := by
  cases kind with
  | codeBlock => exact absurd rfl hkind
  | markdownLink | inlineCode | unsupported =>
    obtain rfl := h
    rfl

theorem markupIn_closing {kind : Kind} {source : List Char} (h : Marked kind.closing source) :
    markupIn source = [] := by
  cases kind with
  | codeBlock | markdownLink | inlineCode | unsupported =>
    obtain rfl := h
    rfl

/-- A fragment shows all where nothing of it is left out. -/
theorem forall_atoms_iff {text : List Char} {f : Fragment} (hf : f ∈ (read text).2) :
    (∀ a ∈ f.atoms, a.escaped = markupIn a.source) ↔ ¬ f.Drops := by
  obtain ⟨hopening, hclosing⟩ := (sound_read text).marked f hf
  constructor
  · rintro hshows (⟨n, hn, hindex, hmarkup⟩ | ⟨-, hmarkup⟩)
    · have hatom := hshows n.atom (mem_atoms_iff.mpr (.inr (.inl ⟨n, hn, rfl⟩)))
      cases n with
      | char c => cases hindex
      | held kind i source => exact hmarkup hatom.symm
    · exact hmarkup (hshows _ (mem_atoms_iff.mpr (.inl rfl))).symm
  · intro hdrops a ha
    rcases mem_atoms_iff.mp ha with rfl | ⟨n, hn, rfl⟩ | rfl
    · refine Eq.symm (by_contra fun hmarkup => hdrops (.inr ⟨?_, hmarkup⟩))
      exact by_contra fun hkind => hmarkup (markupIn_opening hopening hkind)
    · cases n with
      | char c => rfl
      | held kind i source =>
        exact Eq.symm (by_contra fun hmarkup => hdrops (.inl ⟨_, hn, rfl, hmarkup⟩))
    · exact (markupIn_closing hclosing).symm

section Fragments

variable {text : List Char}

/-- What is left out of a fragment is left out of one that spans it. -/
theorem Fragment.Drops.carry {f g : Fragment} {n : Node} {i : ℕ} (hn : n ∈ g.nodes)
    (hindex : n.index? = some i) (hrefers : n.RefersTo (read text).2)
    (hf : (read text).2[i]? = some f) (h : f.Drops) : g.Drops := by
  cases n with
  | char c => cases hindex
  | held kind j source =>
    obtain rfl := Option.some.inj hindex
    obtain ⟨e, he, -, hsource⟩ := hrefers
    obtain rfl := Option.some.inj (hf.symm.trans he)
    refine .inl ⟨_, hn, rfl, ?_⟩
    show markupIn source ≠ []
    have hne {part : List Node} {text : List Char}
        (hpart : part ⊆ f.opening ++ f.nodes ++ f.closing)
        (htext : text ⊆ part.flatMap Node.source) (hmarkup : markupIn text ≠ []) :
        markupIn f.source ≠ [] := by
      obtain ⟨c, hc⟩ := List.exists_mem_of_ne_nil _ hmarkup
      obtain ⟨hc, hchar⟩ := List.mem_filter.mp hc
      obtain ⟨m, hm, hcm⟩ := List.mem_flatMap.mp (htext hc)
      exact List.ne_nil_of_mem
        (List.mem_filter.mpr ⟨List.mem_flatMap.mpr ⟨m, hpart hm, hcm⟩, hchar⟩)
    rw [← hsource]
    rcases h with ⟨m, hm, -, hmarkup⟩ | ⟨-, hmarkup⟩
    · exact hne (show [m] ⊆ _ by simp [hm]) (by simp) hmarkup
    · exact hne (fun m hm => by simp [hm]) (fun _ hc => hc) hmarkup

/-- The output shows all where nothing of a fragment is left out. -/
theorem forall_outputOf_iff :
    (∀ a ∈ outputOf text, a.escaped = markupIn a.source) ↔
      ¬ ∃ f ∈ (read text).2, f.Drops := by
  constructor
  · rintro hshows ⟨f, hf, hdrops⟩
    obtain ⟨i, hi⟩ := List.getElem?_of_mem hf
    obtain ⟨a, ha, j, g, hindex, hg, hg'⟩ := exists_outermost _
      (fun _ _ hn _ _ hindex hrefers hf h => h.carry hn hindex hrefers hf) hi hdrops
    have hatoms := atoms_infix_expand ha hindex hg
    exact (forall_atoms_iff (List.mem_of_getElem? hg)).mp
      (fun b hb => hshows b (hatoms.subset hb)) hg'
  · intro hdrops a ha
    obtain ⟨b, hb, ha⟩ := List.mem_flatMap.mp ha
    cases b with
    | kept c =>
      rw [List.mem_singleton.mp ha]
      rfl
    | tags markup source =>
      rw [List.mem_singleton.mp ha]
      exact shows_atomsOf text _ hb rfl
    | left kind i source =>
      obtain ⟨f, hf, -⟩ := refersTo_atomsOf text _ hb
      have hmem := List.mem_of_getElem? hf
      rw [expand_left_of_lt (List.getElem?_eq_some_iff.mp hf).1 hf] at ha
      exact (forall_atoms_iff hmem).mpr (fun h => hdrops ⟨f, hmem, h⟩) a ha

end Fragments

/-- **What the output escapes**: it is well formed whatever the identifiers are, and where they are
fresh it shows every character of markup in the message, escaped, unless one is in a fragment that
another one spans or in the language of a code block. -/
theorem escapesMarkup_iff (uuid4 : ℕ → Uuid) (text : List Char) :
    Html (markdownToHtml uuid4 text) ∧ (Fresh uuid4 text →
      (EscapesMarkup uuid4 text ↔ ¬ NestedMarkup text ∧ ¬ LanguageMarkup text)) := by
  refine ⟨html_markdownToHtml uuid4 text, fun hfresh => ?_⟩
  rw [escapesMarkup_iff_forall hfresh, forall_outputOf_iff, exists_drops_iff, not_or]

theorem fresh_emphasis : Fresh (fun _ _ => 7) "*a* `<b>`".toList := by
  have hlength : (read "*a* `<b>`".toList).2.length = 1 := by decide +kernel
  exact .of_distinct (fun i hi j hj _ => by omega) (by decide +kernel)

theorem escapesMarkup_iff_emphasis :
    Html (markdownToHtml (fun _ _ => 7) "*a* `<b>`".toList) ∧
      (EscapesMarkup (fun _ _ => 7) "*a* `<b>`".toList ↔
        ¬ NestedMarkup "*a* `<b>`".toList ∧ ¬ LanguageMarkup "*a* `<b>`".toList) :=
  have h := escapesMarkup_iff (fun _ _ => 7) "*a* `<b>`".toList
  ⟨h.1, h.2 fresh_emphasis⟩

theorem fresh_markupInLink : Fresh drawn "`[<](b)`".toList := by
  have hlength : (read "`[<](b)`".toList).2.length = 2 := by decide +kernel
  exact .of_distinct (fun i hi j hj h => eq_of_drawn_eq (by omega) (by omega) h)
    (by decide +kernel)

/-- In inline code the text of a link is left out, with the `<` that is in it. -/
theorem not_escapesMarkup_linkInCode : Fresh drawn "`[<](b)`".toList ∧
    ¬ EscapesMarkup drawn "`[<](b)`".toList := by
  refine ⟨fresh_markupInLink, ?_⟩
  rw [escapesMarkup_iff_forall fresh_markupInLink, forall_outputOf_iff, exists_drops_iff]
  exact not_not_intro (.inl (by decide +kernel))

end Portex.Markdown
