import Portex.Im.Restore

/-!
# The output is well formed

The text with placeholders is of characters, entities and elements that are nested, and so is what
takes the place of a placeholder, wherever `str.replace` finds it.

## Main definitions

* `Html`: well-formed text with tags

## Main results

* `Html.replaceAll`: replacing a placeholder
* `html_markdownToHtml`: the output
-/

namespace Portex.Markdown

open Foundation TelegramClient

/-- Text in which the only tags are those of elements, which are closed in the order in which they
were opened, and in which other characters of markup are escaped. -/
inductive Html : List Char → Prop
  | nil : Html []
  | char {c : Char} {rest : List Char} (hc : c ∉ ['<', '>', '&']) (hrest : Html rest) :
    Html (c :: rest)
  | entity {entity rest : List Char} (hentity : entity ∈ entities) (hrest : Html rest) :
    Html (entity ++ rest)
  | element {inner rest : List Char} (tag : Tag) (hinner : Html inner) (hrest : Html rest) :
    Html ((Markup.opening tag).html ++ inner ++ (Markup.closing tag).html ++ rest)

namespace Html

variable {text back : List Char}

theorem append (h : Html text) (hback : Html back) : Html (text ++ back) := by
  induction h with
  | nil => exact hback
  | char hc _ ih => exact .char hc ih
  | entity hentity _ ih =>
    rw [List.append_assoc]
    exact .entity hentity ih
  | element tag hinner _ _ ih =>
    rw [List.append_assoc]
    exact .element tag hinner ih

theorem flatMap {ν : Type} {render : ν → List Char} {as : List ν}
    (h : ∀ a ∈ as, Html (render a)) : Html (as.flatMap render) := by
  induction as with
  | nil => exact .nil
  | cons a as ih =>
    exact (h a List.mem_cons_self).append (ih fun b hb => h b (List.mem_cons_of_mem _ hb))

theorem of_chars (h : ∀ c ∈ text, c ∉ ['<', '>', '&']) : Html text := by
  induction text with
  | nil => exact .nil
  | cons c text ih =>
    exact .char (h c List.mem_cons_self) (ih fun d hd => h d (List.mem_cons_of_mem _ hd))

/-- A character comes off well-formed text. -/
theorem of_cons {c : Char} (hc : c ∉ ['<', '>', '&']) (h : Html (c :: text)) : Html text := by
  generalize heq : c :: text = whole at h
  cases h with
  | nil => cases heq
  | char _ hrest =>
    obtain ⟨-, rfl⟩ := List.cons.inj heq
    exact hrest
  | entity hentity _ =>
    obtain ⟨rest, hrest⟩ := exists_cons_of_entity _ hentity
    rw [hrest] at heq
    obtain ⟨rfl, -⟩ := List.cons.inj heq
    exact absurd (by decide) hc
  | element tag _ _ =>
    obtain ⟨rest, hrest⟩ := exists_cons_of_markup (.opening tag)
    rw [hrest] at heq
    obtain ⟨rfl, -⟩ := List.cons.inj heq
    exact absurd (by decide) hc

theorem of_append {front : List Char} (hfront : ∀ c ∈ front, c ∉ ['<', '>', '&'])
    (h : Html (front ++ back)) : Html back := by
  induction front with
  | nil => exact h
  | cons c front ih =>
    exact ih (fun d hd => hfront d (List.mem_cons_of_mem _ hd))
      (of_cons (hfront c List.mem_cons_self) h)

/-- **Replacing a placeholder** by well-formed text: it begins with an at sign, which is in no tag
and in no entity. -/
theorem replaceAll {old new : List Char} (hat : old.head? = some '@')
    (hold : ∀ c ∈ old, c ∉ ['<', '>', '&']) (hnew : Html new) (h : Html text) :
    Html (Foundation.replaceAll old new text) := by
  have hne : old ≠ [] := by
    rintro rfl
    cases hat
  have hskip {front back : List Char} (hfront : '@' ∉ front) :
      Foundation.replaceAll old new (front ++ back) =
        front ++ Foundation.replaceAll old new back := by
    refine replaceAll_append fun x y hxy hy hprefix => hfront ?_
    obtain ⟨c, y, rfl⟩ := List.exists_cons_of_ne_nil hy
    obtain ⟨old, rfl⟩ : ∃ rest, old = '@' :: rest := ⟨_, List.eq_cons_of_mem_head? hat⟩
    obtain ⟨rfl, -⟩ := List.cons_prefix_cons.mp hprefix
    rw [hxy]
    exact List.mem_append_right _ List.mem_cons_self
  induction hn : text.length using Nat.strong_induction_on generalizing text with
  | _ n ih =>
    cases h with
    | nil => exact .nil
    | @char c rest hc hrest =>
      by_cases hprefix : old <+: c :: rest
      · obtain ⟨after, hafter⟩ := hprefix
        have hhtml : Html after := of_append hold (hafter ▸ .char hc hrest)
        have hlength := congrArg List.length hafter
        have hpos := List.length_pos_iff.mpr hne
        rw [List.length_append] at hlength
        rw [← hafter, replaceAll_self_append hne]
        exact hnew.append (ih after.length (by omega) hhtml rfl)
      · rw [replaceAll_cons_of_not hprefix]
        exact .char hc (ih rest.length (by simp [← hn]) hrest rfl)
    | @entity entity rest hentity hrest =>
      obtain ⟨tail, htail⟩ := exists_cons_of_entity _ hentity
      have hlength : rest.length < n := by
        rw [← hn, htail, List.length_append, List.length_cons]
        omega
      rw [hskip (at_notMem_entity _ hentity)]
      exact .entity hentity (ih rest.length hlength hrest rfl)
    | @element inner rest tag hinner hrest =>
      obtain ⟨tail, htail⟩ := exists_cons_of_markup (.closing tag)
      have hlt : '<' ∉ old := fun h => hold '<' h (by decide)
      have htailAt : '@' ∉ tail := fun h =>
        at_notMem_html (.closing tag) (by rw [htail]; exact List.mem_cons_of_mem _ h)
      have hlength : inner.length < n ∧ rest.length < n := by
        rw [htail] at hn
        simp only [List.length_append, List.length_cons] at hn
        omega
      have hwhole : Foundation.replaceAll old new
          ((Markup.opening tag).html ++ inner ++ (Markup.closing tag).html ++ rest) =
            (Markup.opening tag).html ++ Foundation.replaceAll old new inner ++
              (Markup.closing tag).html ++ Foundation.replaceAll old new rest := by
        rw [htail, List.append_assoc, List.append_assoc, hskip (at_notMem_html _),
          List.cons_append, replaceAll_append_cons hne hlt, hskip htailAt]
        simp
      rw [hwhole]
      exact .element tag (ih inner.length hlength.1 hinner rfl) (ih rest.length hlength.2 hrest rfl)

end Html

/-! ## The conversion -/

section Conversion

variable {uuid4 : ℕ → Uuid}

theorem notMem_tokenOf (kind : Kind) (i : ℕ) :
    ∀ c ∈ tokenOf uuid4 kind i, c ∉ ['<', '>', '&'] := by
  have hchars : ∀ c ∈ tokenChars, c ∉ ['<', '>', '&'] := forall_of_all (by decide +kernel)
  exact fun c hc => hchars c ((opaque_tokenOf uuid4 kind i).2 c hc)

theorem html_shown (n : Node) : Html (n.shown (tokenOf uuid4)) := by
  cases n with
  | char c =>
    rcases htmlEscapeChar_cases c with ⟨hmarkup, hc⟩ | hc
    · rw [Node.shown, hc]
      exact .char hmarkup .nil
    · rw [Node.shown, ← List.append_nil (htmlEscapeChar c)]
      exact .entity hc .nil
  | held kind i source => exact .of_chars (notMem_tokenOf kind i)

theorem html_shown_styled {ν : Type} {render : ν → List Char} (h : ∀ a, Html (render a))
    (s : Styled ν) : Html (s.shown render) := by
  cases s with
  | plain a => exact h a
  | tagged tag opening inner closing =>
    rw [Styled.shown, ← List.append_nil (_ ++ _)]
    exact .element tag (.flatMap fun a _ => h a) .nil

/-- The text with placeholders is well formed. -/
theorem html_conversion (uuid4 : ℕ → Uuid) (text : List Char) : Html (conversion uuid4 text).1 := by
  simp only [conversion_eq]
  exact .flatMap fun s _ => html_shown_styled (html_shown_styled html_shown) s

/-- So is what takes the place of a placeholder. -/
theorem html_replacement (f : Fragment) : Html (f.replacement (tokenOf uuid4)) := by
  have hnodes : Html (f.nodes.flatMap (Node.shown (tokenOf uuid4))) :=
    .flatMap fun n _ => html_shown n
  unfold Fragment.replacement
  cases f.kind with
  | codeBlock =>
    simpa [Kind.opening, Kind.closing] using Html.element .pre (.element .code hnodes .nil) .nil
  | inlineCode =>
    simpa [Kind.opening, Kind.closing] using Html.element .code hnodes .nil
  | markdownLink => simpa [Kind.opening, Kind.closing] using hnodes
  | unsupported => simpa [Kind.opening, Kind.closing] using hnodes

theorem mem_items_stashOf {fragments : List Fragment} {token replacement : List Char}
    (h : (token, replacement) ∈ (stashOf (tokenOf uuid4) fragments).replacements.items) :
    ∃ f : Fragment, ∃ i, token = tokenOf uuid4 f.kind i ∧
      replacement = f.replacement (tokenOf uuid4) := by
  have hentries : (token, replacement) ∈ entries (tokenOf uuid4) fragments :=
    (Dict.get?_insertAll_cases (Dict.mem_items.mp h)).resolve_left nofun
  obtain ⟨⟨f, i⟩, -, heq⟩ := List.mem_map.mp hentries
  cases heq
  exact ⟨f, i, rfl, rfl⟩

/-- The placeholders are replaced by well-formed text. -/
theorem html_restore (uuid4 : ℕ → Uuid) {rendered : List Char} (fragments : List Fragment)
    (h : Html rendered) :
    Html (restore rendered (stashOf (tokenOf uuid4) fragments).replacements) := by
  have hfold (items : List (List Char × List Char)) (rendered : List Char)
      (hitems : ∀ item ∈ items, ∃ f : Fragment, ∃ i, item.1 = tokenOf uuid4 f.kind i ∧
        item.2 = f.replacement (tokenOf uuid4)) (h : Html rendered) :
      Html (items.foldl (fun rendered item => replaceAll item.1 item.2 rendered) rendered) := by
    induction items generalizing rendered with
    | nil => exact h
    | cons item items ih =>
      obtain ⟨f, i, htoken, hreplacement⟩ := hitems item List.mem_cons_self
      refine ih _ (fun other hother => hitems other (List.mem_cons_of_mem _ hother)) ?_
      show Html (replaceAll item.1 item.2 rendered)
      rw [htoken, hreplacement]
      exact .replaceAll (by rw [tokenOf_eq]; rfl) (notMem_tokenOf f.kind i) (html_replacement f) h
  exact hfold _ _ (fun item hitem => mem_items_stashOf hitem) h

end Conversion

/-- **The output is well formed**, whatever the identifiers are. -/
theorem html_markdownToHtml (uuid4 : ℕ → Uuid) (text : List Char) :
    Html (markdownToHtml uuid4 text) := by
  have h := html_restore uuid4 (read text).2 (html_conversion uuid4 text)
  rw [← snd_conversion] at h
  exact h

end Portex.Markdown
