import Portex.Im.Restore

/-!
# What the output keeps of the fragments

A fragment whose placeholder is in another fragment is not put back: the placeholders are replaced
in the order in which they were made, each once. The output shows every fragment and no placeholder
where no fragment spans another one.

## Main definitions

* `Keeps`: the output shows every fragment and no placeholder
* `Nested`: a fragment spans one that was set aside before

## Main results

* `replacement_eq`: what is stored for a fragment
* `keeps_iff_not_nested`: when the output does
* `not_keeps_linkInCode`: a link in inline code
-/

namespace Portex.Markdown

open Foundation TelegramClient

/-- The output holds no placeholder, and it holds what was stored for each: the fragment, escaped,
in its tags. -/
def Keeps (uuid4 : ℕ → Uuid) (text : List Char) : Prop :=
  ∀ item ∈ (conversion uuid4 text).2.replacements.items,
    ¬ item.1 <:+: markdownToHtml uuid4 text ∧ item.2 <:+: markdownToHtml uuid4 text

/-- A link spans a code block, inline code spans a code block or a link, or emphasis that is not
supported spans any of these or other such emphasis. -/
def Nested (text : List Char) : Prop :=
  ∃ f ∈ (read text).2, ∃ n ∈ f.nodes, n.index?.isSome = true

instance (text : List Char) : Decidable (Nested text) :=
  inferInstanceAs (Decidable (∃ f ∈ (read text).2, ∃ n ∈ f.nodes, n.index?.isSome = true))

/-- What is stored for a fragment that spans no other: its text, escaped, in its tags. -/
theorem replacement_eq {f : Fragment} (h : ∀ n ∈ f.nodes, n.index? = none)
    (token : Kind → ℕ → List Char) :
    f.replacement token = f.kind.opening.flatMap Markup.html ++
      htmlEscape (f.nodes.flatMap Node.source) ++ f.kind.closing.flatMap Markup.html := by
  have hnodes : f.nodes.flatMap (Node.shown token) = htmlEscape (f.nodes.flatMap Node.source) := by
    rw [htmlEscape, List.flatMap_assoc]
    refine List.flatMap_congr fun n hn => ?_
    cases n with
    | char c => exact (List.append_nil _).symm
    | held kind i source => cases h _ hn
  rw [Fragment.replacement, hnodes]

theorem infix_flatMap_of_mem {α β : Type} {as : List α} {a : α} (g : α → List β) (h : a ∈ as) :
    g a <:+: as.flatMap g := by
  obtain ⟨front, back, rfl⟩ := List.append_of_mem h
  rw [List.flatMap_append, List.flatMap_cons]
  exact ⟨_, _, List.append_assoc _ _ _⟩

theorem flatMap_infix {α β : Type} {as bs : List α} (g : α → List β) (h : as <:+: bs) :
    as.flatMap g <:+: bs.flatMap g := by
  obtain ⟨front, back, rfl⟩ := h
  rw [List.flatMap_append, List.flatMap_append]
  exact ⟨_, _, rfl⟩

/-- The placeholder of a fragment gives way to it. -/
theorem atoms_infix_expand {fragments : List Fragment} {as : List Atom} {a : Atom} {i : ℕ}
    {f : Fragment} (ha : a ∈ as) (hindex : a.index? = some i) (hf : fragments[i]? = some f) :
    f.atoms <:+: as.flatMap (Atom.expand fragments fragments.length) := by
  have hi := (List.getElem?_eq_some_iff.mp hf).1
  have hexpand : a.expand fragments fragments.length = f.atoms := by
    cases a with
    | kept c => cases hindex
    | tags markup source => cases hindex
    | left kind j source =>
      obtain rfl := Option.some.inj hindex
      exact expand_left_of_lt hi hf
  exact hexpand ▸ infix_flatMap_of_mem (Atom.expand fragments fragments.length) ha

section Fragments

variable {uuid4 : ℕ → Uuid} {text : List Char} {i : ℕ} {f : Fragment}

/-- What a fragment carries over to one that spans it holds of one that has its placeholder in the
text. -/
theorem exists_outermost (holds : Fragment → Prop)
    (hspans : ∀ (g : Fragment), ∀ n ∈ g.nodes, ∀ (i : ℕ) (f : Fragment), n.index? = some i →
      n.RefersTo (read text).2 → (read text).2[i]? = some f → holds f → holds g)
    (hf : (read text).2[i]? = some f) (hholds : holds f) :
    ∃ a ∈ atomsOf text, ∃ j g, a.index? = some j ∧ (read text).2[j]? = some g ∧ holds g := by
  induction hn : (read text).2.length - i using Nat.strong_induction_on generalizing i f with
  | _ n ih =>
    have hi := (List.getElem?_eq_some_iff.mp hf).1
    rcases (sound_read text).placed i hi with hnode | ⟨g, hg, m, hm, hindex⟩
    · obtain ⟨a, ha, hindex⟩ := exists_atomsOf_index? hnode
      exact ⟨a, ha, i, f, hindex, hf, hholds⟩
    -- the fragment is in one that was set aside later
    · obtain ⟨j, hj⟩ := List.getElem?_of_mem hg
      have hrefers := (sound_read text).before j g hj m hm
      have hlt := index?_lt_of_take hrefers hindex
      have hjlt := (List.getElem?_eq_some_iff.mp hj).1
      exact ih _ (by omega) hj
        (hspans g m hm i f hindex (refersTo_of_take hrefers) hf hholds) rfl

/-- The items of `replacements`. -/
theorem mem_items_iff (hfresh : Fresh uuid4 text) {item : List Char × List Char} :
    item ∈ (conversion uuid4 text).2.replacements.items ↔
      ∃ i f, (read text).2[i]? = some f ∧
        item = (tokenOf uuid4 f.kind i, f.replacement (tokenOf uuid4)) := by
  rw [snd_conversion, items_stashOf hfresh.distinct]
  constructor
  · intro h
    obtain ⟨⟨f, i⟩, hmem, rfl⟩ := List.mem_map.mp h
    exact ⟨i, f, List.mk_mem_zipIdx_iff_getElem?.mp hmem, rfl⟩
  · rintro ⟨i, f, hf, rfl⟩
    exact List.mem_map.mpr ⟨(f, i), List.mk_mem_zipIdx_iff_getElem?.mpr hf, rfl⟩

theorem html_infix_output (hfresh : Fresh uuid4 text) {as : List Atom}
    (h : as <:+: outputOf text) :
    as.flatMap (Atom.html (tokenOf uuid4)) <:+: markdownToHtml uuid4 text := by
  rw [markdownToHtml_eq hfresh]
  exact flatMap_infix _ h

/-- A placeholder of the fragment is left in it. -/
theorem not_keeps_of_nested (hfresh : Fresh uuid4 text) (hnested : Nested text) :
    ¬ Keeps uuid4 text := by
  obtain ⟨f, hf, hspans⟩ := hnested
  obtain ⟨i, hi⟩ := List.getElem?_of_mem hf
  obtain ⟨a, ha, j, g, hindex, hg, n, hn, hheld⟩ :=
    exists_outermost (fun f => ∃ n ∈ f.nodes, n.index?.isSome = true)
      (fun g n hn i f hindex _ _ _ => ⟨n, hn, by rw [hindex]; rfl⟩) hi hspans
  have hatoms : g.atoms <:+: outputOf text := atoms_infix_expand ha hindex hg
  cases n with
  | char c => cases hheld
  | held kind k source =>
    have hatom : Atom.left kind k source ∈ g.atoms := mem_atoms_iff.mpr (.inr (.inl ⟨_, hn, rfl⟩))
    obtain ⟨e, he, rfl, -⟩ := refersTo_of_take ((sound_read text).before j g hg _ hn)
    have hitem := (mem_items_iff hfresh).mpr ⟨k, e, he, rfl⟩
    refine fun hkeeps => (hkeeps _ hitem).1 ?_
    have htoken := infix_flatMap_of_mem (Atom.html (tokenOf uuid4)) hatom
    exact htoken.trans (html_infix_output hfresh hatoms)

/-- Every placeholder of the text has given way to characters and tags. -/
theorem index?_outputOf (hnested : ¬ Nested text) : ∀ a ∈ outputOf text, a.index? = none := by
  intro a ha
  obtain ⟨b, hb, ha⟩ := List.mem_flatMap.mp ha
  cases b with
  | kept c => rw [List.mem_singleton.mp ha]; rfl
  | tags markup source => rw [List.mem_singleton.mp ha]; rfl
  | left kind i source =>
    obtain ⟨f, hf, -⟩ := refersTo_atomsOf text _ hb
    rw [expand_left_of_lt (List.getElem?_eq_some_iff.mp hf).1 hf] at ha
    rcases mem_atoms_iff.mp ha with rfl | ⟨n, hn, rfl⟩ | rfl
    · rfl
    · rw [index?_atom]
      cases hindex : n.index? with
      | none => rfl
      | some j =>
        exact absurd ⟨f, List.mem_of_getElem? hf, n, hn, by rw [hindex]; rfl⟩ hnested
    · rfl

theorem keeps_of_not_nested (hfresh : Fresh uuid4 text) (hnested : ¬ Nested text) :
    Keeps uuid4 text := by
  intro item hitem
  obtain ⟨i, f, hf, rfl⟩ := (mem_items_iff hfresh).mp hitem
  have hi := (List.getElem?_eq_some_iff.mp hf).1
  constructor
  · have hunseen : ¬ body uuid4 f.kind i <:+: (outputOf text).flatMap Atom.source := by
      rw [source_outputOf]
      exact hfresh.unseen i hi f.kind
    have hplaced := placed_tokenOf f.kind hunseen (refersTo_outputOf text)
      fun kind j source hmem => by
        have hindex := index?_outputOf hnested _ hmem
        cases hindex
    rw [markdownToHtml_eq hfresh]
    intro hinfix
    obtain ⟨a, ha, hindex⟩ := infix_flatMap (opaque_tokenOf uuid4 f.kind i).1 hplaced hinfix
    rw [index?_outputOf hnested a ha] at hindex
    cases hindex
  · rcases (sound_read text).placed i hi with hnode | ⟨g, hg, n, hn, hindex⟩
    · obtain ⟨a, ha, hindex⟩ := exists_atomsOf_index? hnode
      rw [← html_fragment]
      exact html_infix_output hfresh (atoms_infix_expand ha hindex hf)
    · exact absurd ⟨g, hg, n, hn, by rw [hindex]; rfl⟩ hnested

end Fragments

/-- **When the output keeps the message**: no fragment spans one set aside before it. -/
theorem keeps_iff_not_nested {uuid4 : ℕ → Uuid} {text : List Char} (hfresh : Fresh uuid4 text) :
    Keeps uuid4 text ↔ ¬ Nested text :=
  ⟨fun hkeeps hnested => not_keeps_of_nested hfresh hnested hkeeps, keeps_of_not_nested hfresh⟩

/-- Identifiers for a few placeholders. -/
def drawn (n : ℕ) : Uuid := fun _ => Fin.ofNat 16 n

theorem eq_of_drawn_eq {i j : ℕ} (hi : i < 16) (hj : j < 16) (h : drawn i = drawn j) : i = j := by
  have hmod : i % 16 = j % 16 := congrArg Fin.val (congrFun h 0)
  omega

theorem fresh_linkInCode : Fresh drawn "`[a](b)`".toList := by
  have hlength : (read "`[a](b)`".toList).2.length = 2 := by decide +kernel
  exact .of_distinct (fun i hi j hj h => eq_of_drawn_eq (by omega) (by omega) h)
    (by decide +kernel)

/-- A link in inline code is left out. -/
theorem not_keeps_linkInCode : ¬ "@@PORTEX_".toList <:+: "`[a](b)`".toList ∧
    Fresh drawn "`[a](b)`".toList ∧ ¬ Keeps drawn "`[a](b)`".toList :=
  ⟨by decide +kernel, fresh_linkInCode, not_keeps_of_nested fresh_linkInCode (by decide +kernel)⟩

theorem fresh_codeAndLink : Fresh drawn "`a` [b](c)".toList := by
  have hlength : (read "`a` [b](c)".toList).2.length = 2 := by decide +kernel
  exact .of_distinct (fun i hi j hj h => eq_of_drawn_eq (by omega) (by omega) h)
    (by decide +kernel)

theorem keeps_iff_not_nested_codeAndLink :
    Keeps drawn "`a` [b](c)".toList ↔ ¬ Nested "`a` [b](c)".toList :=
  keeps_iff_not_nested fresh_codeAndLink

end Portex.Markdown
