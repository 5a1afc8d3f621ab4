import Portex.Im.Fragments

/-!
# The text with placeholders

The text with placeholders is a list of atoms: characters of the message that are kept,
placeholders, and tags. Together they are the message, each tag stands for the Markdown that it was
made from, and emphasis leaves the placeholders where they are.

## Main definitions

* `Atom`, `atomsOf`: the text with placeholders

## Main results

* `html_atomsOf`, `source_atomsOf`: the text with placeholders, and the message
* `refersTo_atomsOf`: what the placeholders and the tags stand for
* `exists_atomsOf_index?`: the placeholders outside of the fragments
-/

namespace Portex.Markdown

open Foundation TelegramClient

/-! ## Atoms -/

/-- A character that is kept, a placeholder, or tags, with what they were in the message. -/
inductive Atom
  | kept (c : Char)
  | left (kind : Kind) (i : ℕ) (source : List Char)
  | tags (markup : List Markup) (source : List Char)

namespace Atom

def html (token : Kind → ℕ → List Char) : Atom → List Char
  | kept c => htmlEscapeChar c
  | left kind i _ => token kind i
  | tags markup _ => markup.flatMap Markup.html

def source : Atom → List Char
  | kept c => [c]
  | left _ _ source | tags _ source => source

def index? : Atom → Option ℕ
  | left _ i _ => some i
  | kept _ | tags _ _ => none

variable (token : Kind → ℕ → List Char)

@[simp] theorem html_tags (markup : List Markup) (source : List Char) :
    (tags markup source).html token = markup.flatMap Markup.html := rfl

@[simp] theorem source_tags (markup : List Markup) (text : List Char) :
    (tags markup text).source = text := rfl

@[simp] theorem index?_tags (markup : List Markup) (source : List Char) :
    (tags markup source).index? = none := rfl

end Atom

def Node.atom : Node → Atom
  | .char c => .kept c
  | .held kind i source => .left kind i source

@[simp] theorem html_atom (token : Kind → ℕ → List Char) (n : Node) :
    n.atom.html token = n.shown token := by
  cases n <;> rfl

@[simp] theorem source_atom (n : Node) : n.atom.source = n.source := by
  cases n <;> rfl

@[simp] theorem index?_atom (n : Node) : n.atom.index? = n.index? := by
  cases n <;> rfl

/-- The atoms of an element. -/
def Styled.atoms {ν : Type} (atoms : ν → List Atom) : Styled ν → List Atom
  | .plain a => atoms a
  | .tagged tag opening inner closing =>
    .tags [.opening tag] ((opening.flatMap atoms).flatMap Atom.source) :: (inner.flatMap atoms ++
      [.tags [.closing tag] ((closing.flatMap atoms).flatMap Atom.source)])

/-- The text with placeholders. -/
def atomsOf (text : List Char) : List Atom :=
  (read text).1.flatMap (Styled.atoms (Styled.atoms fun n => [n.atom]))

/-- A fragment with its tags. -/
def Fragment.atoms (f : Fragment) : List Atom :=
  .tags f.kind.opening (f.opening.flatMap Node.source) ::
    (f.nodes.map Node.atom ++ [.tags f.kind.closing (f.closing.flatMap Node.source)])

theorem html_styled {ν : Type} {token : Kind → ℕ → List Char} {atoms : ν → List Atom}
    {render : ν → List Char} (h : ∀ a, (atoms a).flatMap (Atom.html token) = render a)
    (s : Styled ν) : (s.atoms atoms).flatMap (Atom.html token) = s.shown render := by
  cases s with
  | plain a => exact h a
  | tagged tag opening inner closing =>
    have hinner : (inner.flatMap atoms).flatMap (Atom.html token) = inner.flatMap render := by
      rw [List.flatMap_assoc]
      exact List.flatMap_congr fun a _ => h a
    simp [Styled.atoms, Styled.shown, hinner]

theorem html_atomsOf (uuid4 : ℕ → Uuid) (text : List Char) :
    (atomsOf text).flatMap (Atom.html (tokenOf uuid4)) = (conversion uuid4 text).1 := by
  have hnode (n : Node) : [n.atom].flatMap (Atom.html (tokenOf uuid4)) =
      n.shown (tokenOf uuid4) := by
    simp
  have hconversion : (conversion uuid4 text).1 =
      (read text).1.flatMap (Styled.shown (Styled.shown (Node.shown (tokenOf uuid4)))) := by
    simp only [conversion_eq]
  calc (atomsOf text).flatMap (Atom.html (tokenOf uuid4))
      = (read text).1.flatMap (Styled.shown (Styled.shown (Node.shown (tokenOf uuid4)))) := by
        rw [atomsOf, List.flatMap_assoc]
        exact List.flatMap_congr fun s _ => html_styled (html_styled hnode) s
    _ = (conversion uuid4 text).1 := hconversion.symm

theorem snd_conversion (uuid4 : ℕ → Uuid) (text : List Char) :
    (conversion uuid4 text).2 = stashOf (tokenOf uuid4) (read text).2 := by
  simp only [conversion_eq]

theorem html_fragment (token : Kind → ℕ → List Char) (f : Fragment) :
    f.atoms.flatMap (Atom.html token) = f.replacement token := by
  simp [Fragment.atoms, Fragment.replacement, List.flatMap_map]

theorem source_fragment (f : Fragment) : f.atoms.flatMap Atom.source = f.source := by
  simp [Fragment.atoms, Fragment.source, List.flatMap_map]

/-! ## What emphasis keeps -/

section Emphasis

variable {ν : Type} {mark : ν → List Char} {tag : Tag} {group : ℕ} {p : Pattern Char}
  {read : List ν × List Fragment} {atoms : ν → List Atom}

theorem emphasise_snd (hp : p.Visible) : (emphasise mark tag group p read).2 = read.2 :=
  Pattern.sub_invariant (fun _ _ fragments => fragments = read.2) hp.lift
    (fun _ _ _ _ h => h) (fun _ _ _ _ _ h => h) rfl

theorem source_emphasise (hp : p.Visible) :
    (emphasise mark tag group p read).1.flatMap (fun s => (s.atoms atoms).flatMap Atom.source) =
      read.1.flatMap fun a => (atoms a).flatMap Atom.source := by
  refine Pattern.flatMap_sub (fun a => (atoms a).flatMap Atom.source)
    (fun s : Styled ν => (s.atoms atoms).flatMap Atom.source) hp.lift (fun _ => rfl)
    (fun parts fragments _ => ?_) read.2
  rw [← cut_append (some group) parts]
  simp [style, Styled.atoms, List.flatMap_assoc]

/-- Emphasis keeps its placeholders where there are none in what is around it. -/
theorem index?_emphasise (hp : p.Visible) {around : List ν}
    (haround : ∀ parts, List.Forall₂ Piece.Fits (p.lift mark).pieces parts →
      (cut (some group) parts).1 = around ∧ (cut (some group) parts).2.2 = around)
    (hindex : ∀ a ∈ around, ∀ b ∈ atoms a, b.index? = none) :
    (emphasise mark tag group p read).1.flatMap
        (fun s : Styled ν => (s.atoms atoms).flatMap fun a => a.index?.toList) =
      read.1.flatMap fun a => (atoms a).flatMap fun a => a.index?.toList := by
  have hnil : around.flatMap (fun a => (atoms a).flatMap fun a => a.index?.toList) = [] := by
    rw [List.flatMap_eq_nil_iff]
    intro a ha
    rw [List.flatMap_eq_nil_iff]
    exact fun b hb => by rw [hindex a ha b hb]; rfl
  have hplain (a : ν) : ((Styled.plain a).atoms atoms).flatMap (fun a => a.index?.toList) =
      (atoms a).flatMap fun a => a.index?.toList := rfl
  refine Pattern.flatMap_sub (fun a => (atoms a).flatMap fun a => a.index?.toList)
    (fun s => (Styled.atoms atoms s).flatMap fun a => a.index?.toList) hp.lift hplain
    (fun parts fragments hfits => ?_) read.2
  obtain ⟨hopening, hclosing⟩ := haround parts hfits
  rw [← cut_append (some group) parts, List.flatMap_append, List.flatMap_append, hopening,
    hclosing, hnil]
  simp [style, Styled.atoms, List.flatMap_assoc]

theorem forall_emphasise (inv : Atom → Prop) (hp : p.Visible) {around : List ν}
    (haround : ∀ parts, List.Forall₂ Piece.Fits (p.lift mark).pieces parts →
      (cut (some group) parts).1 = around ∧ (cut (some group) parts).2.2 = around)
    (hopen : inv (.tags [.opening tag] ((around.flatMap atoms).flatMap Atom.source)))
    (hclose : inv (.tags [.closing tag] ((around.flatMap atoms).flatMap Atom.source)))
    (h : ∀ a ∈ read.1, ∀ b ∈ atoms a, inv b) :
    ∀ s ∈ (emphasise mark tag group p read).1, ∀ b ∈ s.atoms atoms, inv b := by
  refine Pattern.forall_sub hp.lift h ?_ _
  intro parts fragments hfits hsub s hs b hb
  obtain ⟨hopening, hclosing⟩ := haround parts hfits
  rw [List.mem_singleton.mp hs] at hb
  rw [hopening, hclosing] at hb
  rcases List.mem_cons.mp hb with rfl | hb
  · exact hopen
  rcases List.mem_append.mp hb with hb | hb
  · obtain ⟨a, ha, hb⟩ := List.mem_flatMap.mp hb
    refine h a (hsub ?_) b hb
    rw [← cut_append (some group) parts]
    exact List.mem_append_left _ (List.mem_append_right _ ha)
  · rw [List.mem_singleton.mp hb]
    exact hclose

end Emphasis

/-! ## Bold and italics -/

theorem around_bold (parts : List (List Node))
    (hfits : List.Forall₂ Piece.Fits (bold.lift (Node.shown atSign)).pieces parts) :
    (cut (some 2) parts).1 = [.char '*', .char '*'] ∧
      (cut (some 2) parts).2.2 = [.char '*', .char '*'] := by
  obtain _ | ⟨⟨n₀, rfl, h₀⟩, _ | ⟨⟨n₁, rfl, h₁⟩, _ | ⟨-, _ | ⟨⟨n₂, rfl, h₂⟩,
    _ | ⟨⟨n₃, rfl, h₃⟩, ⟨⟩⟩⟩⟩⟩⟩ := hfits
  obtain rfl := eq_char_of_shown (by decide) (by decide) h₀
  obtain rfl := eq_char_of_shown (by decide) (by decide) h₁
  obtain rfl := eq_char_of_shown (by decide) (by decide) h₂
  obtain rfl := eq_char_of_shown (by decide) (by decide) h₃
  exact ⟨rfl, rfl⟩

theorem eq_plain_of_shown {s : Styled Node} {c : Char} (hc : c ≠ '@') (hamp : c ≠ '&')
    (hlt : c ≠ '<') (h : liftClass (Styled.shown (Node.shown atSign)) (· == c) s = true) :
    s = .plain (.char c) := by
  cases s with
  | plain n => exact congrArg Styled.plain (eq_char_of_shown hc hamp h)
  | tagged tag opening inner closing =>
    have hfirst : ('<' == c) = true :=
      liftClass_eq_true.mp h '<' (List.mem_append_left _ (List.mem_append_left _
        (List.mem_append_left _ (List.mem_append_left _ List.mem_cons_self))))
    exact absurd (eq_of_beq hfirst).symm hlt

theorem around_italic (parts : List (List (Styled Node)))
    (hfits : List.Forall₂ Piece.Fits (italic.lift (Styled.shown (Node.shown atSign))).pieces
      parts) :
    (cut (some 1) parts).1 = [.plain (.char '*')] ∧
      (cut (some 1) parts).2.2 = [.plain (.char '*')] := by
  obtain _ | ⟨⟨s₀, rfl, h₀⟩, _ | ⟨-, _ | ⟨⟨s₁, rfl, h₁⟩, ⟨⟩⟩⟩⟩ := hfits
  obtain rfl := eq_plain_of_shown (by decide) (by decide) (by decide) h₀
  obtain rfl := eq_plain_of_shown (by decide) (by decide) (by decide) h₁
  exact ⟨rfl, rfl⟩

/-! ## The text with placeholders -/

theorem snd_read (text : List Char) : (read text).2 = (setAsideAll text).2 :=
  (emphasise_snd (visible_lit rfl)).trans (emphasise_snd (visible_lit rfl))

/-- The atoms are the message. -/
theorem source_atomsOf (text : List Char) : (atomsOf text).flatMap Atom.source = text := by
  rw [atomsOf, List.flatMap_assoc]
  calc (read text).1.flatMap
        (fun s => (s.atoms (Styled.atoms fun n => [n.atom])).flatMap Atom.source)
      = (boldAll text).1.flatMap fun s => (s.atoms fun n => [n.atom]).flatMap Atom.source :=
        source_emphasise (visible_lit rfl)
    _ = (setAsideAll text).1.flatMap fun n => [n.atom].flatMap Atom.source :=
        source_emphasise (visible_lit rfl)
    _ = (setAsideAll text).1.flatMap Node.source := List.flatMap_congr fun n _ => by simp
    _ = text := (sound_setAsideAll text).source

/-- What holds of an atom: a placeholder stands for one of the fragments, and tags for the Markdown
that they were made from. -/
def Atom.RefersTo (fragments : List Fragment) : Atom → Prop
  | .kept _ => True
  | .left kind i source => ∃ f, fragments[i]? = some f ∧ f.kind = kind ∧ f.source = source
  | .tags markup source => Marked markup source

theorem Node.RefersTo.atom {fragments : List Fragment} {n : Node} (h : n.RefersTo fragments) :
    n.atom.RefersTo fragments := by
  cases n with
  | char c => trivial
  | held kind i source => exact h

theorem refersTo_atomsOf (text : List Char) : ∀ a ∈ atomsOf text, a.RefersTo (read text).2 := by
  have hnodes : ∀ n ∈ (setAsideAll text).1, ∀ a ∈ [n.atom], a.RefersTo (read text).2 := by
    intro n hn a ha
    rw [List.mem_singleton.mp ha, snd_read]
    exact ((sound_setAsideAll text).refers n hn).atom
  have hbold : ∀ s ∈ (boldAll text).1, ∀ a ∈ s.atoms fun n => [n.atom],
      a.RefersTo (read text).2 :=
    forall_emphasise (Atom.RefersTo _) (visible_lit rfl) around_bold rfl rfl hnodes
  have hitalic : ∀ s ∈ (read text).1, ∀ a ∈ s.atoms (Styled.atoms fun n => [n.atom]),
      a.RefersTo (read text).2 :=
    forall_emphasise (Atom.RefersTo _) (visible_lit rfl) around_italic rfl rfl hbold
  intro a ha
  obtain ⟨s, hs, ha⟩ := List.mem_flatMap.mp ha
  exact hitalic s hs a ha

/-- Emphasis leaves the placeholders where they are. -/
theorem index?_atomsOf (text : List Char) :
    (atomsOf text).flatMap (fun a => a.index?.toList) =
      (setAsideAll text).1.flatMap fun n => n.index?.toList := by
  rw [atomsOf, List.flatMap_assoc]
  calc (read text).1.flatMap (fun s => (s.atoms (Styled.atoms fun n => [n.atom])).flatMap
        fun a => a.index?.toList)
      = (boldAll text).1.flatMap fun s => (s.atoms fun n => [n.atom]).flatMap
          fun a => a.index?.toList := by
        refine index?_emphasise (visible_lit rfl) around_italic fun s hs a ha => ?_
        rw [List.mem_singleton.mp hs] at ha
        rw [List.mem_singleton.mp ha]
        rfl
    _ = (setAsideAll text).1.flatMap fun n => [n.atom].flatMap fun a => a.index?.toList := by
        refine index?_emphasise (visible_lit rfl) around_bold fun n hn a ha => ?_
        have hstar : n = .char '*' := by simpa using hn
        rw [List.mem_singleton.mp ha, hstar]
        rfl
    _ = (setAsideAll text).1.flatMap fun n => n.index?.toList :=
        List.flatMap_congr fun n _ => by simp

theorem exists_atomsOf_index? {text : List Char} {i : ℕ}
    (h : ∃ n ∈ (setAsideAll text).1, n.index? = some i) :
    ∃ a ∈ atomsOf text, a.index? = some i := by
  obtain ⟨n, hn, hindex⟩ := h
  have hmem : i ∈ (atomsOf text).flatMap fun a => a.index?.toList := by
    rw [index?_atomsOf]
    exact List.mem_flatMap.mpr ⟨n, hn, by simp [hindex]⟩
  obtain ⟨a, ha, hi⟩ := List.mem_flatMap.mp hmem
  exact ⟨a, ha, by simpa using hi⟩

end Portex.Markdown
