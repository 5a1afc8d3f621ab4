import Portex.Im.Document

/-!
# The fragments set aside

What every regular expression preserves of the nodes read so far and of the fragments set aside:
their text is the message, a placeholder stands for a fragment that was set aside before, and every
fragment has its placeholder among the nodes or in a fragment set aside later.

## Main definitions

* `Sound`: the invariant

## Main results

* `Sound.setAside`, `Sound.passAside`: one fragment, one regular expression
* `sound_setAsideAll`: all of them
-/

namespace Portex.Markdown

open Foundation TelegramClient

/-- The number of the fragment that a placeholder stands for. -/
def Node.index? : Node → Option ℕ
  | .char _ => none
  | .held _ i _ => some i

/-- The text of a fragment in the message. -/
def Fragment.source (f : Fragment) : List Char :=
  (f.opening ++ f.nodes ++ f.closing).flatMap Node.source

/-- A placeholder stands for one of the fragments. -/
def Node.RefersTo (fragments : List Fragment) : Node → Prop
  | .char _ => True
  | .held kind i source => ∃ f, fragments[i]? = some f ∧ f.kind = kind ∧ f.source = source

theorem Node.RefersTo.append {fragments : List Fragment} {n : Node} (h : n.RefersTo fragments)
    (more : List Fragment) : n.RefersTo (fragments ++ more) := by
  cases n with
  | char c => trivial
  | held kind i source =>
    obtain ⟨f, hf, hkind⟩ := h
    have hi := (List.getElem?_eq_some_iff.mp hf).1
    exact ⟨f, (List.getElem?_append_left hi).trans hf, hkind⟩

/-- Tags and the Markdown that they were made from. -/
def Marked : List Markup → List Char → Prop
  | [], source => source = []
  | [.opening .b], source | [.closing .b], source => source = "**".toList
  | [.opening .i], source | [.closing .i], source => source = "*".toList
  | [.opening .code], source | [.closing .code], source => source = "`".toList
  | [.opening .pre, .opening .code], source =>
    ∃ language newline, source = "```".toList ++ language ++ newline ∧
      (∀ c ∈ language, c ∉ ['\n', '`']) ∧ (newline = [] ∨ newline = ['\n'])
  | [.closing .code, .closing .pre], source => source = "```".toList
  | _, _ => False

/-- What is around the part of a match that is shown. -/
structure Around (kind : Kind) (parts : List (List Node)) : Prop where
  index : ∀ n ∈ (cut kind.group parts).1 ++ (cut kind.group parts).2.2, n.index? = none
  opening : Marked kind.opening ((cut kind.group parts).1.flatMap Node.source)
  closing : Marked kind.closing ((cut kind.group parts).2.2.flatMap Node.source)

/-- What holds of the nodes read so far and of the fragments set aside. -/
structure Sound (text : List Char) (nodes : List Node) (fragments : List Fragment) : Prop where
  source : nodes.flatMap Node.source = text
  refers : ∀ n ∈ nodes, n.RefersTo fragments
  /-- A fragment holds placeholders of those before it. -/
  before : ∀ (j : ℕ) (f : Fragment), fragments[j]? = some f →
    ∀ n ∈ f.nodes, n.RefersTo (fragments.take j)
  around : ∀ f ∈ fragments, ∀ n ∈ f.opening ++ f.closing, n.index? = none
  marked : ∀ f ∈ fragments, Marked f.kind.opening (f.opening.flatMap Node.source) ∧
    Marked f.kind.closing (f.closing.flatMap Node.source)
  placed : ∀ i < fragments.length, (∃ n ∈ nodes, n.index? = some i) ∨
    ∃ f ∈ fragments, ∃ n ∈ f.nodes, n.index? = some i

theorem source_fragmentOf (kind : Kind) (parts : List (List Node)) :
    (fragmentOf kind parts).source = parts.flatten.flatMap Node.source :=
  congrArg (·.flatMap Node.source) (cut_append kind.group parts)

theorem mem_fragmentOf (kind : Kind) {parts : List (List Node)} {n : Node}
    (h : n ∈ parts.flatten) :
    n ∈ (fragmentOf kind parts).nodes ∨
      n ∈ (fragmentOf kind parts).opening ++ (fragmentOf kind parts).closing := by
  rw [← cut_append kind.group parts] at h
  simp only [List.mem_append] at h ⊢
  tauto

namespace Sound

variable {text : List Char} {nodes front back : List Node} {fragments : List Fragment}
  {kind : Kind} {parts : List (List Node)}

/-- **A fragment set aside**: its placeholder is among the nodes in its place, and the placeholders
in it are in the fragment now. -/
theorem setAside (h : Sound text (front ++ (parts.flatten ++ back)) fragments)
    (haround : Around kind parts) :
    Sound text (front ++ (Markdown.setAside kind parts fragments).1 ++ back)
      (Markdown.setAside kind parts fragments).2 := by
  have hset : (Markdown.setAside kind parts fragments).2 = fragments ++ [fragmentOf kind parts] :=
    rfl
  have hlast : (fragments ++ [fragmentOf kind parts])[fragments.length]? =
      some (fragmentOf kind parts) := List.getElem?_concat_length
  rw [hset]
  refine ⟨?_, ?_, ?_, ?_, ?_, ?_⟩
  · rw [← h.source]
    simp [Markdown.setAside, Node.source]
  · intro n hn
    rcases List.mem_append.mp hn with hn | hn
    · rcases List.mem_append.mp hn with hn | hn
      · exact (h.refers n (List.mem_append_left _ hn)).append _
      · rw [List.mem_singleton.mp hn]
        exact ⟨fragmentOf kind parts, hlast, rfl, source_fragmentOf kind parts⟩
    · exact (h.refers n (List.mem_append_right _ (List.mem_append_right _ hn))).append _
  · intro j f hf n hn
    rcases Nat.lt_or_ge j fragments.length with hj | hj
    · have hf' : fragments[j]? = some f := (List.getElem?_append_left hj).symm.trans hf
      have htake : (fragments ++ [fragmentOf kind parts]).take j = fragments.take j :=
        List.take_append_of_le_length hj.le
      exact htake ▸ h.before j f hf' n hn
    · obtain rfl : j = fragments.length := by
        have hlt := (List.getElem?_eq_some_iff.mp hf).1
        rw [List.length_append, List.length_singleton] at hlt
        omega
      obtain rfl := Option.some.inj (hlast.symm.trans hf)
      have hmem : n ∈ parts.flatten := by
        rw [← cut_append kind.group parts]
        exact List.mem_append_left _ (List.mem_append_right _ hn)
      rw [List.take_left]
      exact h.refers n (List.mem_append_right _ (List.mem_append_left _ hmem))
  · intro f hf
    rcases List.mem_append.mp hf with hf | hf
    · exact h.around f hf
    · rw [List.mem_singleton.mp hf]
      exact haround.index
  · intro f hf
    rcases List.mem_append.mp hf with hf | hf
    · exact h.marked f hf
    · rw [List.mem_singleton.mp hf]
      exact ⟨haround.opening, haround.closing⟩
  · intro i hi
    rcases Nat.lt_succ_iff_lt_or_eq.mp (by simpa using hi) with hi | rfl
    · rcases h.placed i hi with ⟨n, hn, hindex⟩ | ⟨f, hf, hheld⟩
      · rcases List.mem_append.mp hn with hn | hn
        · exact .inl ⟨n, List.mem_append_left _ (List.mem_append_left _ hn), hindex⟩
        rcases List.mem_append.mp hn with hn | hn
        -- a placeholder in the match moves into the fragment
        · rcases mem_fragmentOf kind hn with hn | hn
          · exact .inr ⟨fragmentOf kind parts, List.mem_append_right _ List.mem_cons_self, n, hn,
              hindex⟩
          · rw [haround.index n hn] at hindex
            cases hindex
        · exact .inl ⟨n, List.mem_append_right _ hn, hindex⟩
      · exact .inr ⟨f, List.mem_append_left _ hf, hheld⟩
    · exact .inl ⟨_, List.mem_append_left _ (List.mem_append_right _ List.mem_cons_self), rfl⟩

/-- **One regular expression.** -/
theorem passAside {read : List Node × List Fragment} (h : Sound text read.1 read.2)
    (kind : Kind) (mark : Node → List Char) {p : Pattern Char} (hp : p.Visible)
    (haround : ∀ parts, List.Forall₂ Piece.Fits (p.lift mark).pieces parts →
      parts.flatten ⊆ read.1 → Around kind parts) :
    Sound text (Markdown.passAside mark kind p read).1 (Markdown.passAside mark kind p read).2 := by
  have hlift : (p.lift mark).Visible := hp.lift
  suffices hrun : [] ⊆ read.1 ∧ Sound text ((Markdown.passAside mark kind p read).1 ++ [])
      (Markdown.passAside mark kind p read).2 by
    rw [List.append_nil] at hrun
    exact hrun.2
  refine Pattern.sub_invariant
    (fun out rest fragments => rest ⊆ read.1 ∧ Sound text (out ++ rest) fragments) hlift ?_ ?_
    ⟨fun _ hn => hn, h⟩
  · intro out n rest fragments ⟨hrest, hsound⟩
    refine ⟨fun m hm => hrest (List.mem_cons_of_mem _ hm), ?_⟩
    rw [List.append_assoc]
    exact hsound
  · intro out parts rest fragments hfits ⟨hrest, hsound⟩
    exact ⟨fun m hm => hrest (List.mem_append_right _ hm),
      hsound.setAside (haround parts hfits fun m hm => hrest (List.mem_append_left _ hm))⟩

end Sound

theorem sound_map_char (text : List Char) : Sound text (text.map .char) [] where
  source := by
    rw [List.flatMap_map]
    exact List.flatMap_singleton' text
  refers n hn := by
    obtain ⟨c, -, rfl⟩ := List.mem_map.mp hn
    trivial
  before := nofun
  around := nofun
  marked := nofun
  placed := nofun

/-- A match of a character is one, not a placeholder. -/
theorem eq_char_of_raw {n : Node} {c : Char} (hc : c ≠ '@')
    (h : liftClass (Node.raw atSign) (· == c) n = true) : n = .char c := by
  have h := liftClass_eq_true.mp h
  cases n with
  | char d => exact congrArg Node.char (eq_of_beq (h d List.mem_cons_self))
  | held kind i source => exact absurd (eq_of_beq (h '@' List.mem_cons_self)).symm hc

theorem eq_char_of_shown {n : Node} {c : Char} (hc : c ≠ '@') (hamp : c ≠ '&')
    (h : liftClass (Node.shown atSign) (· == c) n = true) : n = .char c := by
  have h := liftClass_eq_true.mp h
  cases n with
  | char d =>
    rw [Node.shown] at h
    rcases htmlEscapeChar_cases d with ⟨-, hd⟩ | hd
    · exact congrArg Node.char (eq_of_beq (h d (by rw [hd]; exact List.mem_cons_self)))
    · have hfirst : ∀ entity ∈ entities, '&' ∈ entity := by decide
      exact absurd (eq_of_beq (h '&' (hfirst _ hd))).symm hamp
  | held kind i source => exact absurd (eq_of_beq (h '@' List.mem_cons_self)).symm hc

theorem around_codeBlock {parts : List (List Node)}
    (hfits : List.Forall₂ Piece.Fits (codeBlock.lift (Node.raw atSign)).pieces parts)
    (hchars : ∀ n ∈ parts.flatten, ∃ c, n = .char c) : Around .codeBlock parts := by
  have hindex : ∀ n ∈ (cut (Kind.group .codeBlock) parts).1 ++
      (cut (Kind.group .codeBlock) parts).2.2, n.index? = none := by
    intro n hn
    have hmem : n ∈ parts.flatten := by
      rw [← cut_append (Kind.group .codeBlock) parts]
      rcases List.mem_append.mp hn with hn | hn
      · exact List.mem_append_left _ (List.mem_append_left _ hn)
      · exact List.mem_append_right _ hn
    obtain ⟨c, rfl⟩ := hchars n hmem
    rfl
  obtain _ | ⟨⟨n₀, rfl, h₀⟩, _ | ⟨⟨n₁, rfl, h₁⟩, _ | ⟨⟨n₂, rfl, h₂⟩, _ | @⟨_, language, _, _,
    hlanguage, _ | @⟨_, newline, _, _, hnewline, _ | ⟨-, _ | ⟨⟨n₃, rfl, h₃⟩, _ | ⟨⟨n₄, rfl, h₄⟩,
    _ | ⟨⟨n₅, rfl, h₅⟩, ⟨⟩⟩⟩⟩⟩⟩⟩⟩⟩⟩ := hfits
  obtain rfl := eq_char_of_raw (by decide) h₀
  obtain rfl := eq_char_of_raw (by decide) h₁
  obtain rfl := eq_char_of_raw (by decide) h₂
  obtain rfl := eq_char_of_raw (by decide) h₃
  obtain rfl := eq_char_of_raw (by decide) h₄
  obtain rfl := eq_char_of_raw (by decide) h₅
  refine ⟨hindex, ⟨language.flatMap Node.source, newline.flatMap Node.source, ?_, ?_, ?_⟩, rfl⟩
  · simp [cut, Kind.group, Node.source]
  · intro c hc
    obtain ⟨n, hn, hc⟩ := List.mem_flatMap.mp hc
    obtain ⟨d, rfl⟩ := hchars n (by simp [hn])
    have hd := liftClass_eq_true.mp (hlanguage.1 _ hn) d List.mem_cons_self
    rw [List.mem_singleton.mp hc]
    simpa [noneOf] using hd
  · rcases hnewline with rfl | ⟨n, rfl, hn⟩
    · exact .inl rfl
    · obtain rfl := eq_char_of_raw (by decide) hn
      exact .inr rfl

theorem around_inlineCode {parts : List (List Node)}
    (hfits : List.Forall₂ Piece.Fits (inlineCode.lift (Node.shown atSign)).pieces parts) :
    Around .inlineCode parts := by
  obtain _ | ⟨⟨n₀, rfl, h₀⟩, _ | ⟨-, _ | ⟨⟨n₁, rfl, h₁⟩, ⟨⟩⟩⟩⟩ := hfits
  obtain rfl := eq_char_of_shown (by decide) (by decide) h₀
  obtain rfl := eq_char_of_shown (by decide) (by decide) h₁
  refine ⟨fun n hn => ?_, rfl, rfl⟩
  rcases List.mem_append.mp hn with hn | hn
  · rw [List.mem_singleton.mp hn]
    rfl
  · rw [List.mem_singleton.mp hn]
    rfl

/-- **All that is set aside.** -/
theorem sound_setAsideAll (text : List Char) :
    Sound text (setAsideAll text).1 (setAsideAll text).2 := by
  have hcode : Sound text
      (passAside (Node.raw atSign) .codeBlock codeBlock (text.map .char, [])).1
      (passAside (Node.raw atSign) .codeBlock codeBlock (text.map .char, [])).2 := by
    refine Sound.passAside (sound_map_char text) .codeBlock (Node.raw atSign) (visible_lit rfl) ?_
    intro parts hfits hsub
    refine around_codeBlock hfits fun n hn => ?_
    obtain ⟨c, -, rfl⟩ := List.mem_map.mp (hsub hn)
    exact ⟨c, rfl⟩
  have hlink := hcode.passAside .markdownLink (Node.raw atSign)
    narrow_markdownLink.visible fun _ _ _ => ⟨nofun, rfl, rfl⟩
  have hinline := hlink.passAside .inlineCode (Node.shown atSign)
    narrow_inlineCode.visible fun _ hfits _ => around_inlineCode hfits
  have hemphasis (ps : List (Pattern Char)) (hps : ∀ p ∈ ps, Narrow p)
      (read : List Node × List Fragment) (h : Sound text read.1 read.2) :
      Sound text
        (ps.foldl (fun read p => passAside (Node.shown atSign) .unsupported p read) read).1
        (ps.foldl (fun read p => passAside (Node.shown atSign) .unsupported p read) read).2 := by
    induction ps generalizing read with
    | nil => exact h
    | cons p ps ih =>
      exact ih (fun q hq => hps q (List.mem_cons_of_mem _ hq)) _
        (h.passAside .unsupported _ (hps p List.mem_cons_self).visible fun _ _ _ =>
          ⟨nofun, rfl, rfl⟩)
  exact hemphasis _ narrow_unsupportedEmphasis _ hinline

end Portex.Markdown
