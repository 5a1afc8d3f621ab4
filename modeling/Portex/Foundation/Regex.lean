import Mathlib.Data.List.Basic
import Mathlib.Data.List.Infix
import Mathlib.Tactic.Common

/-!
# Regular expressions that backtrack

Patterns that are a sequence of classes, each taken once, or as often as the rest of the pattern
allows, as a backtracking matcher with greedy and lazy repetitions finds them, and substitution at
the leftmost matches that do not overlap.

## Main definitions

* `Piece`, `Pattern`: patterns
* `matchPieces`: the parts of a match
* `Pattern.split`, `Pattern.sub`: the matches in a text, and what becomes of it

## Main results

* `matchPieces_eq_some`: what a match is
* `flatten_split`: the matches and what is between them are the text
-/

namespace Foundation

universe u v w

/-- What a pattern asks of the next elements. -/
inductive Piece (α : Type u)
  | one (accepts : α → Bool)
  /-- One or none, rather one. -/
  | optional (accepts : α → Bool)
  /-- Any number, from one on for a `plus`, and rather few for a `lazy` piece. -/
  | many (accepts : α → Bool) (plus lazy : Bool)

/-- The class of a piece. -/
def Piece.accepts {α : Type u} : Piece α → α → Bool
  | .one accepts | .optional accepts | .many accepts _ _ => accepts

structure Pattern (α : Type u) where
  /-- What may not come before a match. -/
  behind : α → Bool := fun _ => false
  pieces : List (Piece α)
  /-- What may not come after a match. -/
  ahead : α → Bool := fun _ => false

section Match

variable {α : Type u} {β : Type v} {σ : Type w}

/-- Some elements of a class, as few or as many as let the rest match. -/
def star (accepts : α → Bool) (lazy : Bool) (rest : List α → Option β) :
    List α → Option (List α × β)
  | [] => (rest []).map fun r => ([], r)
  | a :: text =>
    let stop := (rest (a :: text)).map fun r => ([], r)
    let more :=
      if accepts a then (star accepts lazy rest text).map fun (part, r) => (a :: part, r) else none
    if lazy then stop.or more else more.or stop

/-- The same where one element is taken at least. -/
def many (accepts : α → Bool) (plus lazy : Bool) (rest : List α → Option β) (text : List α) :
    Option (List α × β) :=
  if plus then
    match text with
    | [] => none
    | a :: text =>
      if accepts a then (star accepts lazy rest text).map fun (part, r) => (a :: part, r) else none
  else star accepts lazy rest text

/-- The parts of a match at the beginning of a text, one for each piece. -/
def matchPieces (ahead : α → Bool) : List (Piece α) → List α → Option (List (List α))
  | [], text => if text.head?.any ahead then none else some []
  | .one accepts :: pieces, text =>
    match text with
    | [] => none
    | a :: text =>
      if accepts a then (matchPieces ahead pieces text).map ([a] :: ·) else none
  | .optional accepts :: pieces, text =>
    (match text with
      | [] => none
      | a :: text =>
        if accepts a then (matchPieces ahead pieces text).map ([a] :: ·) else none).or
      ((matchPieces ahead pieces text).map ([] :: ·))
  | .many accepts plus lazy :: pieces, text =>
    (many accepts plus lazy (matchPieces ahead pieces) text).map fun (part, parts) => part :: parts

/-- An element that is no match's, or a match. -/
inductive Segment (α : Type u)
  | plain (a : α)
  | found (parts : List (List α))

/-- The text of a segment. -/
def Segment.text : Segment α → List α
  | .plain a => [a]
  | .found parts => parts.flatten

namespace Pattern

/-- The match at the beginning of a text, behind an element. -/
def matchAt (p : Pattern α) (before : Option α) (text : List α) : Option (List (List α)) :=
  if before.any p.behind then none else matchPieces p.ahead p.pieces text

/-- The matches in a text, from left to right, so many elements of which are passed over. A pattern
matches some text, never none. -/
def split (p : Pattern α) : ℕ → Option α → List α → List (Segment α)
  | _, _, [] => []
  | skip + 1, _, a :: text => split p skip (some a) text
  | 0, before, a :: text =>
    match p.matchAt before (a :: text) with
    | some parts => .found parts :: split p (parts.flatten.length - 1) (some a) text
    | none => .plain a :: split p 0 (some a) text

/-- The segments put together again, with what a function gives in place of each match. -/
def replace (keep : α → β) (f : List (List α) → σ → List β × σ) :
    List (Segment α) → σ → List β × σ
  | [], s => ([], s)
  | .plain a :: segments, s =>
    (keep a :: (replace keep f segments s).1, (replace keep f segments s).2)
  | .found parts :: segments, s =>
    ((f parts s).1 ++ (replace keep f segments (f parts s).2).1,
      (replace keep f segments (f parts s).2).2)

/-- `re.sub` with a function that has a state, and with a function for what is no match. -/
def sub (p : Pattern α) (keep : α → β) (f : List (List α) → σ → List β × σ) (text : List α)
    (s : σ) : List β × σ :=
  replace keep f (p.split 0 none text) s

end Pattern

/-! ## What a match is -/

/-- The part of a piece. -/
def Piece.Fits : Piece α → List α → Prop
  | .one accepts, part => ∃ a, part = [a] ∧ accepts a = true
  | .optional accepts, part => part = [] ∨ ∃ a, part = [a] ∧ accepts a = true
  | .many accepts plus _, part => (∀ a ∈ part, accepts a = true) ∧ (plus = true → part ≠ [])

theorem star_eq_some {accepts : α → Bool} {lazy : Bool} {rest : List α → Option β}
    {text part : List α} {r : β} (h : star accepts lazy rest text = some (part, r)) :
    (∀ a ∈ part, accepts a = true) ∧ ∃ after, text = part ++ after ∧ rest after = some r := by
  induction text generalizing part with
  | nil =>
    obtain ⟨r', hr, heq⟩ := Option.map_eq_some_iff.mp h
    cases heq
    exact ⟨nofun, [], rfl, hr⟩
  | cons a text ih =>
    have hstop (hs : (rest (a :: text)).map (fun r => (([] : List α), r)) = some (part, r)) :
        (∀ b ∈ part, accepts b = true) ∧ ∃ after, a :: text = part ++ after ∧
          rest after = some r := by
      obtain ⟨r', hr, heq⟩ := Option.map_eq_some_iff.mp hs
      cases heq
      exact ⟨nofun, a :: text, rfl, hr⟩
    have hmore (hm : (if accepts a then
        (star accepts lazy rest text).map fun (part, r) => (a :: part, r) else none) =
          some (part, r)) :
        (∀ b ∈ part, accepts b = true) ∧ ∃ after, a :: text = part ++ after ∧
          rest after = some r := by
      split at hm
      · rename_i ha
        obtain ⟨⟨part', r'⟩, hstar, heq⟩ := Option.map_eq_some_iff.mp hm
        cases heq
        obtain ⟨haccepts, after, rfl, hafter⟩ := ih hstar
        refine ⟨fun b hb => ?_, after, rfl, hafter⟩
        rcases List.mem_cons.mp hb with rfl | hb
        · exact ha
        · exact haccepts b hb
      · cases hm
    simp only [star] at h
    split at h
    · rcases Option.or_eq_some_iff.mp h with h | ⟨-, h⟩
      · exact hstop h
      · exact hmore h
    · rcases Option.or_eq_some_iff.mp h with h | ⟨-, h⟩
      · exact hmore h
      · exact hstop h

theorem many_eq_some {accepts : α → Bool} {plus lazy : Bool} {rest : List α → Option β}
    {text part : List α} {r : β} (h : many accepts plus lazy rest text = some (part, r)) :
    (Piece.many accepts plus lazy).Fits part ∧
      ∃ after, text = part ++ after ∧ rest after = some r := by
  unfold many at h
  split at h
  · cases text with
    | nil => cases h
    | cons a text =>
      dsimp only at h
      split at h
      · rename_i ha
        obtain ⟨⟨part', r'⟩, hstar, heq⟩ := Option.map_eq_some_iff.mp h
        cases heq
        obtain ⟨haccepts, after, rfl, hafter⟩ := star_eq_some hstar
        refine ⟨⟨fun b hb => ?_, fun _ => List.cons_ne_nil _ _⟩, after, rfl, hafter⟩
        rcases List.mem_cons.mp hb with rfl | hb
        · exact ha
        · exact haccepts b hb
      · cases h
  · rename_i hplus
    obtain ⟨haccepts, hafter⟩ := star_eq_some h
    exact ⟨⟨haccepts, fun htrue => absurd htrue hplus⟩, hafter⟩

/-- **What a match is**: a part for each piece, and the text begins with them. -/
theorem matchPieces_eq_some {ahead : α → Bool} {pieces : List (Piece α)} {text : List α}
    {parts : List (List α)} (h : matchPieces ahead pieces text = some parts) :
    List.Forall₂ Piece.Fits pieces parts ∧ ∃ after, text = parts.flatten ++ after := by
  induction pieces generalizing text parts with
  | nil =>
    simp only [matchPieces] at h
    split at h
    · cases h
    · cases h
      exact ⟨.nil, text, rfl⟩
  | cons piece pieces ih =>
    have hone {accepts : α → Bool} {text : List α} {parts : List (List α)}
        (h : (match text with
          | [] => none
          | a :: text =>
            if accepts a then (matchPieces ahead pieces text).map ([a] :: ·) else none) =
          some parts) :
        ∃ a parts', parts = [a] :: parts' ∧ accepts a = true ∧
          List.Forall₂ Piece.Fits pieces parts' ∧ ∃ after, text = parts.flatten ++ after := by
      cases text with
      | nil => cases h
      | cons a text =>
        dsimp only at h
        split at h
        · rename_i ha
          obtain ⟨parts', hmatch, rfl⟩ := Option.map_eq_some_iff.mp h
          obtain ⟨hfits, after, rfl⟩ := ih hmatch
          exact ⟨a, parts', rfl, ha, hfits, after, rfl⟩
        · cases h
    cases piece with
    | one accepts =>
      obtain ⟨a, parts', rfl, ha, hfits, hafter⟩ := hone h
      exact ⟨.cons ⟨a, rfl, ha⟩ hfits, hafter⟩
    | optional accepts =>
      rcases Option.or_eq_some_iff.mp h with h | ⟨-, h⟩
      · obtain ⟨a, parts', rfl, ha, hfits, hafter⟩ := hone h
        exact ⟨.cons (.inr ⟨a, rfl, ha⟩) hfits, hafter⟩
      · obtain ⟨parts', hmatch, rfl⟩ := Option.map_eq_some_iff.mp h
        obtain ⟨hfits, after, rfl⟩ := ih hmatch
        exact ⟨.cons (.inl rfl) hfits, after, rfl⟩
    | many accepts plus lazy =>
      obtain ⟨⟨part, parts'⟩, hmany, rfl⟩ := Option.map_eq_some_iff.mp h
      obtain ⟨hfits, after, rfl, hafter⟩ := many_eq_some hmany
      obtain ⟨hrest, after', rfl⟩ := ih hafter
      exact ⟨.cons hfits hrest, after', by simp⟩

/-! ## The matches in a text -/

namespace Pattern

variable {p : Pattern α} {before : Option α} {text : List α} {parts : List (List α)}

theorem matchAt_eq_some (h : p.matchAt before text = some parts) :
    List.Forall₂ Piece.Fits p.pieces parts ∧ ∃ after, text = parts.flatten ++ after := by
  unfold matchAt at h
  split at h
  · cases h
  · exact matchPieces_eq_some h

/-- The pattern begins with one element of a class. -/
def Visible (p : Pattern α) : Prop := ∃ accepts pieces, p.pieces = .one accepts :: pieces

theorem Visible.flatten_ne_nil (hp : p.Visible) (h : p.matchAt before text = some parts) :
    0 < parts.flatten.length := by
  obtain ⟨accepts, pieces, hpieces⟩ := hp
  obtain ⟨hfits, -⟩ := matchAt_eq_some h
  rw [hpieces] at hfits
  cases hfits with
  | cons hone _ =>
    obtain ⟨a, rfl, -⟩ := hone
    simp

theorem split_nil (p : Pattern α) (skip : ℕ) (before : Option α) : p.split skip before [] = [] := by
  cases skip <;> rfl

/-- What is passed over is left out. -/
theorem split_append (p : Pattern α) (before : Option α) (front back : List α) :
    p.split front.length before (front ++ back) = p.split 0 (front.getLast?.or before) back := by
  induction front generalizing before with
  | nil => rfl
  | cons a front ih =>
    show p.split front.length (some a) (front ++ back) = _
    rw [ih]
    cases front with
    | nil => rfl
    | cons b front => rw [List.getLast?_cons_cons, List.getLast?_cons]; rfl

/-- A match comes first. -/
theorem split_of_match {a : α} (hp : p.Visible) (h : p.matchAt before (a :: text) = some parts)
    {after : List α} (htext : a :: text = parts.flatten ++ after) :
    p.split 0 before (a :: text) =
      .found parts :: p.split 0 (parts.flatten.getLast?.or before) after := by
  have hpos := hp.flatten_ne_nil h
  obtain ⟨b, matched, hmatched⟩ := List.exists_cons_of_ne_nil (List.length_pos_iff.mp hpos)
  rw [hmatched] at htext ⊢
  obtain ⟨rfl, htail⟩ := List.cons.inj htext
  replace htail : text = matched ++ after := htail
  subst htail
  simp only [split, h, hmatched, List.length_cons, Nat.add_sub_cancel]
  rw [split_append]
  congr 2
  cases matched with
  | nil => rfl
  | cons c matched => rw [List.getLast?_cons_cons, List.getLast?_cons]; rfl

theorem split_of_no_match {a : α} (h : p.matchAt before (a :: text) = none) :
    p.split 0 before (a :: text) = .plain a :: p.split 0 (some a) text := by
  simp only [split, h]

/-- **Induction on the matches** of a text, from left to right. -/
theorem split_induction {motive : Option α → List α → List (Segment α) → Prop} (hp : p.Visible)
    (nil : ∀ before, motive before [] [])
    (plain : ∀ before a text segments, p.matchAt before (a :: text) = none →
      motive (some a) text segments → motive before (a :: text) (.plain a :: segments))
    (found : ∀ before parts after segments,
      p.matchAt before (parts.flatten ++ after) = some parts →
      motive (parts.flatten.getLast?.or before) after segments →
        motive before (parts.flatten ++ after) (.found parts :: segments))
    (before : Option α) (text : List α) : motive before text (p.split 0 before text) := by
  induction hn : text.length using Nat.strong_induction_on generalizing before text with
  | _ n ih =>
    cases text with
    | nil => exact nil before
    | cons a text =>
      cases h : p.matchAt before (a :: text) with
      | none =>
        rw [split_of_no_match h]
        exact plain before a text _ h (ih text.length (by simp [← hn]) _ _ rfl)
      | some parts =>
        obtain ⟨-, after, htext⟩ := matchAt_eq_some h
        have hlength := congrArg List.length htext
        have hpos := hp.flatten_ne_nil h
        rw [List.length_append, hn] at hlength
        rw [split_of_match hp h htext, htext]
        rw [htext] at h
        exact found before parts after _ h (ih after.length (by omega) _ _ rfl)

/-- **The matches and what is between them** are the text. -/
theorem flatten_split (hp : p.Visible) (before : Option α) (text : List α) :
    (p.split 0 before text).flatMap Segment.text = text := by
  induction before, text using split_induction hp with
  | nil => rfl
  | plain before a text segments _ ih => simpa [Segment.text] using ih
  | found before parts after segments _ ih => simpa [Segment.text] using ih

section Sub

variable {keep : α → β} {f : List (List α) → σ → List β × σ}

/-- **What a substitution preserves**, of what is put together, of what is left of the text, and of
the state. -/
theorem sub_invariant (inv : List β → List α → σ → Prop) (hp : p.Visible)
    (plain : ∀ out a rest s, inv out (a :: rest) s → inv (out ++ [keep a]) rest s)
    (found : ∀ out parts rest s, List.Forall₂ Piece.Fits p.pieces parts →
      inv out (parts.flatten ++ rest) s → inv (out ++ (f parts s).1) rest (f parts s).2)
    {s : σ} (h : inv [] text s) : inv (p.sub keep f text s).1 [] (p.sub keep f text s).2 := by
  have hrun (before : Option α) (text : List α) (out : List β) (s : σ) (h : inv out text s) :
      inv (out ++ (replace keep f (p.split 0 before text) s).1) []
        (replace keep f (p.split 0 before text) s).2 := by
    induction before, text using split_induction hp generalizing out s with
    | nil => simpa [replace] using h
    | plain before a text segments _ ih =>
      have hout := ih (out ++ [keep a]) s (plain out a text s h)
      rwa [List.append_assoc, List.singleton_append] at hout
    | found before parts after segments hmatch ih =>
      have hout := ih (out ++ (f parts s).1) (f parts s).2
        (found out parts after s (matchAt_eq_some hmatch).1 h)
      rwa [List.append_assoc] at hout
  exact hrun none text [] s h

/-- What holds of all that is put together. -/
theorem forall_sub {inv : β → Prop} (hp : p.Visible) (hkeep : ∀ a ∈ text, inv (keep a))
    (hf : ∀ parts s, List.Forall₂ Piece.Fits p.pieces parts → parts.flatten ⊆ text →
      ∀ b ∈ (f parts s).1, inv b) (s : σ) : ∀ b ∈ (p.sub keep f text s).1, inv b := by
  refine (sub_invariant (fun out rest (_ : σ) => rest ⊆ text ∧ ∀ b ∈ out, inv b) hp ?_ ?_
    ⟨fun _ h => h, nofun⟩).2
  · intro out a rest s ⟨hrest, hout⟩
    refine ⟨fun b hb => hrest (List.mem_cons_of_mem _ hb), fun b hb => ?_⟩
    rcases List.mem_append.mp hb with hb | hb
    · exact hout b hb
    · rw [List.mem_singleton.mp hb]
      exact hkeep a (hrest List.mem_cons_self)
  · intro out parts rest s hfits ⟨hrest, hout⟩
    refine ⟨fun b hb => hrest (List.mem_append_right _ hb), fun b hb => ?_⟩
    rcases List.mem_append.mp hb with hb | hb
    · exact hout b hb
    · exact hf parts s hfits (fun c hc => hrest (List.mem_append_left _ hc)) b hb

/-- Where each match keeps what its elements stand for, the text does. -/
theorem flatMap_sub {γ : Type*} (source : α → List γ) (source' : β → List γ) (hp : p.Visible)
    (hkeep : ∀ a, source' (keep a) = source a)
    (hf : ∀ parts s, List.Forall₂ Piece.Fits p.pieces parts →
      (f parts s).1.flatMap source' = parts.flatten.flatMap source) (s : σ) :
    (p.sub keep f text s).1.flatMap source' = text.flatMap source := by
  suffices h : (p.sub keep f text s).1.flatMap source' ++ ([] : List α).flatMap source =
      text.flatMap source by
    simpa using h
  refine sub_invariant
    (fun out rest _ => out.flatMap source' ++ rest.flatMap source = text.flatMap source) hp ?_ ?_
    rfl
  · intro out a rest s h
    simpa [hkeep] using h
  · intro out parts rest s hfits h
    simpa [hf parts s hfits] using h

end Sub

end Pattern

end Match

end Foundation
