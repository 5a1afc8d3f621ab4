import Portex.Foundation.Regex

/-!
# Regular expressions over a text of atoms

A text may be the rendering of a list of atoms, each of which is a character or a longer string. A
pattern takes an atom whole where its classes do not tell the characters of the atom apart and its
repetitions end at a single character: it then finds in the text what it finds in the atoms.

## Main definitions

* `Pattern.lift`: a pattern on atoms
* `TakesWhole`: a pattern takes an atom whole

## Main results

* `matchPieces_render`, `split_render`, `sub_render`: what is found in a text of atoms
-/

namespace Foundation

universe u v w

variable {α : Type u} {ν : Type v} (render : ν → List α)

/-- The class of the atoms that a class of elements takes whole. -/
def liftClass (accepts : α → Bool) (a : ν) : Bool := (render a).all accepts

/-- The piece on atoms. -/
def Piece.lift : Piece α → Piece ν
  | .one accepts => .one (liftClass render accepts)
  | .optional accepts => .optional (liftClass render accepts)
  | .many accepts plus lazy => .many (liftClass render accepts) plus lazy

/-- The pattern on atoms, with the last element before a match and the first one after it. -/
def Pattern.lift (p : Pattern α) : Pattern ν where
  behind a := (render a).getLast?.any p.behind
  pieces := p.pieces.map (Piece.lift render)
  ahead a := (render a).head?.any p.ahead

/-- The class does not tell the elements of the atom apart. -/
def Uniform (accepts : α → Bool) (a : ν) : Prop :=
  (∀ c ∈ render a, accepts c = true) ∨ ∀ c ∈ render a, accepts c = false

/-- Where the class accepts an element of the atom, it is the only one. -/
def Single (accepts : α → Bool) (a : ν) : Prop :=
  ∀ c ∈ render a, accepts c = true → render a = [c]

/-- The pieces take an atom whole: a repetition accepts all of it or nothing, and is followed by a
single element, unless the atom is one. -/
def TakesWhole (a : ν) : List (Piece α) → Prop
  | [] => True
  | .one accepts :: pieces => Single render accepts a ∧ TakesWhole a pieces
  | .optional _ :: pieces => (∃ c, render a = [c]) ∧ TakesWhole a pieces
  | .many accepts _ _ :: pieces =>
    Uniform render accepts a ∧
      ((∃ c, render a = [c]) ∨ ∃ accepts' pieces', pieces = .one accepts' :: pieces') ∧
      TakesWhole a pieces

variable {render} {β : Type u} {γ : Type v} {accepts : α → Bool} {lazy plus : Bool} {a : ν}
  {as : List ν}

theorem liftClass_eq_true : liftClass render accepts a = true ↔ ∀ c ∈ render a, accepts c = true :=
  List.all_eq_true

/-- Where the rest fails within a text, a repetition runs through it. -/
theorem star_append {rest : List α → Option β} {front back : List α}
    (haccepts : ∀ c ∈ front, accepts c = true)
    (hrest : ∀ x y, front = x ++ y → y ≠ [] → rest (y ++ back) = none) :
    star accepts lazy rest (front ++ back) =
      (star accepts lazy rest back).map fun (part, r) => (front ++ part, r) := by
  induction front with
  | nil => simp
  | cons c front ih =>
    have hnone := hrest [] (c :: front) rfl (List.cons_ne_nil _ _)
    have hih := ih (fun c' hc' => haccepts c' (List.mem_cons_of_mem _ hc'))
      fun x y hxy hy => hrest (c :: x) y (by rw [hxy]; rfl) hy
    rw [List.cons_append] at hnone ⊢
    simp only [star, hnone, haccepts c List.mem_cons_self, if_true, hih, Option.map_map,
      Option.map_none, Option.none_or, Option.or_none, ite_self]
    rfl

/-- A repetition over atoms, where the rest agrees on atoms and fails within them. -/
theorem star_render {rest : List α → Option β} {rest' : List ν → Option γ} {g : γ → β}
    (hne : ∀ a ∈ as, render a ≠ []) (huniform : ∀ a ∈ as, Uniform render accepts a)
    (hrest : ∀ bs, bs <:+ as → rest (bs.flatMap render) = (rest' bs).map g)
    (hwithin : ∀ a ∈ as, ∀ x y, render a = x ++ y → x ≠ [] → y ≠ [] → ∀ back,
      rest (y ++ back) = none) :
    star accepts lazy rest (as.flatMap render) =
      (star (liftClass render accepts) lazy rest' as).map fun (part, r) =>
        (part.flatMap render, g r) := by
  induction as with
  | nil =>
    have hnil := hrest [] (List.suffix_refl _)
    simp only [List.flatMap_nil] at hnil
    simp [star, hnil, Function.comp_def]
  | cons a as ih =>
    have hih := ih (fun b hb => hne b (List.mem_cons_of_mem _ hb))
      (fun b hb => huniform b (List.mem_cons_of_mem _ hb))
      (fun bs hbs => hrest bs (hbs.trans (List.suffix_cons a as)))
      fun b hb => hwithin b (List.mem_cons_of_mem _ hb)
    have hself := hrest (a :: as) (List.suffix_refl _)
    obtain ⟨c, cs, hrender⟩ := List.exists_cons_of_ne_nil (hne a List.mem_cons_self)
    rw [List.flatMap_cons, hrender, List.cons_append] at hself ⊢
    rcases huniform a List.mem_cons_self with hall | hnone
    · have hlift : liftClass render accepts a = true := liftClass_eq_true.mpr hall
      rw [hrender] at hall
      have htail : star accepts lazy rest (cs ++ as.flatMap render) =
          (star accepts lazy rest (as.flatMap render)).map fun (part, r) => (cs ++ part, r) := by
        refine star_append (fun c' hc' => hall c' (List.mem_cons_of_mem _ hc')) fun x y hxy hy => ?_
        exact hwithin a List.mem_cons_self (c :: x) y (by rw [hrender, hxy]; rfl)
          (List.cons_ne_nil _ _) hy _
      simp only [star, hall c List.mem_cons_self, hlift, if_true, htail, hih, hself]
      split <;> simp [Option.map_or, Function.comp_def, hrender]
    · have hlift : liftClass render accepts a = false := by
        rw [liftClass, hrender, List.all_cons, hnone c (by rw [hrender]; exact List.mem_cons_self),
          Bool.false_and]
      have hc := hnone c (by rw [hrender]; exact List.mem_cons_self)
      simp only [star, hc, hlift, hself]
      split <;> simp [Function.comp_def]

/-- The same for a repetition that takes one element at least. -/
theorem many_render {rest : List α → Option β} {rest' : List ν → Option γ} {g : γ → β}
    (hne : ∀ a ∈ as, render a ≠ []) (huniform : ∀ a ∈ as, Uniform render accepts a)
    (hrest : ∀ bs, bs <:+ as → rest (bs.flatMap render) = (rest' bs).map g)
    (hwithin : ∀ a ∈ as, ∀ x y, render a = x ++ y → x ≠ [] → y ≠ [] → ∀ back,
      rest (y ++ back) = none) :
    many accepts plus lazy rest (as.flatMap render) =
      (many (liftClass render accepts) plus lazy rest' as).map fun (part, r) =>
        (part.flatMap render, g r) := by
  cases plus with
  | false => exact star_render hne huniform hrest hwithin
  | true =>
    cases as with
    | nil => rfl
    | cons a as =>
      have hstar : star accepts lazy rest (as.flatMap render) =
          (star (liftClass render accepts) lazy rest' as).map fun (part, r) =>
            (part.flatMap render, g r) :=
        star_render (fun b hb => hne b (List.mem_cons_of_mem _ hb))
          (fun b hb => huniform b (List.mem_cons_of_mem _ hb))
          (fun bs hbs => hrest bs (hbs.trans (List.suffix_cons a as)))
          fun b hb => hwithin b (List.mem_cons_of_mem _ hb)
      obtain ⟨c, cs, hrender⟩ := List.exists_cons_of_ne_nil (hne a List.mem_cons_self)
      rw [List.flatMap_cons, hrender, List.cons_append]
      rcases huniform a List.mem_cons_self with hall | hnone
      · have hlift : liftClass render accepts a = true := liftClass_eq_true.mpr hall
        rw [hrender] at hall
        have htail : star accepts lazy rest (cs ++ as.flatMap render) =
            (star accepts lazy rest (as.flatMap render)).map fun (part, r) => (cs ++ part, r) := by
          refine star_append (fun c' hc' => hall c' (List.mem_cons_of_mem _ hc'))
            fun x y hxy hy => ?_
          exact hwithin a List.mem_cons_self (c :: x) y (by rw [hrender, hxy]; rfl)
            (List.cons_ne_nil _ _) hy _
        simp only [many, if_true, hall c List.mem_cons_self, hlift, htail, hstar]
        simp [Function.comp_def, hrender]
      · have hc := hnone c (by rw [hrender]; exact List.mem_cons_self)
        have hlift : liftClass render accepts a = false := by
          rw [liftClass, hrender, List.all_cons, hc, Bool.false_and]
        simp [many, hc, hlift]

/-- A class that an atom is single for accepts it or does not accept its first element. -/
theorem Single.cases {c : α} {cs : List α} (h : Single render accepts a)
    (hrender : render a = c :: cs) :
    (cs = [] ∧ accepts c = true ∧ liftClass render accepts a = true) ∨
      (accepts c = false ∧ liftClass render accepts a = false) := by
  cases hc : accepts c with
  | true =>
    have hsingle := h c (by rw [hrender]; exact List.mem_cons_self) hc
    rw [hrender] at hsingle
    obtain ⟨-, rfl⟩ := List.cons.inj hsingle
    exact .inl ⟨rfl, rfl, by simp [liftClass, hrender, hc]⟩
  | false => exact .inr ⟨rfl, by simp [liftClass, hrender, hc]⟩

/-- Within an atom that the class is single for, it accepts nothing. -/
theorem Single.within (h : Single render accepts a) {x y : List α} (hrender : render a = x ++ y)
    (hx : x ≠ []) : ∀ c ∈ y, accepts c = false := by
  intro c hc
  by_contra hne
  have hsingle := h c (by rw [hrender]; exact List.mem_append_right _ hc) (by simpa using hne)
  rw [hrender] at hsingle
  obtain ⟨d, x, rfl⟩ := List.exists_cons_of_ne_nil hx
  have hlength := congrArg List.length hsingle
  have hpos := List.length_pos_of_mem hc
  simp only [List.length_append, List.length_cons, List.length_nil] at hlength
  omega

theorem matchPieces_one_eq_none {ahead : α → Bool} {pieces : List (Piece α)} {c : α}
    {text : List α} (hc : accepts c = false) :
    matchPieces ahead (.one accepts :: pieces) (c :: text) = none := by
  simp [matchPieces, hc]

/-- **A match in a text of atoms** that the pieces take whole is a match of atoms. -/
theorem matchPieces_render {ahead : α → Bool} {pieces : List (Piece α)}
    (hne : ∀ a ∈ as, render a ≠ []) (hwhole : ∀ a ∈ as, TakesWhole render a pieces) :
    matchPieces ahead pieces (as.flatMap render) =
      (matchPieces (fun a => (render a).head?.any ahead) (pieces.map (Piece.lift render)) as).map
        (·.map (·.flatMap render)) := by
  induction pieces generalizing as with
  | nil =>
    cases as with
    | nil => simp [matchPieces]
    | cons a as =>
      obtain ⟨c, cs, hrender⟩ := List.exists_cons_of_ne_nil (hne a List.mem_cons_self)
      simp only [matchPieces, List.map_nil, List.flatMap_cons, hrender, List.cons_append,
        List.head?_cons, Option.any_some]
      split <;> rfl
  | cons piece pieces ih =>
    cases piece with
    | one accepts =>
      cases as with
      | nil => rfl
      | cons a as =>
        obtain ⟨c, cs, hrender⟩ := List.exists_cons_of_ne_nil (hne a List.mem_cons_self)
        have hih := ih (fun b hb => hne b (List.mem_cons_of_mem _ hb))
          fun b hb => (hwhole b (List.mem_cons_of_mem _ hb)).2
        rw [List.flatMap_cons, hrender, List.cons_append]
        rcases (hwhole a List.mem_cons_self).1.cases hrender with ⟨rfl, hc, hlift⟩ | ⟨hc, hlift⟩
        · simp only [matchPieces, List.map_cons, Piece.lift, hc, hlift, if_true, List.nil_append,
            hih]
          simp [Function.comp_def, hrender]
        · simp [matchPieces, Piece.lift, hc, hlift]
    | optional accepts =>
      cases as with
      | nil =>
        have hih : matchPieces ahead pieces ([].flatMap render) = _ :=
          ih (fun _ h => absurd h List.not_mem_nil) fun _ h => absurd h List.not_mem_nil
        simp only [List.flatMap_nil] at hih
        simp [matchPieces, Piece.lift, hih, Function.comp_def]
      | cons a as =>
        obtain ⟨c, hrender⟩ := (hwhole a List.mem_cons_self).1
        have hnone := ih hne fun b hb => (hwhole b hb).2
        have hsome := ih (fun b hb => hne b (List.mem_cons_of_mem _ hb))
          fun b hb => (hwhole b (List.mem_cons_of_mem _ hb)).2
        simp only [List.flatMap_cons, hrender, List.singleton_append] at hnone ⊢
        simp only [matchPieces, List.map_cons, Piece.lift, hnone, hsome, liftClass, hrender,
          List.all_cons, List.all_nil, Bool.and_true]
        split <;> simp [Option.map_or, Function.comp_def, hrender]
    | many accepts plus lazy =>
      simp only [matchPieces, List.map_cons, Piece.lift]
      have hmany : many accepts plus lazy (matchPieces ahead pieces) (as.flatMap render) =
          (many (liftClass render accepts) plus lazy
            (matchPieces (fun a => (render a).head?.any ahead) (pieces.map (Piece.lift render)))
              as).map fun m => (m.1.flatMap render, m.2.map (·.flatMap render)) := by
        refine many_render hne (fun a ha => (hwhole a ha).1) ?_ ?_
        · intro bs hbs
          exact ih (fun b hb => hne b (hbs.subset hb)) fun b hb => (hwhole b (hbs.subset hb)).2.2
        · intro a ha x y hxy hx hy back
          obtain ⟨-, ⟨c, hc⟩ | ⟨accepts', pieces', rfl⟩, hnext⟩ := hwhole a ha
          -- there is nothing within a single element
          · have hlength := congrArg List.length (hc.symm.trans hxy)
            have hx := List.length_pos_iff.mpr hx
            have hy := List.length_pos_iff.mpr hy
            simp only [List.length_append, List.length_cons, List.length_nil] at hlength
            omega
          · obtain ⟨c, y, rfl⟩ := List.exists_cons_of_ne_nil hy
            exact matchPieces_one_eq_none (hnext.1.within hxy hx c List.mem_cons_self)
      rw [hmany]
      simp [Function.comp_def]

/-! ## The matches in a text of atoms -/

/-- The segment on elements. -/
def Segment.expand (render : ν → List α) : Segment ν → List (Segment α)
  | .plain a => (render a).map .plain
  | .found parts => [.found (parts.map (·.flatMap render))]

/-- The last element of a text of atoms. -/
theorem getLast?_flatMap (hne : ∀ a ∈ as, render a ≠ []) :
    (as.flatMap render).getLast? = as.getLast?.bind fun a => (render a).getLast? := by
  induction as using List.reverseRecOn with
  | nil => rfl
  | append_singleton as a _ =>
    have ha := hne a (by simp)
    simp [List.getLast?_append, List.getLast?_eq_some_getLast ha]

namespace Pattern

variable {p : Pattern α}

theorem Visible.lift (hp : p.Visible) : (p.lift render).Visible := by
  obtain ⟨accepts, pieces, hpieces⟩ := hp
  exact ⟨liftClass render accepts, pieces.map (Piece.lift render), by
    simp [Pattern.lift, hpieces, Piece.lift]⟩

theorem matchAt_render (before : Option ν) (hne : ∀ a ∈ as, render a ≠ [])
    (hwhole : ∀ a ∈ as, TakesWhole render a p.pieces) :
    p.matchAt (before.bind fun a => (render a).getLast?) (as.flatMap render) =
      ((p.lift render).matchAt before as).map (·.map (·.flatMap render)) := by
  have hbehind : (before.bind fun a => (render a).getLast?).any p.behind =
      before.any (p.lift render).behind := by
    cases before <;> rfl
  unfold matchAt
  rw [hbehind, matchPieces_render hne hwhole]
  split <;> rfl

/-- Where no match begins within a text, it is passed over. -/
theorem split_of_forall {text back : List α} {behind : Option α}
    (h : ∀ x y, text = x ++ y → y ≠ [] →
      p.matchAt (x.getLast?.or behind) (y ++ back) = none) :
    p.split 0 behind (text ++ back) =
      text.map .plain ++ p.split 0 (text.getLast?.or behind) back := by
  induction text generalizing behind with
  | nil => rfl
  | cons c text ih =>
    have hlast (x : List α) : (c :: x).getLast?.or behind = x.getLast?.or (some c) := by
      cases x with
      | nil => rfl
      | cons d x => rw [List.getLast?_cons_cons, List.getLast?_cons]; rfl
    have hfirst : p.matchAt behind (c :: (text ++ back)) = none :=
      h [] (c :: text) rfl (List.cons_ne_nil _ _)
    rw [List.cons_append, split_of_no_match hfirst,
      ih fun x y hxy hy => by rw [← hlast]; exact h (c :: x) y (by rw [hxy]; rfl) hy, hlast]
    rfl

/-- **What is found in a text of atoms** that the pattern takes whole is found in the atoms. -/
theorem split_render (hp : p.Visible) (before : Option ν) (hne : ∀ a ∈ as, render a ≠ [])
    (hwhole : ∀ a ∈ as, TakesWhole render a p.pieces) :
    p.split 0 (before.bind fun a => (render a).getLast?) (as.flatMap render) =
      ((p.lift render).split 0 before as).flatMap (Segment.expand render) := by
  revert hne hwhole
  have hlift : (p.lift render).Visible := hp.lift
  induction before, as using split_induction hlift with
  | nil before =>
    intro _ _
    rw [List.flatMap_nil, split_nil]
    rfl
  | plain before a as segments hnone ih =>
    intro hne hwhole
    have hat := matchAt_render before hne hwhole
    rw [hnone, Option.map_none] at hat
    obtain ⟨accepts, pieces, hpieces⟩ := hp
    have ha := hne a List.mem_cons_self
    have hsingle : Single render accepts a := by
      have h := hwhole a List.mem_cons_self
      rw [hpieces] at h
      exact h.1
    rw [List.flatMap_cons] at hat ⊢
    rw [split_of_forall, List.flatMap_cons, ← ih (fun b hb => hne b (List.mem_cons_of_mem _ hb))
      fun b hb => hwhole b (List.mem_cons_of_mem _ hb)]
    · rw [Option.bind_some, List.getLast?_eq_some_getLast ha]
      rfl
    · intro x y hxy hy
      cases x with
      | nil =>
        obtain rfl : render a = y := hxy
        simpa using hat
      | cons c x =>
        obtain ⟨d, y, rfl⟩ := List.exists_cons_of_ne_nil hy
        have hd := hsingle.within hxy (List.cons_ne_nil _ _) d List.mem_cons_self
        unfold matchAt
        rw [hpieces, List.cons_append, matchPieces_one_eq_none hd, ite_self]
  | found before parts after segments hmatch ih =>
    intro hne hwhole
    have hat := matchAt_render before hne hwhole
    rw [hmatch, Option.map_some] at hat
    have hflat : (parts.map (·.flatMap render)).flatten = parts.flatten.flatMap render := by
      rw [← List.flatMap_def, ← List.flatMap_id, List.flatMap_assoc]
      rfl
    have hpos := hp.flatten_ne_nil hat
    rw [hflat] at hpos
    rw [List.flatMap_append] at hat ⊢
    obtain ⟨c, cs, hc⟩ := List.exists_cons_of_ne_nil (List.length_pos_iff.mp hpos)
    rw [hc, List.cons_append] at hat ⊢
    rw [split_of_match hp hat (by rw [hflat, hc]; rfl), hflat, getLast?_flatMap fun b hb =>
      hne b (List.mem_append_left _ hb), List.flatMap_cons, ← ih (fun b hb =>
        hne b (List.mem_append_right _ hb)) fun b hb => hwhole b (List.mem_append_right _ hb)]
    have hlast : (parts.flatten.getLast?.bind fun a => (render a).getLast?).or
        (before.bind fun a => (render a).getLast?) =
          (parts.flatten.getLast?.or before).bind fun a => (render a).getLast? := by
      cases hparts : parts.flatten.getLast? with
      | none => rfl
      | some b =>
        have hb := hne b (List.mem_append_left _ (List.mem_of_getLast? hparts))
        simp [List.getLast?_eq_some_getLast hb]
    rw [hlast]
    rfl

section Sub

variable {μ : Type v} {σ τ : Type w} {render' : μ → List α} {S : τ → σ} {keep : ν → μ}
  {f : List (List α) → σ → List α × σ} {f' : List (List ν) → τ → List μ × τ}

theorem replace_render (hkeep : ∀ a, render' (keep a) = render a)
    (hf : ∀ parts t, f (parts.map (·.flatMap render)) (S t) =
      ((f' parts t).1.flatMap render', S (f' parts t).2))
    (segments : List (Segment ν)) (t : τ) :
    replace id f (segments.flatMap (Segment.expand render)) (S t) =
      ((replace keep f' segments t).1.flatMap render', S (replace keep f' segments t).2) := by
  have hplain (text : List α) (segments : List (Segment α)) (s : σ) :
      replace id f (text.map .plain ++ segments) s =
        (text ++ (replace id f segments s).1, (replace id f segments s).2) := by
    induction text with
    | nil => rfl
    | cons c text ih =>
      show (c :: (replace id f (text.map .plain ++ segments) s).1,
        (replace id f (text.map .plain ++ segments) s).2) = _
      rw [ih]
      rfl
  induction segments generalizing t with
  | nil => rfl
  | cons segment segments ih =>
    cases segment with
    | plain a =>
      show replace id f ((render a).map .plain ++ segments.flatMap (Segment.expand render)) (S t) =
        _
      rw [hplain, ih, replace, List.flatMap_cons, hkeep]
    | found parts =>
      simp only [List.flatMap_cons, Segment.expand, List.singleton_append, replace, hf, ih,
        List.flatMap_append]

/-- **Substitution in a text of atoms** is substitution of atoms. -/
theorem sub_render (hp : p.Visible) (hne : ∀ a ∈ as, render a ≠ [])
    (hwhole : ∀ a ∈ as, TakesWhole render a p.pieces)
    (hkeep : ∀ a, render' (keep a) = render a)
    (hf : ∀ parts t, f (parts.map (·.flatMap render)) (S t) =
      ((f' parts t).1.flatMap render', S (f' parts t).2)) (t : τ) :
    p.sub id f (as.flatMap render) (S t) =
      (((p.lift render).sub keep f' as t).1.flatMap render',
        S ((p.lift render).sub keep f' as t).2) := by
  have hsplit := split_render hp none hne hwhole
  unfold sub
  rw [← replace_render hkeep hf]
  exact congrArg (fun segments => replace id f segments (S t)) hsplit

end Sub

end Pattern

/-! ## Elements that a pattern does not tell apart -/

section Hidden

variable {hidden : α → Prop}

/-- The class does not tell the hidden elements apart. -/
def Blind (hidden : α → Prop) (accepts : α → Bool) : Prop :=
  ∀ c d, hidden c → hidden d → accepts c = accepts d

/-- The pieces take hidden elements in repetitions alone, each followed by an element of a class
that holds none. -/
def Skips (hidden : α → Prop) : List (Piece α) → Prop
  | [] => True
  | .one accepts :: pieces => (∀ c, hidden c → accepts c = false) ∧ Skips hidden pieces
  | .optional _ :: _ => False
  | .many accepts _ _ :: pieces =>
    Blind hidden accepts ∧ (∃ accepts' pieces', pieces = .one accepts' :: pieces') ∧
      Skips hidden pieces

theorem takesWhole_of_skips {pieces : List (Piece α)} (h : Skips hidden pieces)
    (ha : ∀ c ∈ render a, hidden c) : TakesWhole render a pieces := by
  induction pieces with
  | nil => trivial
  | cons piece pieces ih =>
    cases piece with
    | one accepts =>
      refine ⟨fun c hc haccepts => ?_, ih h.2⟩
      rw [h.1 c (ha c hc)] at haccepts
      cases haccepts
    | optional accepts => exact absurd h id
    | many accepts plus lazy =>
      refine ⟨?_, .inr h.2.1, ih h.2.2⟩
      by_cases hall : ∃ c ∈ render a, accepts c = true
      · obtain ⟨c, hc, haccepts⟩ := hall
        exact .inl fun d hd => (h.1 d c (ha d hd) (ha c hc)).trans haccepts
      · exact .inr fun c hc => by simpa using fun haccepts => hall ⟨c, hc, haccepts⟩

theorem takesWhole_of_singleton {pieces : List (Piece α)} {c : α} (ha : render a = [c]) :
    TakesWhole render a pieces := by
  have huniform (accepts : α → Bool) : Uniform render accepts a := by
    cases hc : accepts c with
    | true => exact .inl (by simp [ha, hc])
    | false => exact .inr (by simp [ha, hc])
  induction pieces with
  | nil => trivial
  | cons piece pieces ih =>
    cases piece with
    | one accepts => exact ⟨by simp [Single, ha], ih⟩
    | optional accepts => exact ⟨⟨c, ha⟩, ih⟩
    | many accepts plus lazy => exact ⟨huniform accepts, .inl ⟨c, ha⟩, ih⟩

theorem Blind.of_skips {pieces : List (Piece α)} (h : Skips hidden pieces) :
    ∀ piece ∈ pieces, Blind hidden piece.accepts := by
  induction pieces with
  | nil => exact nofun
  | cons piece pieces ih =>
    rw [List.forall_mem_cons]
    cases piece with
    | one accepts => exact ⟨fun c d hc hd => (h.1 c hc).trans (h.1 d hd).symm, ih h.2⟩
    | optional accepts => exact absurd h id
    | many accepts plus lazy => exact ⟨h.1, ih h.2.2⟩

theorem Blind.mono {hidden' : α → Prop} (h : Blind hidden' accepts)
    (hhidden : ∀ c, hidden c → hidden' c) : Blind hidden accepts :=
  fun c d hc hd => h c d (hhidden c hc) (hhidden d hd)

/-- Two renderings of an atom differ in hidden elements alone. -/
def SameButHidden (hidden : α → Prop) (x y : List α) : Prop :=
  x = y ∨ x ≠ [] ∧ y ≠ [] ∧ (∀ c ∈ x, hidden c) ∧ ∀ c ∈ y, hidden c

theorem SameButHidden.all_eq {x y : List α} (h : SameButHidden hidden x y)
    (haccepts : Blind hidden accepts) : x.all accepts = y.all accepts := by
  rcases h with rfl | ⟨hx, hy, hallx, hally⟩
  · rfl
  · obtain ⟨c, x, rfl⟩ := List.exists_cons_of_ne_nil hx
    have hc := hallx c List.mem_cons_self
    rw [Bool.eq_iff_iff, List.all_eq_true, List.all_eq_true]
    constructor
    · exact fun hacc d hd =>
        (haccepts d c (hally d hd) hc).trans (hacc c List.mem_cons_self)
    · intro hacc d hd
      obtain ⟨e, y, rfl⟩ := List.exists_cons_of_ne_nil hy
      exact (haccepts d e (hallx d hd) (hally e List.mem_cons_self)).trans
        (hacc e List.mem_cons_self)

theorem SameButHidden.any_head? {x y : List α} (h : SameButHidden hidden x y)
    (haccepts : Blind hidden accepts) : x.head?.any accepts = y.head?.any accepts := by
  rcases h with rfl | ⟨hx, hy, hallx, hally⟩
  · rfl
  · rw [List.head?_eq_some_head hx, List.head?_eq_some_head hy]
    exact haccepts _ _ (hallx _ (List.head_mem hx)) (hally _ (List.head_mem hy))

theorem SameButHidden.any_getLast? {x y : List α} (h : SameButHidden hidden x y)
    (haccepts : Blind hidden accepts) : x.getLast?.any accepts = y.getLast?.any accepts := by
  rcases h with rfl | ⟨hx, hy, hallx, hally⟩
  · rfl
  · rw [List.getLast?_eq_some_getLast hx, List.getLast?_eq_some_getLast hy]
    exact haccepts _ _ (hallx _ (List.getLast_mem hx)) (hally _ (List.getLast_mem hy))

/-- A pattern on atoms does not depend on how it renders them where its classes do not. -/
theorem Pattern.lift_congr {p : Pattern α} {render' : ν → List α}
    (hbehind : ∀ a, (render a).getLast?.any p.behind = (render' a).getLast?.any p.behind)
    (hahead : ∀ a, (render a).head?.any p.ahead = (render' a).head?.any p.ahead)
    (hpieces : ∀ piece ∈ p.pieces, ∀ a,
      liftClass render piece.accepts a = liftClass render' piece.accepts a) :
    p.lift render = p.lift render' := by
  have hmap : p.pieces.map (Piece.lift render) = p.pieces.map (Piece.lift render') := by
    refine List.map_congr_left fun piece hpiece => ?_
    have h := funext (hpieces piece hpiece)
    cases piece <;> simp only [Piece.lift, Piece.accepts] at h ⊢ <;> rw [h]
  simp only [Pattern.lift, hmap, funext hbehind, funext hahead]

/-- **Hidden elements** do not matter to a pattern that is blind to them. -/
theorem Pattern.lift_eq_of_blind {p : Pattern α} {render' : ν → List α}
    (hsame : ∀ a, SameButHidden hidden (render a) (render' a))
    (hbehind : Blind hidden p.behind) (hahead : Blind hidden p.ahead)
    (hpieces : ∀ piece ∈ p.pieces, Blind hidden piece.accepts) :
    p.lift render = p.lift render' :=
  lift_congr (fun a => (hsame a).any_getLast? hbehind) (fun a => (hsame a).any_head? hahead)
    fun piece hpiece a => (hsame a).all_eq (hpieces piece hpiece)

end Hidden

end Foundation
