import Mathlib.Data.List.Induction
import Mathlib.Logic.Basic

/-!
# Runs of a transition function

A system is a partial transition function `step s a`, undefined where the action `a` is not
enabled in `s`. A run is a sequence of enabled actions, each of which is also allowed by a
condition on the state before it and the action.

## Main definitions

* `Run step allowed s l t`: the actions `l` lead from `s` to `t`, each allowed
* `execute step allowed s l`: the state after the actions `l`, computed
* `trace step observe s l`: what is observed along the actions `l`
* `Along step observe C past s l`: each of the actions `l` meets a condition on the past

## Main results

* `Run.invariant`: what holds initially and is kept by every allowed step holds in every run
* `Run.split`, `Run.unique`: a run passes through one state after each prefix
* `Run.exists_violation`, `Run.exists_last_violation`: a run that is not allowed has a first and a
  last step that is not
* `Run.exists_cause`, `Run.exists_last_cause`: what holds only at the end is due to a step
* `Run.related_iff_of_kept`, `Run.related_iff`: a relation between the states of a run is a matter
  of its steps
* `Run.always_iff_of_kept`, `Run.always_iff`: the safe runs are those whose steps keep safe
* `Run.project`: a relation kept by the actions that matter and blind to the others maps a
  run to the run of the actions that matter
* `Run.refines`: two systems that are related step by step show the same
* `Run.invariant_along`: invariants that speak of what was observed
* `run_iff_execute`: runs are what is computed
-/

namespace Foundation

universe u v

variable {σ : Type u} {α : Type v}

/-- The state after a list of actions, where all of them are allowed and enabled. -/
def execute (step : σ → α → Option σ) (allowed : σ → α → Prop)
    [∀ s a, Decidable (allowed s a)] : σ → List α → Option σ
  | s, [] => some s
  | s, a :: l => if allowed s a then (step s a).bind fun t => execute step allowed t l else none

/-- The runs of `step` all of whose steps are allowed. -/
inductive Run (step : σ → α → Option σ) (allowed : σ → α → Prop) (s : σ) : List α → σ → Prop
  | nil : Run step allowed s [] s
  | snoc {t u : σ} {l : List α} {a : α} :
      Run step allowed s l t → allowed t a → step t a = some u →
        Run step allowed s (l ++ [a]) u

variable {step : σ → α → Option σ} {allowed allowed' : σ → α → Prop} {s t u : σ} {l m : List α}

namespace Run

/-- **Invariants**: what holds initially and is kept by every allowed step holds at the end. -/
theorem invariant {I : σ → Prop} (h : Run step allowed s l t) (hs : I s)
    (hI : ∀ {t u a}, I t → allowed t a → step t a = some u → I u) : I t := by
  induction h with
  | nil => exact hs
  | snoc _ ha hstep ih => exact hI ih ha hstep

theorem mono (h : Run step allowed s l t) (hle : ∀ s a, allowed s a → allowed' s a) :
    Run step allowed' s l t := by
  induction h with
  | nil => exact .nil
  | snoc _ ha hstep ih => exact .snoc ih (hle _ _ ha) hstep

theorem append (h : Run step allowed s l t) (k : Run step allowed t m u) :
    Run step allowed s (l ++ m) u := by
  induction k with
  | nil => simpa using h
  | snoc _ ha hstep ih => rw [← List.append_assoc]; exact .snoc ih ha hstep

theorem single {a : α} (ha : allowed s a) (h : step s a = some t) : Run step allowed s [a] t :=
  .snoc .nil ha h

/-- The steps of a run are among its actions. -/
theorem mem (h : Run step allowed s l t) :
    Run step (fun s a => allowed s a ∧ a ∈ l) s l t := by
  induction h with
  | nil => exact .nil
  | snoc _ ha hstep ih =>
    exact .snoc (ih.mono fun _ _ h => ⟨h.1, List.mem_append_left _ h.2⟩) ⟨ha, by simp⟩ hstep

/-- The last step of a run. -/
theorem of_snoc {a : α} (h : Run step allowed s (l ++ [a]) u) :
    ∃ t, Run step allowed s l t ∧ allowed t a ∧ step t a = some u := by
  generalize hm : l ++ [a] = m at h
  cases h with
  | nil => simp at hm
  | snoc hr ha hstep =>
    obtain ⟨rfl, hab⟩ := List.append_inj' hm rfl
    obtain rfl := List.singleton_inj.mp hab
    exact ⟨_, hr, ha, hstep⟩

/-- A run passes through a state after each of its prefixes. -/
theorem split (h : Run step allowed s (l ++ m) u) :
    ∃ t, Run step allowed s l t ∧ Run step allowed t m u := by
  induction m using List.reverseRecOn generalizing u with
  | nil => exact ⟨u, by simpa using h, .nil⟩
  | append_singleton m a ih =>
    rw [← List.append_assoc] at h
    obtain ⟨v, hv, ha, hstep⟩ := h.of_snoc
    obtain ⟨t, ht, htv⟩ := ih hv
    exact ⟨t, ht, .snoc htv ha hstep⟩

/-- The states around one of the steps of a run. -/
theorem split_cons {a : α} (h : Run step allowed s (l ++ a :: m) u) :
    ∃ t v, Run step allowed s l t ∧ allowed t a ∧ step t a = some v ∧
      Run step allowed v m u := by
  rw [List.append_cons] at h
  obtain ⟨v, hv, hrest⟩ := h.split
  obtain ⟨t, ht, ha, hstep⟩ := hv.of_snoc
  exact ⟨t, v, ht, ha, hstep, hrest⟩

/-- Actions determine the state. -/
theorem unique (h : Run step allowed s l t) (h' : Run step allowed' s l u) : t = u := by
  induction h generalizing u with
  | nil =>
    generalize hm : ([] : List α) = m at h'
    cases h' with
    | nil => rfl
    | snoc => simp at hm
  | snoc _ _ hstep ih =>
    obtain ⟨v, hv, -, hstep'⟩ := h'.of_snoc
    obtain rfl := ih hv
    exact Option.some.inj (hstep.symm.trans hstep')

/-- A run that leaves an allowance has a first step outside it. -/
theorem exists_violation {C : σ → α → Prop} (h : Run step allowed s l t) :
    Run step (fun s a => allowed s a ∧ C s a) s l t ∨
      ∃ l₁ a l₂ v w, l = l₁ ++ a :: l₂ ∧ Run step (fun s a => allowed s a ∧ C s a) s l₁ v ∧
        allowed v a ∧ ¬ C v a ∧ step v a = some w ∧ Run step allowed w l₂ t := by
  induction h with
  | nil => exact .inl (.nil)
  | @snoc t u l a _ ha hstep ih =>
    rcases ih with hr | ⟨l₁, b, l₂, v, w, rfl, hr, hb, hC, hvw, hw⟩
    · by_cases hC : C t a
      · exact .inl (.snoc hr ⟨ha, hC⟩ hstep)
      · exact .inr ⟨l, a, [], t, u, rfl, hr, ha, hC, hstep, .nil⟩
    · exact .inr ⟨l₁, b, l₂ ++ [a], v, w, by simp, hr, hb, hC, hvw, .snoc hw ha hstep⟩

/-- A run that leaves an allowance has a last step outside it. -/
theorem exists_last_violation {C : σ → α → Prop} (h : Run step allowed s l t) :
    Run step (fun s a => allowed s a ∧ C s a) s l t ∨
      ∃ l₁ a l₂ v w, l = l₁ ++ a :: l₂ ∧ Run step allowed s l₁ v ∧ allowed v a ∧ ¬ C v a ∧
        step v a = some w ∧ Run step (fun s a => allowed s a ∧ C s a) w l₂ t := by
  induction h with
  | nil => exact .inl (.nil)
  | @snoc t u l a hrun ha hstep ih =>
    by_cases hC : C t a
    · rcases ih with hr | ⟨l₁, b, l₂, v, w, rfl, hr, hb, hnot, hvw, hw⟩
      · exact .inl (.snoc hr ⟨ha, hC⟩ hstep)
      · exact .inr ⟨l₁, b, l₂ ++ [a], v, w, by simp, hr, hb, hnot, hvw, .snoc hw ⟨ha, hC⟩ hstep⟩
    · exact .inr ⟨l, a, [], t, u, rfl, hrun, ha, hC, hstep, .nil⟩

/-- **Causes**: what holds at the end of a run and not at its beginning is due to one of its
steps. -/
theorem exists_cause {P : σ → Prop} (h : Run step allowed s l t) (hs : ¬ P s) (ht : P t) :
    ∃ l₁ a l₂ v w, l = l₁ ++ a :: l₂ ∧ Run step allowed s l₁ v ∧ allowed v a ∧
      step v a = some w ∧ ¬ P v ∧ P w := by
  induction h with
  | nil => exact absurd ht hs
  | @snoc t u l a hrun ha hstep ih =>
    by_cases hbefore : P t
    · obtain ⟨l₁, b, l₂, v, w, rfl, hcause⟩ := ih hbefore
      exact ⟨l₁, b, l₂ ++ [a], v, w, by simp, hcause⟩
    · exact ⟨l, a, [], t, u, rfl, hrun, ha, hstep, hbefore, ht⟩

/-- **Last causes**: it is due to a step after which it has held throughout. -/
theorem exists_last_cause {P : σ → Prop} (h : Run step allowed s l t) (hs : ¬ P s) (ht : P t) :
    ∃ l₁ a l₂ v w, l = l₁ ++ a :: l₂ ∧ Run step allowed s l₁ v ∧ allowed v a ∧
      step v a = some w ∧ ¬ P v ∧ P w ∧ Run step (fun s a => allowed s a ∧ P s) w l₂ t := by
  induction h with
  | nil => exact absurd ht hs
  | @snoc t u l a hrun ha hstep ih =>
    by_cases hbefore : P t
    · obtain ⟨l₁, b, l₂, v, w, rfl, hv, hb, hvw, hnot, hw, hrest⟩ := ih hbefore
      exact ⟨l₁, b, l₂ ++ [a], v, w, by simp, hv, hb, hvw, hnot, hw,
        .snoc hrest ⟨ha, hbefore⟩ hstep⟩
    · exact ⟨l, a, [], t, u, rfl, hrun, ha, hstep, hbefore, ht, .nil⟩

/-- **Related states**: where the steps within `C` keep a preorder `K` that implies `R`, and no other
step keeps `R`, any two states of a run are related by `R`, in their order, if and only if every step
meets `C`. -/
theorem related_iff_of_kept {C : σ → α → Prop} {K R : σ → σ → Prop} {I : σ → Prop}
    (h : Run step allowed s l t) (hs : I s)
    (hI : ∀ {t u a}, I t → allowed t a → step t a = some u → I u)
    (hrefl : ∀ s, K s s) (htrans : ∀ {s t u}, K s t → K t u → K s u)
    (hR : ∀ {t u}, I u → K t u → R t u)
    (hK : ∀ {t u a}, I t → allowed t a → C t a → step t a = some u → K t u)
    (hC : ∀ {t u a}, I t → allowed t a → ¬ C t a → step t a = some u → ¬ R t u) :
    (∀ l₁ l₂ l₃ u v, l = l₁ ++ l₂ ++ l₃ → Run step allowed s l₁ u → Run step allowed u l₂ v →
      R u v) ↔ Run step (fun s a => allowed s a ∧ C s a) s l t := by
  constructor
  · intro hrelated
    rcases h.exists_violation (C := C) with hrun | ⟨l₁, a, l₂, v, w, rfl, hrun, ha, hnot, hvw, -⟩
    · exact hrun
    · -- The first step outside `C` relates no states.
      have hv := hrun.mono fun _ _ h => h.1
      exact absurd (hrelated l₁ [a] l₂ v w (by simp) hv (.single ha hvw))
        (hC (hv.invariant hs hI) ha hnot hvw)
  · rintro hrun l₁ l₂ l₃ v w rfl hv hw
    obtain ⟨w', hw', -⟩ := hrun.split
    obtain ⟨v', hv', hvw⟩ := hw'.split
    obtain rfl := hv.unique hv'
    obtain rfl := hw.unique hvw
    obtain ⟨hinv, hkept⟩ := hvw.invariant (I := fun w => I w ∧ K v w)
      ⟨hv.invariant hs hI, hrefl v⟩ fun hd ha hstep =>
        ⟨hI hd.1 ha.1 hstep, htrans hd.2 (hK hd.1 ha.1 ha.2 hstep)⟩
    exact hR hinv hkept

/-- The same for a preorder `R` that the steps within `C` keep themselves. -/
theorem related_iff {C : σ → α → Prop} {R : σ → σ → Prop} {I : σ → Prop}
    (h : Run step allowed s l t) (hs : I s)
    (hI : ∀ {t u a}, I t → allowed t a → step t a = some u → I u)
    (hrefl : ∀ s, R s s) (htrans : ∀ {s t u}, R s t → R t u → R s u)
    (hR : ∀ {t u a}, I t → allowed t a → step t a = some u → (R t u ↔ C t a)) :
    (∀ l₁ l₂ l₃ u v, l = l₁ ++ l₂ ++ l₃ → Run step allowed s l₁ u → Run step allowed u l₂ v →
      R u v) ↔ Run step (fun s a => allowed s a ∧ C s a) s l t :=
  h.related_iff_of_kept hs hI hrefl htrans (fun _ hkept => hkept)
    (fun ht ha hC hstep => (hR ht ha hstep).mpr hC)
    fun ht ha hC hstep hrelated => hC ((hR ht ha hstep).mp hrelated)

/-- **Safe runs**: where the steps within `C` keep an invariant `K` that makes a state safe, and
every other step from such a state leads to an unsafe one, every state of a run is safe if and only
if every step meets `C`. -/
theorem always_iff_of_kept {C : σ → α → Prop} {J K : σ → Prop} (h : Run step allowed s l t)
    (hs : K s) (hJ : ∀ {t}, K t → J t)
    (hK : ∀ {t u a}, K t → allowed t a → C t a → step t a = some u → K u)
    (hC : ∀ {t u a}, K t → allowed t a → ¬ C t a → step t a = some u → ¬ J u) :
    (∀ l₁ l₂ u, l = l₁ ++ l₂ → Run step allowed s l₁ u → J u) ↔
      Run step (fun s a => allowed s a ∧ C s a) s l t := by
  have hkept {l : List α} {u : σ} (hrun : Run step (fun s a => allowed s a ∧ C s a) s l u) : K u :=
    hrun.invariant hs fun ht ha hstep => hK ht ha.1 ha.2 hstep
  constructor
  · intro halways
    rcases h.exists_violation (C := C) with hrun | ⟨l₁, a, l₂, v, w, rfl, hrun, ha, hnot, hvw, -⟩
    · exact hrun
    · -- The state after the first step outside `C` is not safe.
      have hv := hrun.mono fun _ _ h => h.1
      exact absurd (halways (l₁ ++ [a]) l₂ w (by simp) (.snoc hv ha hvw))
        (hC (hkept hrun) ha hnot hvw)
  · rintro hrun l₁ l₂ u rfl hu
    obtain ⟨u', hu', -⟩ := hrun.split
    obtain rfl := hu.unique hu'
    exact hJ (hkept hu')

/-- The same where the steps keep `I`, and those from a safe state keep it safe exactly under
`C`. -/
theorem always_iff {C : σ → α → Prop} {I J : σ → Prop} (h : Run step allowed s l t) (hs : I s)
    (hJ : J s) (hI : ∀ {t u a}, I t → allowed t a → step t a = some u → I u)
    (hC : ∀ {t u a}, I t → J t → allowed t a → step t a = some u → (J u ↔ C t a)) :
    (∀ l₁ l₂ u, l = l₁ ++ l₂ → Run step allowed s l₁ u → J u) ↔
      Run step (fun s a => allowed s a ∧ C s a) s l t :=
  h.always_iff_of_kept (K := fun t => I t ∧ J t) ⟨hs, hJ⟩ (fun ht => ht.2)
    (fun ht ha hmeets hstep => ⟨hI ht.1 ha hstep, (hC ht.1 ht.2 ha hstep).mpr hmeets⟩)
    fun ht ha hnot hstep hsafe => hnot ((hC ht.1 ht.2 ha hstep).mp hsafe)

/-- **Projection**: where `R` is kept by the actions that `keep` selects and is blind to the
others, the selected actions of a run are a run of their own, up to `R`. -/
theorem project {R : σ → σ → Prop} {keep : α → Bool} {s' : σ}
    (h : Run step allowed s l t) (hs : R s s')
    (hkeep : ∀ {t t' u a}, R t t' → allowed t a → keep a = true → step t a = some u →
      ∃ u', allowed' t' a ∧ step t' a = some u' ∧ R u u')
    (hblind : ∀ {t t' u a}, R t t' → allowed t a → keep a = false → step t a = some u → R u t') :
    ∃ t', Run step allowed' s' (l.filter keep) t' ∧ R t t' := by
  induction h with
  | nil => exact ⟨s', .nil, hs⟩
  | @snoc t u l a _ ha hstep ih =>
    obtain ⟨t', hr, ht⟩ := ih
    cases hk : keep a with
    | true =>
      obtain ⟨u', ha', hu', hR⟩ := hkeep ht ha hk hstep
      refine ⟨u', ?_, hR⟩
      rw [List.filter_append, List.filter_cons_of_pos hk, List.filter_nil]
      exact .snoc hr ha' hu'
    | false =>
      refine ⟨t', ?_, hblind ht ha hk hstep⟩
      rw [List.filter_append, List.filter_cons_of_neg (by simp [hk]), List.filter_nil,
        List.append_nil]
      exact hr

end Run

/-! ## Observations -/

section Trace

variable {β : Type v} (step) (observe : σ → α → Option β)

/-- What is observed along a list of actions. -/
def trace : σ → List α → List β
  | _, [] => []
  | s, a :: l => (observe s a).toList ++ (step s a).elim [] fun t => trace t l

variable {step}

theorem Run.trace_append (h : Run step allowed s l t) (m : List α) :
    trace step observe s (l ++ m) = trace step observe s l ++ trace step observe t m := by
  induction h generalizing m with
  | nil => rfl
  | @snoc t u l a _ _ hstep ih =>
    rw [List.append_assoc, ih, ih, List.append_assoc]
    simp [trace, hstep]

/-- The last observation of a run. -/
theorem Run.trace_snoc (h : Run step allowed s l t) (a : α) :
    trace step observe s (l ++ [a]) = trace step observe s l ++ (observe t a).toList := by
  rw [h.trace_append]
  cases hstep : step t a <;> simp [trace, hstep]

end Trace

/-- What every observation is like, all of a trace is. -/
theorem forall_mem_trace {β : Type v} {observe : σ → α → Option β} {P : β → Prop}
    (h : ∀ s a, ∀ b ∈ observe s a, P b) (s : σ) (l : List α) :
    ∀ b ∈ trace step observe s l, P b := by
  induction l generalizing s with
  | nil => exact fun _ hb => absurd hb List.not_mem_nil
  | cons a l ih =>
    intro b hb
    rw [trace, List.mem_append] at hb
    rcases hb with hb | hb
    · exact h s a b (Option.mem_toList.mp hb)
    · cases hstep : step s a with
      | none =>
        rw [hstep] at hb
        exact absurd hb List.not_mem_nil
      | some t =>
        rw [hstep] at hb
        exact ih t b hb

/-- **Refinement**: where `R` is kept step by step, with the same observations, two systems make the
same observations along the same actions. -/
theorem Run.refines {β : Type v} {σ' : Type u} (h : Run step allowed s l t)
    (step' : σ' → α → Option σ') (observe : σ → α → Option β) (observe' : σ' → α → Option β)
    {R : σ → σ' → Prop} {s' : σ'} (hs : R s s')
    (hR : ∀ {t t' u a}, R t t' → allowed t a → step t a = some u →
      observe t a = observe' t' a ∧ ∃ u', step' t' a = some u' ∧ R u u') :
    ∃ t', Run step' (fun _ _ => True) s' l t' ∧ R t t' ∧
      trace step observe s l = trace step' observe' s' l := by
  induction h with
  | nil => exact ⟨s', .nil, hs, rfl⟩
  | snoc hrun ha hstep ih =>
    obtain ⟨t', hrun', ht, htrace⟩ := ih
    obtain ⟨hobserve, u', hu', hu⟩ := hR ht ha hstep
    refine ⟨u', .snoc hrun' trivial hu', hu, ?_⟩
    rw [hrun.trace_snoc, hrun'.trace_snoc, htrace, hobserve]

/-! ## Conditions on the past -/

section Along

variable {β : Type v} (step) (observe : σ → α → Option β) (C : List β → σ → α → Prop)

/-- Each of a list of actions meets a condition on what was observed before it. -/
def Along : List β → σ → List α → Prop
  | _, _, [] => True
  | past, s, a :: l =>
    C past s a ∧ ∀ t ∈ step s a, Along (past ++ (observe s a).toList) t l

instance decidableAlong [∀ past s a, Decidable (C past s a)] :
    ∀ past s l, Decidable (Along step observe C past s l)
  | _, _, [] => inferInstanceAs (Decidable True)
  | past, s, a :: l =>
    have (t : σ) : Decidable (Along step observe C (past ++ (observe s a).toList) t l) :=
      decidableAlong _ t l
    inferInstanceAs (Decidable (C past s a ∧ ∀ t ∈ step s a, Along _ _ _ _ t l))

variable {step observe C} {past : List β}

theorem Run.along_append (h : Run step allowed s l t) (m : List α) :
    Along step observe C past s (l ++ m) ↔ Along step observe C past s l ∧
      Along step observe C (past ++ trace step observe s l) t m := by
  induction h generalizing m with
  | nil => simp [Along, trace]
  | @snoc t u l a hr _ hstep ih =>
    rw [List.append_assoc, ih, ih, hr.trace_snoc, and_assoc]
    simp [Along, hstep]

/-- **Invariants with a past**: what holds initially and is kept by every step that meets its
condition holds at the end, of all that was observed. -/
theorem Run.invariant_along {I : List β → σ → Prop} (h : Run step allowed s l t)
    (hC : Along step observe C [] s l) (hs : I [] s)
    (hI : ∀ {past t u a}, I past t → allowed t a → C past t a → step t a = some u →
      I (past ++ (observe t a).toList) u) : I (trace step observe s l) t := by
  induction h with
  | nil => exact hs
  | @snoc t u l a hr ha hstep ih =>
    obtain ⟨hC, hlast⟩ := (hr.along_append [a]).mp hC
    rw [hr.trace_snoc]
    exact hI (ih hC) ha (by simpa using hlast.1) hstep

end Along

section Execute

variable [∀ s a, Decidable (allowed s a)]

theorem execute_append (l m : List α) (s : σ) : execute step allowed s (l ++ m) =
    (execute step allowed s l).bind fun t => execute step allowed t m := by
  induction l generalizing s with
  | nil => rfl
  | cons a l ih =>
    simp only [List.cons_append, execute]
    split
    · rw [Option.bind_assoc]
      congr 1
      funext t
      exact ih t
    · rfl

/-- Runs are executions. -/
theorem run_iff_execute : Run step allowed s l t ↔ execute step allowed s l = some t := by
  constructor
  · intro h
    induction h with
    | nil => rfl
    | snoc _ ha hstep ih => simp [execute_append, ih, execute, ha, hstep]
  · intro h
    induction l using List.reverseRecOn generalizing t with
    | nil =>
      obtain rfl : s = t := Option.some.inj h
      exact .nil
    | append_singleton l a ih =>
      rw [execute_append, Option.bind_eq_some_iff] at h
      obtain ⟨u, hu, hstep⟩ := h
      simp only [execute] at hstep
      split at hstep
      · rename_i ha
        exact .snoc (ih hu) ha (by simpa using hstep)
      · cases hstep

/-- A computed run. -/
theorem Run.of_execute (h : (execute step allowed s l).isSome = true) :
    Run step allowed s l ((execute step allowed s l).get h) :=
  run_iff_execute.mpr (Option.some_get h).symm

end Execute

end Foundation
