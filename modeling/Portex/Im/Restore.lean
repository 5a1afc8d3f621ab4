import Mathlib.Data.List.OfFn
import Portex.Im.Placeholders

/-!
# Placeholders replaced

Where the identifiers are fresh, a placeholder begins nowhere in the text but where it was put, so
that `str.replace` replaces it there and nothing else. In the output each placeholder of the text
has given way to its fragment, in which the placeholders of others are left.

## Main definitions

* `Fresh`: the identifiers are different, and no placeholder of them is in the message
* `Atom.expand`, `outputOf`: the fragments in place of their placeholders

## Main results

* `placed_tokenOf`: where a placeholder begins
* `markdownToHtml_eq`: the output
-/

namespace Portex.Markdown

open Foundation TelegramClient

/-! ## Placeholders -/

/-- A placeholder without its at signs. -/
def body (uuid4 : ℕ → Uuid) (kind : Kind) (i : ℕ) : List Char :=
  "PORTEX_".toList ++ kind.label ++ "_".toList ++ (uuid4 i).hex

/-- The identifiers drawn for a message are different, and the message holds no placeholder of
them, with its at signs or without. -/
structure Fresh (uuid4 : ℕ → Uuid) (text : List Char) : Prop where
  distinct : ∀ i < (read text).2.length, ∀ j < (read text).2.length, uuid4 i = uuid4 j → i = j
  unseen : ∀ i < (read text).2.length, ∀ kind, ¬ body uuid4 kind i <:+: text

/-- A message without `PORTEX_` holds no placeholder. -/
theorem Fresh.of_distinct {uuid4 : ℕ → Uuid} {text : List Char}
    (hdistinct : ∀ i < (read text).2.length, ∀ j < (read text).2.length,
      uuid4 i = uuid4 j → i = j) (htext : ¬ "PORTEX_".toList <:+: text) : Fresh uuid4 text := by
  have hfront (front label mid hex : List Char) : front <:+: front ++ label ++ mid ++ hex :=
    ⟨[], label ++ mid ++ hex, by simp⟩
  exact ⟨hdistinct, fun i _ kind h =>
    htext ((hfront _ kind.label "_".toList (uuid4 i).hex).trans h)⟩

section Tokens

variable {uuid4 : ℕ → Uuid} {kind : Kind} {i k : ℕ} {x : List Char} {as : List Atom}
  {fragments : List Fragment}

theorem tokenOf_eq : tokenOf uuid4 kind i = '@' :: '@' :: (body uuid4 kind i ++ ['@', '@']) := by
  have hfront : "@@PORTEX_".toList = '@' :: '@' :: "PORTEX_".toList := rfl
  have hback : "@@".toList = ['@', '@'] := rfl
  have happend (text : List Char) : '@' :: '@' :: "PORTEX_".toList ++ text =
      '@' :: '@' :: ("PORTEX_".toList ++ text) := rfl
  unfold tokenOf placeholder
  rw [hfront, happend]
  exact congrArg (fun back => '@' :: '@' :: (body uuid4 kind i ++ back)) hback

theorem notMem_body : ∀ c ∈ body uuid4 kind i, c ∉ ['@', '<', '&'] := by
  have hfront : ∀ c ∈ "PORTEX_".toList, c ∉ ['@', '<', '&'] := forall_of_all (by decide)
  have hlabel : ∀ c ∈ kind.label, c ∉ ['@', '<', '&'] := by
    cases kind <;> exact forall_of_all (by decide)
  have hmid : ∀ c ∈ "_".toList, c ∉ ['@', '<', '&'] := forall_of_all (by decide)
  have hhex : ∀ c ∈ hexDigits, c ∉ ['@', '<', '&'] := forall_of_all (by decide)
  intro c hc
  rcases List.mem_append.mp hc with hc | hc
  · rcases List.mem_append.mp hc with hc | hc
    · rcases List.mem_append.mp hc with hc | hc
      · exact hfront c hc
      · exact hlabel c hc
    · exact hmid c hc
  · exact hhex c (mem_hex hc)

theorem hex_injective : Function.Injective Uuid.hex := by
  have hdigits : Function.Injective fun d : Fin 16 => hexDigits.get d :=
    List.nodup_iff_injective_get.mp (by decide : hexDigits.Nodup)
  exact (List.map_injective_iff.mpr hdigits).comp List.ofFn_injective

theorem length_hex (uuid : Uuid) : uuid.hex.length = 32 :=
  (List.length_map _).trans List.length_ofFn

theorem eq_of_body_eq {kind' : Kind} (h : body uuid4 kind i = body uuid4 kind' k) :
    uuid4 i = uuid4 k :=
  hex_injective (List.append_inj' h ((length_hex _).trans (length_hex _).symm)).2

theorem exists_cons_of_entity : ∀ entity ∈ entities, ∃ rest, entity = '&' :: rest := by
  intro entity h
  have hhead : ∀ entity ∈ entities, entity.head? = some '&' := by decide
  exact ⟨_, List.eq_cons_of_mem_head? (hhead entity h)⟩

theorem exists_cons_of_markup (m : Markup) : ∃ rest, m.html = '<' :: rest := by
  cases m <;> exact ⟨_, rfl⟩

/-- What has no at sign, tag or entity in the text with placeholders is in the message. -/
theorem prefix_source (hx : ∀ c ∈ x, c ∉ ['@', '<', '&'])
    (hrefers : ∀ a ∈ as, a.RefersTo fragments)
    (h : x <+: as.flatMap (Atom.html (tokenOf uuid4))) : x <+: as.flatMap Atom.source := by
  induction as generalizing x with
  | nil => exact h
  | cons a as ih =>
    cases x with
    | nil => exact List.nil_prefix
    | cons c x =>
      have hc := hx c List.mem_cons_self
      have hrest : ∀ b ∈ as, b.RefersTo fragments :=
        fun b hb => hrefers b (List.mem_cons_of_mem _ hb)
      rw [List.flatMap_cons] at h ⊢
      cases a with
      | kept d =>
        rcases htmlEscapeChar_cases d with ⟨-, hd⟩ | hd
        · rw [Atom.html, hd] at h
          obtain ⟨rfl, h⟩ := List.cons_prefix_cons.mp h
          exact List.cons_prefix_cons.mpr
            ⟨rfl, ih (fun e he => hx e (List.mem_cons_of_mem _ he)) hrest (by simpa using h)⟩
        -- an entity begins with an ampersand
        · obtain ⟨rest, hentity⟩ := exists_cons_of_entity _ hd
          rw [Atom.html, hentity] at h
          obtain ⟨rfl, -⟩ := List.cons_prefix_cons.mp h
          exact absurd (by decide) hc
      | left kind i source =>
        rw [Atom.html, tokenOf_eq] at h
        obtain ⟨rfl, -⟩ := List.cons_prefix_cons.mp h
        exact absurd (by decide) hc
      | tags markup source =>
        cases markup with
        | nil =>
          have hsource : source = [] := hrefers _ List.mem_cons_self
          rw [Atom.source_tags, hsource]
          exact ih hx hrest h
        | cons m markup =>
          obtain ⟨rest, hhtml⟩ := exists_cons_of_markup m
          rw [Atom.html_tags, List.flatMap_cons, hhtml] at h
          obtain ⟨rfl, -⟩ := List.cons_prefix_cons.mp h
          exact absurd (by decide) hc

theorem exists_cons_of_body (uuid4 : ℕ → Uuid) (kind : Kind) (i : ℕ) :
    ∃ rest, body uuid4 kind i = 'P' :: rest :=
  ⟨_, rfl⟩

/-- Behind two at signs that are not a placeholder's first ones there is no placeholder. -/
theorem not_prefix_body (hunseen : ¬ body uuid4 kind k <:+: as.flatMap Atom.source)
    (hrefers : ∀ a ∈ as, a.RefersTo fragments) :
    ¬ body uuid4 kind k ++ ['@', '@'] <+: as.flatMap (Atom.html (tokenOf uuid4)) := by
  intro h
  have hprefix := prefix_source notMem_body hrefers ((List.prefix_append _ _).trans h)
  exact hunseen hprefix.isInfix

/-- The same behind one at sign. -/
theorem not_prefix_second (hunseen : ¬ body uuid4 kind k <:+: as.flatMap Atom.source)
    (hrefers : ∀ a ∈ as, a.RefersTo fragments) :
    ¬ '@' :: (body uuid4 kind k ++ ['@', '@']) <+: as.flatMap (Atom.html (tokenOf uuid4)) := by
  induction as with
  | nil => exact fun h => List.cons_ne_nil _ _ (List.prefix_nil.mp h)
  | cons a as ih =>
    have hrest : ∀ b ∈ as, b.RefersTo fragments :=
      fun b hb => hrefers b (List.mem_cons_of_mem _ hb)
    have htail : ¬ body uuid4 kind k <:+: as.flatMap Atom.source := by
      refine fun h => hunseen (h.trans ?_)
      rw [List.flatMap_cons]
      exact (List.suffix_append _ _).isInfix
    rw [List.flatMap_cons]
    cases a with
    | kept d =>
      rcases htmlEscapeChar_cases d with ⟨-, hd⟩ | hd
      · rw [Atom.html, hd]
        exact fun h => not_prefix_body htail hrest (List.cons_prefix_cons.mp h).2
      · obtain ⟨rest, hentity⟩ := exists_cons_of_entity _ hd
        rw [Atom.html, hentity]
        exact fun h => absurd (List.cons_prefix_cons.mp h).1 (by decide)
    | left kind' i source =>
      obtain ⟨rest, hbody⟩ := exists_cons_of_body uuid4 kind k
      rw [Atom.html, tokenOf_eq, hbody]
      exact fun h => absurd (List.cons_prefix_cons.mp (List.cons_prefix_cons.mp h).2).1 (by decide)
    | tags markup source =>
      cases markup with
      | nil => exact ih htail hrest
      | cons m markup =>
        obtain ⟨rest, hhtml⟩ := exists_cons_of_markup m
        rw [Atom.html_tags, List.flatMap_cons, hhtml]
        exact fun h => absurd (List.cons_prefix_cons.mp h).1 (by decide)

/-- What precedes the first at sign. -/
theorem eq_of_append_at {b b' y y' : List Char} (hb : '@' ∉ b) (hb' : '@' ∉ b')
    (h : b ++ '@' :: y = b' ++ '@' :: y') : b = b' := by
  rcases List.append_eq_append_iff.mp h with ⟨z, rfl, hz⟩ | ⟨z, rfl, hz⟩
  · cases z with
    | nil => exact (List.append_nil _).symm
    | cons c z =>
      obtain ⟨rfl, -⟩ := List.cons.inj hz
      exact absurd (by simp) hb'
  · cases z with
    | nil => exact List.append_nil _
    | cons c z =>
      obtain ⟨rfl, -⟩ := List.cons.inj hz
      exact absurd (by simp) hb

theorem at_notMem_body : '@' ∉ body uuid4 kind i :=
  fun h => notMem_body '@' h (by decide)

theorem at_notMem_entity : ∀ entity ∈ entities, '@' ∉ entity := by decide

theorem at_notMem_html (m : Markup) : '@' ∉ m.html := by
  cases m with
  | opening tag => cases tag <;> decide
  | closing tag => cases tag <;> decide

/-- **A placeholder begins where it was put**, and nowhere else. -/
theorem placed_tokenOf (kind : Kind) (hunseen : ¬ body uuid4 kind k <:+: as.flatMap Atom.source)
    (hrefers : ∀ a ∈ as, a.RefersTo fragments)
    (hdistinct : ∀ kind' i source, Atom.left kind' i source ∈ as → uuid4 i = uuid4 k → i = k) :
    Placed (tokenOf uuid4 kind k) (Atom.html (tokenOf uuid4)) (fun a => a.index? = some k) as := by
  intro a cs hsuffix x y hxy hy hprefix
  have hcs : cs <:+ as := (List.suffix_cons a cs).trans hsuffix
  have hrest : ∀ b ∈ cs, b.RefersTo fragments := fun b hb => hrefers b (hcs.subset hb)
  have htail : ¬ body uuid4 kind k <:+: cs.flatMap Atom.source := by
    obtain ⟨front, hfront⟩ := hcs
    refine fun h => hunseen (h.trans ?_)
    rw [← hfront, List.flatMap_append]
    exact (List.suffix_append _ _).isInfix
  obtain ⟨c, y, rfl⟩ := List.exists_cons_of_ne_nil hy
  rw [tokenOf_eq, List.cons_append] at hprefix
  obtain ⟨rfl, hsecond⟩ := List.cons_prefix_cons.mp hprefix
  have hat : '@' ∈ a.html (tokenOf uuid4) := by
    rw [hxy]
    exact List.mem_append_right _ List.mem_cons_self
  cases a with
  | kept d =>
    rcases htmlEscapeChar_cases d with ⟨-, hd⟩ | hd
    · -- an at sign of the message
      have hlength := congrArg List.length (hd.symm.trans hxy)
      have hnil : y = [] := by
        simp only [List.length_cons, List.length_nil, List.length_append] at hlength
        exact List.length_eq_zero_iff.mp (by omega)
      rw [hnil] at hsecond
      exact absurd hsecond (not_prefix_second htail hrest)
    · exact absurd hat (at_notMem_entity _ hd)
  | tags markup source =>
    obtain ⟨m, -, hm⟩ := List.mem_flatMap.mp hat
    exact absurd hm (at_notMem_html m)
  | left kind' i source =>
    rw [Atom.html, tokenOf_eq] at hxy
    rcases x with _ | ⟨d, _ | ⟨e, x⟩⟩
    · -- at its beginning: the same placeholder
      obtain ⟨-, hy⟩ := List.cons.inj hxy
      obtain rfl : '@' :: (body uuid4 kind' i ++ ['@', '@']) = y := hy
      have hbody := (List.cons_prefix_cons.mp hsecond).2
      obtain ⟨rest, hrest⟩ := hbody
      have happend : body uuid4 kind k ++ '@' :: '@' :: rest =
          body uuid4 kind' i ++ '@' :: '@' :: cs.flatMap (Atom.html (tokenOf uuid4)) := by
        simpa using hrest
      have heq := eq_of_append_at at_notMem_body at_notMem_body happend
      have hi := hdistinct kind' i source (hsuffix.subset List.mem_cons_self)
        (eq_of_body_eq heq).symm
      exact ⟨congrArg some hi, rfl⟩
    · -- at its second at sign
      obtain ⟨-, hy⟩ := List.cons.inj hxy
      obtain ⟨-, hy⟩ := List.cons.inj hy
      obtain ⟨rest, hbody⟩ := exists_cons_of_body uuid4 kind' i
      rw [← hy, hbody] at hsecond
      exact absurd (List.cons_prefix_cons.mp hsecond).1 (by decide)
    · -- at one of the last two
      obtain ⟨-, hy⟩ := List.cons.inj hxy
      obtain ⟨-, hy⟩ := List.cons.inj hy
      rcases List.append_eq_append_iff.mp hy with ⟨z, rfl, hz⟩ | ⟨z, hz, hy⟩
      · rcases z with _ | ⟨f, _ | ⟨g, z⟩⟩
        · obtain ⟨-, hy⟩ := List.cons.inj hz
          rw [← hy] at hsecond
          exact absurd (List.cons_prefix_cons.mp hsecond).2 (not_prefix_body htail hrest)
        · obtain ⟨-, hy⟩ := List.cons.inj hz
          obtain ⟨-, hy⟩ := List.cons.inj hy
          rw [← hy] at hsecond
          exact absurd hsecond (not_prefix_second htail hrest)
        · have hlength := congrArg List.length hz
          simp at hlength
      · cases z with
        | nil =>
          obtain ⟨-, hy⟩ := List.cons.inj hy
          rw [hy] at hsecond
          exact absurd (List.cons_prefix_cons.mp hsecond).2 (not_prefix_body htail hrest)
        | cons f z =>
          obtain ⟨rfl, -⟩ := List.cons.inj hy
          have hmem : '@' ∈ body uuid4 kind' i := by
            rw [hz]
            simp
          exact absurd hmem at_notMem_body

end Tokens

/-! ## Replacing the placeholders -/

/-- The fragments of the numbers below `k` in place of their placeholders. -/
def Atom.expand (fragments : List Fragment) (k : ℕ) : Atom → List Atom
  | .left kind i source =>
    if i < k then (fragments[i]?.map Fragment.atoms).getD [] else [.left kind i source]
  | .kept c => [.kept c]
  | .tags markup source => [.tags markup source]

/-- The output, as atoms. -/
def outputOf (text : List Char) : List Atom :=
  (atomsOf text).flatMap (Atom.expand (read text).2 (read text).2.length)

theorem sound_read (text : List Char) : Sound text (setAsideAll text).1 (read text).2 := by
  rw [snd_read]
  exact sound_setAsideAll text

section Expand

variable {fragments : List Fragment} {text : List Char} {as : List Atom} {k : ℕ}

theorem expand_left_of_lt {kind : Kind} {i : ℕ} {source : List Char} {f : Fragment} (hi : i < k)
    (hf : fragments[i]? = some f) :
    (Atom.left kind i source).expand fragments k = f.atoms := by
  simp [Atom.expand, hi, hf]

theorem expand_left_of_le {kind : Kind} {i : ℕ} {source : List Char} (hi : k ≤ i) :
    (Atom.left kind i source).expand fragments k = [.left kind i source] :=
  if_neg (Nat.not_lt.mpr hi)

theorem getElem?_of_take {i j : ℕ} {f : Fragment} (h : (fragments.take j)[i]? = some f) :
    i < j ∧ fragments[i]? = some f := by
  rw [List.getElem?_take] at h
  split at h
  · rename_i hi
    exact ⟨hi, h⟩
  · cases h

theorem refersTo_of_take {n : Node} {j : ℕ} (h : n.RefersTo (fragments.take j)) :
    n.RefersTo fragments := by
  cases n with
  | char c => trivial
  | held kind i source =>
    obtain ⟨f, hf, hkind⟩ := h
    exact ⟨f, (getElem?_of_take hf).2, hkind⟩

theorem index?_lt_of_take {n : Node} {i j : ℕ} (h : n.RefersTo (fragments.take j))
    (hi : n.index? = some i) : i < j := by
  cases n with
  | char c => cases hi
  | held kind i' source =>
    obtain rfl := Option.some.inj hi
    obtain ⟨f, hf, -⟩ := h
    exact (getElem?_of_take hf).1

/-- What is in a fragment set aside. -/
theorem mem_atoms_iff {f : Fragment} {a : Atom} : a ∈ f.atoms ↔
    a = .tags f.kind.opening (f.opening.flatMap Node.source) ∨ (∃ n ∈ f.nodes, n.atom = a) ∨
      a = .tags f.kind.closing (f.closing.flatMap Node.source) := by
  simp [Fragment.atoms]

/-- What takes the place of a placeholder holds placeholders of the fragments before. -/
theorem refersTo_expand {nodes : List Node} (hsound : Sound text nodes fragments) {a : Atom}
    (ha : a.RefersTo fragments) : ∀ b ∈ a.expand fragments k, b.RefersTo fragments := by
  intro b hb
  cases a with
  | kept c =>
    rw [List.mem_singleton.mp hb]
    trivial
  | tags markup source =>
    rw [List.mem_singleton.mp hb]
    exact ha
  | left kind i source =>
    rcases Nat.lt_or_ge i k with hi | hi
    · obtain ⟨f, hf, -⟩ := ha
      have hmem := List.mem_of_getElem? hf
      rw [expand_left_of_lt hi hf] at hb
      rcases mem_atoms_iff.mp hb with rfl | ⟨n, hn, rfl⟩ | rfl
      · exact (hsound.marked f hmem).1
      · exact (refersTo_of_take (hsound.before i f hf n hn)).atom
      · exact (hsound.marked f hmem).2
    · rw [expand_left_of_le hi] at hb
      rw [List.mem_singleton.mp hb]
      exact ha

theorem source_expand {a : Atom} (ha : a.RefersTo fragments) :
    (a.expand fragments k).flatMap Atom.source = a.source := by
  cases a with
  | kept c => exact List.append_nil _
  | tags markup source => exact List.append_nil _
  | left kind i source =>
    rcases Nat.lt_or_ge i k with hi | hi
    · obtain ⟨f, hf, -, hsource⟩ := ha
      rw [expand_left_of_lt hi hf, source_fragment, hsource]
      rfl
    · rw [expand_left_of_le hi]
      exact List.append_nil _

theorem flatMap_expand_zero : as.flatMap (Atom.expand fragments 0) = as := by
  have hself (a : Atom) : a.expand fragments 0 = [a] := by
    cases a with
    | kept c => rfl
    | left kind i source => exact expand_left_of_le (Nat.zero_le i)
    | tags markup source => rfl
  rw [List.flatMap_congr fun a _ => hself a]
  exact List.flatMap_singleton' as

variable {uuid4 : ℕ → Uuid}

/-- **One pass of `str.replace`** replaces the placeholders of one fragment. -/
theorem replaceAll_expand {nodes : List Node} (hsound : Sound text nodes fragments)
    (hdistinct : ∀ i < fragments.length, ∀ j < fragments.length, uuid4 i = uuid4 j → i = j)
    (hunseen : ∀ kind, ¬ body uuid4 kind k <:+: as.flatMap Atom.source)
    (hrefers : ∀ a ∈ as, a.RefersTo fragments) {f : Fragment} (hf : fragments[k]? = some f) :
    replaceAll (tokenOf uuid4 f.kind k) (f.replacement (tokenOf uuid4))
        ((as.flatMap (Atom.expand fragments k)).flatMap (Atom.html (tokenOf uuid4))) =
      (as.flatMap (Atom.expand fragments (k + 1))).flatMap (Atom.html (tokenOf uuid4)) := by
  have hk := (List.getElem?_eq_some_iff.mp hf).1
  have hexpanded : ∀ b ∈ as.flatMap (Atom.expand fragments k), b.RefersTo fragments := by
    intro b hb
    obtain ⟨a, ha, hb⟩ := List.mem_flatMap.mp hb
    exact refersTo_expand hsound (hrefers a ha) b hb
  have hsource : (as.flatMap (Atom.expand fragments k)).flatMap Atom.source =
      as.flatMap Atom.source := by
    rw [List.flatMap_assoc]
    exact List.flatMap_congr fun a ha => source_expand (hrefers a ha)
  have hshown : ∀ a ∈ as.flatMap (Atom.expand fragments k), a.index? = some k →
      a.html (tokenOf uuid4) = tokenOf uuid4 f.kind k := by
    intro a ha hindex
    have href := hexpanded a ha
    cases a with
    | kept c => cases hindex
    | tags markup source => cases hindex
    | left kind i source =>
      obtain rfl := Option.some.inj hindex
      obtain ⟨g, hg, rfl, -⟩ := href
      obtain rfl := Option.some.inj (hf.symm.trans hg)
      rfl
  have hplaced := placed_tokenOf f.kind (hsource ▸ hunseen f.kind) hexpanded
    fun kind i source hmem huuid => by
      obtain ⟨g, hg, -⟩ := hexpanded _ hmem
      exact hdistinct i (List.getElem?_eq_some_iff.mp hg).1 k hk huuid
  have hne : tokenOf uuid4 f.kind k ≠ [] := (opaque_tokenOf uuid4 f.kind k).1
  rw [replaceAll_flatMap hne hshown hplaced, List.flatMap_assoc, List.flatMap_assoc]
  refine List.flatMap_congr fun a ha => ?_
  cases a with
  | kept c => rfl
  | tags markup source => rfl
  | left kind i source =>
    rcases Nat.lt_trichotomy i k with hi | rfl | hi
    -- its fragment holds placeholders of fragments before it
    · obtain ⟨g, hg, -⟩ := hrefers _ ha
      rw [expand_left_of_lt hi hg, expand_left_of_lt (Nat.lt_succ_of_lt hi) hg]
      refine List.flatMap_congr fun b hb => if_neg fun hindex => ?_
      rcases mem_atoms_iff.mp hb with rfl | ⟨n, hn, rfl⟩ | rfl
      · cases hindex
      · rw [index?_atom] at hindex
        have hlt := index?_lt_of_take (hsound.before i g hg n hn) hindex
        omega
      · cases hindex
    · rw [expand_left_of_le (Nat.le_refl i), expand_left_of_lt (Nat.lt_succ_self i) hf,
        html_fragment]
      simp [Atom.index?]
    · rw [expand_left_of_le hi.le, expand_left_of_le hi]
      simp [Atom.index?, hi.ne']

/-- **All passes of `str.replace`**, of the fragments from one number on. -/
theorem foldl_replaceAll {nodes : List Node} (hsound : Sound text nodes fragments)
    (hdistinct : ∀ i < fragments.length, ∀ j < fragments.length, uuid4 i = uuid4 j → i = j)
    (hunseen : ∀ i < fragments.length, ∀ kind, ¬ body uuid4 kind i <:+: as.flatMap Atom.source)
    (hrefers : ∀ a ∈ as, a.RefersTo fragments) {done rest : List Fragment}
    (hsplit : fragments = done ++ rest) :
    ((rest.zipIdx done.length).map fun (f, i) =>
        (tokenOf uuid4 f.kind i, f.replacement (tokenOf uuid4))).foldl
        (fun rendered (token, replacement) => replaceAll token replacement rendered)
        ((as.flatMap (Atom.expand fragments done.length)).flatMap (Atom.html (tokenOf uuid4))) =
      (as.flatMap (Atom.expand fragments fragments.length)).flatMap
        (Atom.html (tokenOf uuid4)) := by
  induction rest generalizing done with
  | nil =>
    obtain rfl : fragments = done := by rw [hsplit, List.append_nil]
    rfl
  | cons f rest ih =>
    have hf : fragments[done.length]? = some f := by
      rw [hsplit]
      exact List.getElem?_append_right (Nat.le_refl _) |>.trans (by simp)
    have hk := (List.getElem?_eq_some_iff.mp hf).1
    have hdone : fragments = (done ++ [f]) ++ rest := by rw [hsplit, List.append_assoc]; rfl
    have hrest := ih hdone
    rw [List.length_append, List.length_singleton] at hrest
    rw [List.zipIdx_cons, List.map_cons, List.foldl_cons, ← hrest]
    exact congrArg (List.foldl _ · _)
      (replaceAll_expand hsound hdistinct (hunseen _ hk) hrefers hf)

theorem nodup_entries
    (hdistinct : ∀ i < fragments.length, ∀ j < fragments.length, uuid4 i = uuid4 j → i = j) :
    ((entries (tokenOf uuid4) fragments).map Prod.fst).Nodup := by
  have hnodup : fragments.zipIdx.Nodup :=
    .of_map Prod.snd (by rw [List.zipIdx_map_snd]; exact List.nodup_range')
  rw [entries, List.map_map]
  refine hnodup.map_on ?_
  rintro ⟨f, i⟩ hf ⟨g, j⟩ hg heq
  rw [List.mk_mem_zipIdx_iff_getElem?] at hf hg
  have htoken : tokenOf uuid4 f.kind i = tokenOf uuid4 g.kind j := heq
  rw [tokenOf_eq, tokenOf_eq] at htoken
  have hbody : body uuid4 f.kind i = body uuid4 g.kind j :=
    eq_of_append_at at_notMem_body at_notMem_body
      (List.cons.inj (List.cons.inj htoken).2).2
  obtain rfl := hdistinct i (List.getElem?_eq_some_iff.mp hf).1 j
    (List.getElem?_eq_some_iff.mp hg).1 (eq_of_body_eq hbody)
  rw [Option.some.inj (hf.symm.trans hg)]

theorem items_stashOf
    (hdistinct : ∀ i < fragments.length, ∀ j < fragments.length, uuid4 i = uuid4 j → i = j) :
    (stashOf (tokenOf uuid4) fragments).replacements.items = entries (tokenOf uuid4) fragments :=
  Dict.items_ofItems (nodup_entries hdistinct)

/-- **The placeholders are replaced.** -/
theorem restore_eq {nodes : List Node} (hsound : Sound text nodes fragments)
    (hdistinct : ∀ i < fragments.length, ∀ j < fragments.length, uuid4 i = uuid4 j → i = j)
    (hunseen : ∀ i < fragments.length, ∀ kind, ¬ body uuid4 kind i <:+: as.flatMap Atom.source)
    (hrefers : ∀ a ∈ as, a.RefersTo fragments) :
    restore (as.flatMap (Atom.html (tokenOf uuid4)))
        (stashOf (tokenOf uuid4) fragments).replacements =
      (as.flatMap (Atom.expand fragments fragments.length)).flatMap
        (Atom.html (tokenOf uuid4)) := by
  have hfold := foldl_replaceAll hsound hdistinct hunseen hrefers (List.nil_append fragments).symm
  rw [List.length_nil, flatMap_expand_zero] at hfold
  rw [restore, items_stashOf hdistinct]
  exact hfold

end Expand

theorem refersTo_outputOf (text : List Char) : ∀ a ∈ outputOf text, a.RefersTo (read text).2 := by
  intro a ha
  obtain ⟨b, hb, ha⟩ := List.mem_flatMap.mp ha
  exact refersTo_expand (sound_read text) (refersTo_atomsOf text b hb) a ha

/-- The atoms of the output are the message. -/
theorem source_outputOf (text : List Char) : (outputOf text).flatMap Atom.source = text := by
  rw [outputOf, List.flatMap_assoc,
    List.flatMap_congr fun a ha => source_expand (refersTo_atomsOf text a ha)]
  exact source_atomsOf text

/-- **The output**: each placeholder of the text has given way to its fragment. -/
theorem markdownToHtml_eq {uuid4 : ℕ → Uuid} {text : List Char} (hfresh : Fresh uuid4 text) :
    markdownToHtml uuid4 text = (outputOf text).flatMap (Atom.html (tokenOf uuid4)) := by
  have hunseen : ∀ i < (read text).2.length, ∀ kind,
      ¬ body uuid4 kind i <:+: (atomsOf text).flatMap Atom.source := by
    rw [source_atomsOf]
    exact hfresh.unseen
  have h := restore_eq (sound_read text) hfresh.distinct hunseen (refersTo_atomsOf text)
  rw [html_atomsOf, ← snd_conversion] at h
  exact h

end Portex.Markdown
