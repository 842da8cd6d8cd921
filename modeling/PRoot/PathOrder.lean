import PRoot.Paths

/-!
# What the path comparison decides

`compare_paths2` looks at lengths, at one sentinel character and at a common
stretch of the two strings.  Here it is brought to the words of the paths.

* `comparePaths_eq` is the comparison without its arithmetic: both paths lose
  one trailing '/', then one must be the other up to a boundary;
* `comparePaths_trans`, `comparePaths_antisymm`: containment is an order, on any
  strings;
* `comparePaths_contains_iff`: a canonical path contains a string exactly when
  its words cover the string;
* `comparePaths_canonical`: between canonical paths the four answers are the
  four cases of the prefix order on words.
-/

namespace PRoot

open SepPath

/-- A name a directory entry can have. -/
def IsName (c : CStr) : Prop := IsWord '/' c ∧ c ≠ ['.'] ∧ c ≠ ['.', '.']

instance (c : CStr) : Decidable (IsName c) := inferInstanceAs (Decidable (_ ∧ _))

theorem IsName.isWord {c : CStr} (h : IsName c) : IsWord '/' c := h.1

/-- The words of a path. -/
def comps (p : CStr) : List CStr := SepPath.comps '/' p

/-- The path of a list of names, "/" for none. -/
def render (cs : List CStr) : CStr := SepPath.render '/' cs

/-- Absolute, and nothing but names between single separators. -/
def Canonical (p : CStr) : Prop := (∀ c ∈ comps p, IsName c) ∧ p = render (comps p)

instance (p : CStr) : Decidable (Canonical p) := inferInstanceAs (Decidable (_ ∧ _))

/-- A path as the beginning of longer ones: "/" contributes nothing. -/
def trim (p : CStr) : CStr := if p = slash then [] else p

/-- What `compare_paths2` looks at: the path without one trailing '/'. -/
def strip (p : CStr) : CStr := if p.getLast? = some '/' then p.dropLast else p

variable {cs : List CStr}

theorem canonical_render (h : ∀ c ∈ cs, IsName c) : Canonical (render cs) := by
  have hread : comps (render cs) = cs := comps_render '/' (fun c hc => (h c hc).isWord)
  exact ⟨by simpa [hread] using h, by rw [hread]⟩

theorem comps_render_names (h : ∀ c ∈ cs, IsName c) :
    comps (render cs) = cs :=
  comps_render '/' (fun c hc => (h c hc).isWord)

theorem canonical_slash : Canonical slash := by decide

theorem comps_words (p : CStr) : ∀ c ∈ comps p, IsWord '/' c := comps_isWord '/' p

theorem render_ne_nil (cs : List CStr) : render cs ≠ [] := SepPath.render_ne_nil '/' cs

variable {p : CStr}

theorem Canonical.ne_nil (h : Canonical p) : p ≠ [] := by
  rw [h.2]
  exact render_ne_nil _

theorem render_head (cs : List CStr) : (render cs).head? = some '/' := by
  cases cs <;> simp [render]

theorem Canonical.head (h : Canonical p) : p.head? = some '/' := by
  rw [h.2]
  exact render_head _

theorem render_eq_slash_iff (h : ∀ c ∈ cs, IsWord '/' c) :
    render cs = slash ↔ cs = [] := by
  rw [show slash = render [] from rfl]
  exact render_inj '/' h (by simp)

/-- The words of a canonical path, written out. -/
theorem trim_render (h : ∀ c ∈ cs, IsWord '/' c) :
    trim (render cs) = flat '/' cs := by
  unfold trim
  split
  · rename_i heq
    rw [(render_eq_slash_iff h).mp heq]
    rfl
  · rename_i hne
    exact SepPath.render_of_ne_nil '/' (fun hnil => hne ((render_eq_slash_iff h).mpr hnil))

theorem Canonical.trim_eq (h : Canonical p) : trim p = flat '/' (comps p) := by
  conv_lhs => rw [h.2]
  exact trim_render (comps_words p)

variable {q : CStr}

/-- Canonical paths are told apart by their words. -/
theorem Canonical.eq_iff (hp : Canonical p) (hq : Canonical q) :
    p = q ↔ comps p = comps q := by
  refine ⟨fun h => h ▸ rfl, fun h => ?_⟩
  rw [hp.2, hq.2, h]

/-- Written names never end with a separator. -/
theorem flat_getLast_ne (h : ∀ c ∈ cs, IsWord '/' c) :
    (flat '/' cs).getLast? ≠ some '/' := by
  induction cs with
  | nil => simp
  | cons c cs ih =>
      have ih := ih (fun d hd => h d (List.mem_cons_of_mem _ hd))
      obtain ⟨hne, hmem⟩ := h c List.mem_cons_self
      rw [flat_cons, List.getLast?_cons, List.getLast?_append]
      cases htail : (flat '/' cs).getLast? with
      | some x =>
          rw [htail] at ih
          simpa using ih
      | none =>
          have hc : c.getLast? = some (c.getLast hne) := List.getLast?_eq_some_getLast hne
          simp only [hc, Option.or_some, Option.getD_some, ne_eq, Option.some.injEq]
          intro hbad
          exact hmem (hbad ▸ List.getLast_mem hne)

theorem strip_render (h : ∀ c ∈ cs, IsWord '/' c) :
    strip (render cs) = flat '/' cs := by
  cases cs with
  | nil => rfl
  | cons c cs =>
      have hlast := flat_getLast_ne h
      rw [render, SepPath.render_of_ne_nil '/' (by simp), strip, if_neg hlast]

/-! ## The comparison without its arithmetic -/

theorem strip_isLead (p : CStr) : strip p <+: p := by
  unfold strip
  split
  · exact List.dropLast_prefix p
  · exact List.prefix_rfl

/-- The adjusted length of `compare_paths2`. -/
theorem strip_length (p : CStr) :
    (strip p).length = if p[p.length - 1]? = some '/' then p.length - 1 else p.length := by
  unfold strip
  rw [List.getLast?_eq_getElem?]
  split <;> simp

theorem take_strip_length (p : CStr) : p.take (strip p).length = strip p :=
  (List.prefix_iff_eq_take.mp (strip_isLead p)).symm

/-- A path is what the comparison looks at, followed by nothing or one '/'. -/
theorem eq_strip_append (p : CStr) :
    ∃ tail, p = strip p ++ tail ∧ (tail = [] ∨ tail = ['/']) := by
  unfold strip
  split
  · rename_i h
    have hne : p ≠ [] := by
      rintro rfl
      simp at h
    refine ⟨['/'], ?_, Or.inr rfl⟩
    have hlast : p.getLast hne = '/' := by
      rw [List.getLast?_eq_some_getLast hne] at h
      exact Option.some.inj h
    rw [← hlast, List.dropLast_append_getLast hne]
  · exact ⟨[], by simp, Or.inl rfl⟩

/-- The character right after a stretch that both see. -/
theorem getElem?_strip {n : Nat} (h : n < (strip p).length) :
    p[n]? = (strip p)[n]? := by
  obtain ⟨tail, htail, _⟩ := eq_strip_append p
  conv_lhs => rw [htail]
  rw [List.getElem?_append_left h]

/-- At the end of what it looks at, the comparison finds '/' or the terminator. -/
theorem getElem?_strip_length (p : CStr) :
    p[(strip p).length]? = some '/' ∨ p[(strip p).length]? = none := by
  obtain ⟨tail, htail, hor⟩ := eq_strip_append p
  have heq : p[(strip p).length]? = tail[0]? := by
    have happ : (strip p ++ tail)[(strip p).length]? = tail[0]? := by
      rw [List.getElem?_append_right (Nat.le_refl _), Nat.sub_self]
    rwa [← htail] at happ
  rcases hor with rfl | rfl
  · exact Or.inr (by simpa using heq)
  · exact Or.inl (by simpa using heq)

/-- `u` ends inside `v` at a separator. -/
def EndsInside (u v : CStr) : Prop := u <+: v ∧ v[u.length]? = some '/'

instance (u v : CStr) : Decidable (EndsInside u v) := by
  unfold EndsInside; infer_instance

theorem EndsInside.length_lt {u v : CStr} (h : EndsInside u v) : u.length < v.length := by
  obtain ⟨hlt, -⟩ := List.getElem?_eq_some_iff.mp h.2
  exact hlt

/-- The sentinel and the common stretch, in the case that the first path is the
shorter one: `q` is the longer path, `v` what the comparison sees of it. -/
theorem sentinel_shorter {u : CStr} (hlt : u.length < (strip q).length) :
    (¬ (q[u.length]? ≠ some '/' ∧ q[u.length]? ≠ none) ∧ ¬ u ≠ q.take u.length) ↔
      EndsInside u (strip q) := by
  have htake : q.take u.length = (strip q).take u.length := by
    rw [← take_strip_length q, List.take_take, Nat.min_eq_left (Nat.le_of_lt hlt)]
  have hsome : (strip q)[u.length]? ≠ none := by simpa using hlt
  rw [EndsInside, List.prefix_iff_eq_take, htake, getElem?_strip hlt]
  constructor
  · rintro ⟨hs, ht⟩
    exact ⟨not_not.mp ht, not_not.mp (fun hne => hs ⟨hne, hsome⟩)⟩
  · rintro ⟨ht, hs⟩
    exact ⟨fun h => h.1 hs, not_not.mpr ht⟩

/-- **The comparison without its arithmetic.** -/
theorem comparePaths_eq (hp : p ≠ []) (hq : q ≠ []) :
    comparePaths p q =
      if strip p = strip q then .pathsAreEqual
      else if EndsInside (strip p) (strip q) then .path1IsPrefix
      else if EndsInside (strip q) (strip p) then .path2IsPrefix
      else .pathsAreNotComparable := by
  have hp0 : ¬ (p.length = 0 ∨ q.length = 0) := by simp [hp, hq]
  unfold comparePaths comparePaths2
  rw [if_neg hp0]
  simp only [← strip_length]
  rcases Nat.lt_trichotomy (strip p).length (strip q).length with hlt | heq | hgt
  · have hne : strip p ≠ strip q := fun h => by rw [h] at hlt; exact Nat.lt_irrefl _ hlt
    have hnot : ¬ EndsInside (strip q) (strip p) := fun h => by have := h.length_lt; omega
    have hiff := sentinel_shorter hlt
    simp only [if_pos hlt, if_neg hne, if_neg hnot, take_strip_length,
      if_neg (Nat.ne_of_lt hlt)]
    by_cases hin : EndsInside (strip p) (strip q)
    · obtain ⟨hs, ht⟩ := hiff.mpr hin
      rw [if_neg hs, if_neg ht, if_pos hin]
    · rw [if_neg hin]
      by_cases hs : q[(strip p).length]? ≠ some '/' ∧ q[(strip p).length]? ≠ none
      · rw [if_pos hs]
      · rw [if_neg hs, if_pos (fun ht => hin (hiff.mp ⟨hs, not_not.mpr ht⟩))]
  · have hnlt : ¬ (strip p).length < (strip q).length := by omega
    have hnot₁ : ¬ EndsInside (strip p) (strip q) := fun h => hnlt h.length_lt
    have hnot₂ : ¬ EndsInside (strip q) (strip p) := fun h => by have := h.length_lt; omega
    have hs : ¬ (p[(strip q).length]? ≠ some '/' ∧ p[(strip q).length]? ≠ none) := by
      rw [← heq]
      rcases getElem?_strip_length p with hs | hs <;> simp [hs]
    have htake : p.take (strip q).length = strip p := by rw [← heq, take_strip_length]
    simp only [if_neg hnlt, if_neg hs, htake, take_strip_length, if_pos heq, if_neg hnot₁,
      if_neg hnot₂]
    by_cases h : strip p = strip q <;> simp [h]
  · have hnlt : ¬ (strip p).length < (strip q).length := by omega
    have hne : strip p ≠ strip q := fun h => by rw [h] at hgt; exact Nat.lt_irrefl _ hgt
    have hnot : ¬ EndsInside (strip p) (strip q) := fun h => hnlt h.length_lt
    have hiff := sentinel_shorter hgt
    simp only [if_neg hnlt, if_neg hne, if_neg hnot, take_strip_length,
      if_neg (Nat.ne_of_gt hgt)]
    by_cases hin : EndsInside (strip q) (strip p)
    · obtain ⟨hs, ht⟩ := hiff.mpr hin
      rw [if_neg hs, if_neg (fun h => ht (Ne.symm h)), if_pos hin]
    · rw [if_neg hin]
      by_cases hs : p[(strip q).length]? ≠ some '/' ∧ p[(strip q).length]? ≠ none
      · rw [if_pos hs]
      · rw [if_neg hs, if_pos (fun ht => hin (hiff.mp ⟨hs, not_not.mpr ht.symm⟩))]

/-! ## The comparison as an order -/

theorem EndsInside.trans {u v w : CStr} (h : EndsInside u v) (h' : EndsInside v w) :
    EndsInside u w := by
  obtain ⟨hpre, hsep⟩ := h
  refine ⟨hpre.trans h'.1, ?_⟩
  obtain ⟨rest, rfl⟩ := h'.1
  rw [List.getElem?_append_left (EndsInside.length_lt ⟨hpre, hsep⟩)]
  exact hsep

theorem comparePaths_nil (h : p = [] ∨ q = []) :
    comparePaths p q = .pathsAreNotComparable := by
  rcases h with rfl | rfl <;> simp [comparePaths, comparePaths2]

theorem comparePaths_equal_strip :
    comparePaths p q = .pathsAreEqual ↔ p ≠ [] ∧ q ≠ [] ∧ strip p = strip q := by
  by_cases hne : p = [] ∨ q = []
  · rw [comparePaths_nil hne]
    refine ⟨fun h => (by cases h), fun h => ?_⟩
    exact hne.elim (absurd · h.1) (absurd · h.2.1)
  · rw [not_or] at hne
    rw [comparePaths_eq hne.1 hne.2]
    split
    · rename_i heq
      exact ⟨fun _ => ⟨hne.1, hne.2, heq⟩, fun _ => rfl⟩
    · rename_i hdiff
      refine ⟨fun h => ?_, fun h => absurd h.2.2 hdiff⟩
      split at h
      · cases h
      · split at h <;> cases h

theorem comparePaths_contains_strip : (comparePaths p q).contains = true ↔
    p ≠ [] ∧ q ≠ [] ∧ (strip p = strip q ∨ EndsInside (strip p) (strip q)) := by
  by_cases hne : p = [] ∨ q = []
  · rw [comparePaths_nil hne]
    refine ⟨fun h => (by cases h), fun h => ?_⟩
    exact hne.elim (absurd · h.1) (absurd · h.2.1)
  · rw [not_or] at hne
    rw [comparePaths_eq hne.1 hne.2]
    split
    · rename_i heq
      exact ⟨fun _ => ⟨hne.1, hne.2, Or.inl heq⟩, fun _ => rfl⟩
    · rename_i hdiff
      split
      · rename_i hin
        exact ⟨fun _ => ⟨hne.1, hne.2, Or.inr hin⟩, fun _ => rfl⟩
      · rename_i hout
        refine ⟨fun h => ?_, fun h => (h.2.2.elim hdiff hout).elim⟩
        split at h <;> cases h

theorem comparePaths_self (hp : p ≠ []) : comparePaths p p = .pathsAreEqual :=
  comparePaths_equal_strip.mpr ⟨hp, hp, rfl⟩

/-- Containment is transitive, whatever the paths look like. -/
theorem comparePaths_trans {r : CStr} (h : (comparePaths p q).contains = true)
    (h' : (comparePaths q r).contains = true) : (comparePaths p r).contains = true := by
  obtain ⟨hp, -, h⟩ := comparePaths_contains_strip.mp h
  obtain ⟨-, hr, h'⟩ := comparePaths_contains_strip.mp h'
  refine comparePaths_contains_strip.mpr ⟨hp, hr, ?_⟩
  rcases h with h | h
  · rwa [h]
  · rcases h' with h' | h'
    · exact Or.inr (h' ▸ h)
    · exact Or.inr (h.trans h')

theorem comparePaths_antisymm (h : (comparePaths p q).contains = true)
    (h' : (comparePaths q p).contains = true) : comparePaths p q = .pathsAreEqual := by
  obtain ⟨hp, hq, h⟩ := comparePaths_contains_strip.mp h
  obtain ⟨-, -, h'⟩ := comparePaths_contains_strip.mp h'
  refine comparePaths_equal_strip.mpr ⟨hp, hq, ?_⟩
  rcases h with h | h
  · exact h
  · rcases h' with h' | h'
    · exact h'.symm
    · exact absurd (Nat.lt_trans h.length_lt h'.length_lt) (Nat.lt_irrefl _)

/-! ## The comparison on words -/

theorem strip_slash : strip slash = [] := rfl

variable {a : List CStr}

/-- Ending inside is covering a longer stretch. -/
theorem covers_strip_iff :
    (flat '/' a = strip q ∨ EndsInside (flat '/' a) (strip q)) ↔ Covers '/' a (strip q) := by
  constructor
  · rintro (h | ⟨⟨rest, hrest⟩, hend⟩)
    · exact ⟨[], by simpa using h.symm, atBoundary_nil '/'⟩
    · refine ⟨rest, hrest.symm, Or.inr ?_⟩
      rw [← hrest, List.getElem?_append_right (Nat.le_refl _), Nat.sub_self] at hend
      rw [List.head?_eq_getElem?, hend]
  · rintro ⟨rest, hrest, hb⟩
    cases rest with
    | nil => exact Or.inl (by simpa using hrest.symm)
    | cons x xs =>
        have hx : x = '/' := by simpa [AtBoundary] using hb
        subst hx
        refine Or.inr ⟨⟨_, hrest.symm⟩, ?_⟩
        rw [hrest, List.getElem?_append_right (Nat.le_refl _), Nat.sub_self]
        rfl

/-- The trailing '/' the comparison drops does not matter to covering. -/
theorem covers_of_strip (ha : ∀ c ∈ a, IsWord '/' c) :
    Covers '/' a (strip q) ↔ Covers '/' a q := by
  obtain ⟨tail, htail, hor⟩ := eq_strip_append q
  constructor
  · rintro ⟨rest, hrest, hb⟩
    refine ⟨rest ++ tail, by rw [htail, hrest]; simp, atBoundary_append '/' hb ?_⟩
    rcases hor with rfl | rfl
    · exact atBoundary_nil '/'
    · exact atBoundary_cons '/' []
  · rintro ⟨rest, hrest, hb⟩
    rcases hor with rfl | rfl
    · exact ⟨rest, by rw [← hrest, ← htail.trans (List.append_nil _)], hb⟩
    · cases hr : rest.reverse with
      | nil =>
          -- nothing after the words: they would end with '/'
          have hnil : rest = [] := by simpa using hr
          subst hnil
          have hlast := flat_getLast_ne ha
          rw [← List.append_nil (flat '/' a), ← hrest, htail] at hlast
          simp at hlast
      | cons x xs =>
          obtain rfl : rest = xs.reverse ++ [x] := by
            have := congrArg List.reverse hr
            simpa using this
          rw [htail, ← List.append_assoc] at hrest
          obtain ⟨heq, hx⟩ := List.append_inj' hrest rfl
          refine ⟨xs.reverse, heq, ?_⟩
          cases hxs : xs.reverse with
          | nil => exact atBoundary_nil '/'
          | cons y ys =>
              rw [hxs] at hb
              simpa [AtBoundary] using hb

/-- **A canonical path contains what its words cover.** -/
theorem comparePaths_contains_iff (hp : Canonical p) (hq : q ≠ []) :
    (comparePaths p q).contains = true ↔ Covers '/' (comps p) q := by
  have hw := comps_words p
  have hs : strip p = flat '/' (comps p) := by
    conv_lhs => rw [hp.2]
    exact strip_render hw
  rw [comparePaths_eq hp.ne_nil hq, ← covers_of_strip hw, ← covers_strip_iff, hs]
  split
  · simp_all [Comparison.contains]
  · split
    · simp_all [Comparison.contains]
    · split <;> simp_all [Comparison.contains]

/-- Between canonical paths, ending inside is being a strict prefix. -/
theorem endsInside_flat_iff {b : List CStr} (ha : ∀ c ∈ a, IsWord '/' c)
    (hb : ∀ c ∈ b, IsWord '/' c) :
    EndsInside (flat '/' a) (flat '/' b) ↔ a <+: b ∧ a ≠ b := by
  rw [← covers_flat_iff '/' ha hb]
  constructor
  · intro h
    refine ⟨?_, fun heq => by subst heq; exact Nat.lt_irrefl _ h.length_lt⟩
    obtain ⟨rest, hrest⟩ := h.1
    refine ⟨rest, hrest.symm, Or.inr ?_⟩
    have hend := h.2
    rw [← hrest, List.getElem?_append_right (Nat.le_refl _), Nat.sub_self] at hend
    rw [List.head?_eq_getElem?, hend]
  · rintro ⟨⟨rest, hrest, hbd⟩, hne⟩
    cases rest with
    | nil =>
        have : flat '/' a = flat '/' b := by simpa using hrest.symm
        have := congrArg (SepPath.comps '/') this
        rw [comps_flat '/' ha, comps_flat '/' hb] at this
        exact absurd this hne
    | cons x xs =>
        have hx : x = '/' := by simpa [AtBoundary] using hbd
        subst hx
        refine ⟨⟨_, hrest.symm⟩, ?_⟩
        rw [hrest, List.getElem?_append_right (Nat.le_refl _), Nat.sub_self]
        rfl

theorem flat_inj {b : List CStr} (ha : ∀ c ∈ a, IsWord '/' c) (hb : ∀ c ∈ b, IsWord '/' c) :
    flat '/' a = flat '/' b ↔ a = b := by
  refine ⟨fun h => ?_, fun h => h ▸ rfl⟩
  rw [← comps_flat '/' ha, h, comps_flat '/' hb]

/-- **Between canonical paths the comparison is the prefix order on words.** -/
theorem comparePaths_canonical (hp : Canonical p) (hq : Canonical q) :
    comparePaths p q =
      if comps p = comps q then .pathsAreEqual
      else if comps p <+: comps q then .path1IsPrefix
      else if comps q <+: comps p then .path2IsPrefix
      else .pathsAreNotComparable := by
  have hwp := comps_words p
  have hwq := comps_words q
  have hsp : strip p = flat '/' (comps p) := by
    conv_lhs => rw [hp.2]
    exact strip_render hwp
  have hsq : strip q = flat '/' (comps q) := by
    conv_lhs => rw [hq.2]
    exact strip_render hwq
  rw [comparePaths_eq hp.ne_nil hq.ne_nil, hsp, hsq]
  simp only [flat_inj hwp hwq, endsInside_flat_iff hwp hwq, endsInside_flat_iff hwq hwp]
  by_cases heq : comps p = comps q
  · simp [heq]
  · simp [heq, Ne.symm heq]

/-- Canonical paths compare as equal only when they are. -/
theorem comparePaths_equal_iff (hp : Canonical p) (hq : Canonical q) :
    comparePaths p q = .pathsAreEqual ↔ p = q := by
  rw [comparePaths_canonical hp hq, hp.eq_iff hq]
  by_cases heq : comps p = comps q
  · simp [heq]
  · rw [if_neg heq]
    refine ⟨fun h => ?_, fun h => absurd h heq⟩
    split at h
    · cases h
    · split at h <;> cases h

/-- Canonical paths that do not compare are neither equal nor one under the other. -/
theorem comparePaths_apart (hp : Canonical p) (hq : Canonical q)
    (h : comparePaths p q = .pathsAreNotComparable) :
    ¬ comps p <+: comps q ∧ ¬ comps q <+: comps p := by
  rw [comparePaths_canonical hp hq] at h
  split at h
  · cases h
  · split at h
    · cases h
    · split at h
      · cases h
      · exact ⟨by assumption, by assumption⟩

end PRoot
