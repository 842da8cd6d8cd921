import PRoot.Mounts
import PRoot.Translate

/-!
# The paths of mounts

The paths emulated mounts put into bindings: what `chop_finality` leaves of a
resolved path, what is left of a path under the new root of `pivot_root`, and
where `put_old` shows the previous root.

* `Marked.chop`: chopping a resolved path is right, unless the path ends in a
  name whose last character is a '.';
* `canonical_drop`: what is left of a canonical path behind another one is
  canonical;
* `putOldAfter_canonical`: `put_old` seen from the new root is canonical when no
  final marker is left on it;
* `substituteBinding_marked`: translation keeps a final marker in place.
-/

namespace PRoot

open SepPath

/-! ## Final markers -/

/-- `chop_finality` is right about the end of a path: a final '.' stands for the
directory itself. -/
def ChopsRight (p : CStr) : Prop := p.getLast? = some '.' → ['/', '.'] <:+ p

instance (p : CStr) : Decidable (ChopsRight p) := inferInstanceAs (Decidable (_ → _))

/-- A path without a final marker. -/
def Unmarked (p : CStr) : Prop :=
  p = slash ∨ (p.getLast? ≠ some '/' ∧ ¬ ['/', '.'] <:+ p)

instance (p : CStr) : Decidable (Unmarked p) := inferInstanceAs (Decidable (_ ∨ _))

theorem withSlash_last {g : CStr} : (withSlash g).getLast? = some '/' := by
  unfold withSlash
  split
  · assumption
  · simp

theorem withDot_suffix {g : CStr} : ['/', '.'] <:+ withDot g := by
  obtain ⟨init, hinit⟩ := List.getLast?_eq_some_iff.mp (withSlash_last (g := g))
  refine ⟨init, ?_⟩
  rw [withDot, hinit]
  simp

/-- Two ways to write a path as a stretch and a last word. -/
theorem last_word_unique {u v c d : CStr} (hc : '/' ∉ c) (hd : '/' ∉ d)
    (h : u ++ '/' :: c = v ++ '/' :: d) : c = d := by
  have htake : ∀ {w e : CStr}, '/' ∉ e → (w ++ '/' :: e).rtakeWhile (· ≠ '/') = e := by
    intro w e he
    rw [List.rtakeWhile, List.reverse_append, List.reverse_cons, List.append_assoc]
    have hall : ∀ x ∈ e.reverse, (decide (x ≠ '/')) = true := by
      intro x hx
      have hmem : x ∈ e := List.mem_reverse.mp hx
      exact decide_eq_true fun heq => he (heq ▸ hmem)
    rw [List.takeWhile_append_of_pos hall]
    simp
  rw [← htake hc, h, htake hd]

/-- A canonical path that is not "/", with its last name. -/
theorem Canonical.last_name {g : CStr} (hg : Canonical g) (hne : g ≠ slash) :
    ∃ init c, comps g = init ++ [c] ∧ g = flat '/' init ++ '/' :: c ∧ IsName c := by
  have htrim := hg.trim_eq
  rw [trim, if_neg hne] at htrim
  rcases List.eq_nil_or_concat' (comps g) with hnil | ⟨init, c, hlast⟩
  · rw [hnil] at htrim
    exact absurd htrim hg.ne_nil
  · refine ⟨init, c, hlast, ?_, hg.1 c (by rw [hlast]; simp)⟩
    rw [hlast] at htrim
    simpa using htrim

/-- A canonical path has no final "/.". -/
theorem Canonical.no_dot {g : CStr} (hg : Canonical g) : ¬ ['/', '.'] <:+ g := by
  rintro ⟨u, hu⟩
  have hne : g ≠ slash := by
    rintro rfl
    have := congrArg List.length hu
    simp [slash] at this
  obtain ⟨init, c, -, heq, hname⟩ := hg.last_name hne
  rw [heq] at hu
  exact hname.2.1 (last_word_unique hname.isWord.2 (by decide) hu.symm)

/-- A resolved path without a marker is canonical. -/
theorem Marked.canonical {p : CStr} (h : Marked p) (hp : Unmarked p) : Canonical p := by
  obtain ⟨g, hg, rfl | rfl | rfl⟩ := h
  · exact hg
  · rcases hp with hp | ⟨hlast, -⟩
    · rw [hp]
      exact canonical_slash
    · exact absurd withSlash_last hlast
  · rcases hp with hp | ⟨-, hdot⟩
    · rw [hp]
      exact canonical_slash
    · exact absurd withDot_suffix hdot

/-- **Chopping a resolved path** leaves a canonical one, unless it ends in a name
whose last character is a '.'. -/
theorem Marked.chop {p : CStr} (h : Marked p) (hp : ChopsRight p) : Canonical (chopFinality p) := by
  obtain ⟨g, hg, rfl | rfl | rfl⟩ := h
  · have hlast : p.getLast? ≠ some '.' := fun hdot => hg.no_dot (hp hdot)
    rw [chopFinality_plain hlast hg.last_ne]
    exact hg
  · rw [chopFinality_withSlash hg]
    exact hg
  · rw [chopFinality_withDot hg]
    exact hg

/-- Translation keeps a final marker in place. -/
theorem substituteBinding_marked {bindings : Bindings} (h : ListInv bindings) {p : CStr}
    (hp : Marked p) : Marked (substituteBinding bindings .guest p).1 := by
  obtain ⟨g, hg, hor⟩ := hp
  -- a canonical path with a marker that is not "/" itself
  have hmarker : ∀ marker, (marker = ['/'] ∨ marker = ['/', '.']) →
      p = flat '/' (comps g) ++ marker → p ≠ slash →
      Marked (substituteBinding bindings .guest p).1 := by
    intro marker hm heq hne
    have hself : ∀ {q : CStr}, Canonical q → Marked (flat '/' (comps q) ++ marker) := by
      intro q hq
      refine ⟨q, hq, Or.inr ?_⟩
      rcases hm with rfl | rfl
      · exact Or.inl hq.withSlash_eq.symm
      · exact Or.inr hq.withDot_eq.symm
    have hhead : p.head? = some '/' := by
      rw [heq]
      cases hcs : comps g with
      | nil => rcases hm with rfl | rfl <;> rfl
      | cons c cs => rfl
    have hnil : p ≠ [] := by
      rintro rfl
      cases hhead
    obtain ⟨b, hb, hsub⟩ := h.substitute_guest hhead
    rw [hsub]
    simp only
    split
    · obtain ⟨hgood, hhost⟩ := h.good b hb.1
      have hcov := (h.covers hb.1 hnil).mp hb.2.1
      rw [heq] at hcov
      obtain ⟨t, ht⟩ := (covers_marker_iff hgood.1.1 hg.1 hm).mp hcov
      have hnames := reroot_names hhost.1 hg ht.symm
      have hcomps := comps_render_names hnames
      rw [Binding.reroot, heq, reroot_marker hhost.1 hgood.1 ht.symm hm (heq ▸ hne), ← hcomps]
      exact hself (canonical_render hnames)
    · rw [heq]
      exact hself hg
  by_cases hcanon : Canonical p
  · exact ⟨_, substituteBinding_canonical h hcanon, Or.inl rfl⟩
  · have hne : p ≠ slash := fun heq => hcanon (heq ▸ canonical_slash)
    rcases hor with rfl | heq | heq
    · exact absurd hg hcanon
    · exact hmarker _ (Or.inl rfl) (heq.trans hg.withSlash_eq) hne
    · exact hmarker _ (Or.inr rfl) (heq.trans hg.withDot_eq) hne

/-! ## Paths under a new root -/

/-- No canonical path begins with two separators. -/
theorem Canonical.second_ne {g : CStr} (hg : Canonical g) : g[1]? ≠ some '/' := by
  intro hsep
  have htrim := hg.trim_eq
  by_cases hs : g = slash
  · rw [hs] at hsep
    cases hsep
  · rw [trim, if_neg hs] at htrim
    cases hcs : comps g with
    | nil =>
        rw [hcs] at htrim
        exact hg.ne_nil htrim
    | cons c cs =>
        have hc : IsName c := hg.1 c (by rw [hcs]; simp)
        rw [hcs, flat_cons] at htrim
        rw [htrim] at hsep
        cases c with
        | nil => exact hc.1.1 rfl
        | cons x xs =>
            obtain rfl : x = '/' := by simpa using hsep
            exact hc.1.2 List.mem_cons_self

/-- **What is left of a canonical path behind another one.** -/
theorem canonical_drop {g u : CStr} (hg : Canonical g) (hu : Canonical u) (hne : u ≠ slash)
    (htake : g.take u.length = u) (hsep : g[u.length]? = some '/') :
    Canonical (g.drop u.length) ∧ comps g = comps u ++ comps (g.drop u.length) := by
  have hlen : u.length < g.length := by
    by_contra hle
    rw [List.getElem?_eq_none (by omega)] at hsep
    cases hsep
  have hgs : g ≠ slash := by
    rintro rfl
    exact hu.ne_nil (by simpa [slash] using hlen)
  have hflat : ∀ {q : CStr}, Canonical q → q ≠ slash → q = flat '/' (comps q) := by
    intro q hq hqs
    have := hq.trim_eq
    rwa [trim, if_neg hqs] at this
  have hcov : Covers '/' (comps u) g := by
    refine ⟨g.drop u.length, ?_, Or.inr ?_⟩
    · rw [← hflat hu hne]
      conv_lhs => rw [← List.take_append_drop u.length g, htake]
    · rw [List.head?_drop]
      exact hsep
  rw [hflat hg hgs] at hcov
  obtain ⟨t, ht⟩ := (covers_flat_iff '/' (comps_words u) (comps_words g)).mp hcov
  have hsplit : g = u ++ flat '/' t := by
    calc g = flat '/' (comps g) := hflat hg hgs
      _ = flat '/' (comps u) ++ flat '/' t := by rw [← ht, flat_append]
      _ = u ++ flat '/' t := by rw [← hflat hu hne]
  have hdrop : g.drop u.length = flat '/' t := by
    conv_lhs => rw [hsplit, List.drop_left]
  have hnames : ∀ c ∈ t, IsName c := fun c hc => hg.1 c (by rw [← ht]; simp [hc])
  have htne : t ≠ [] := by
    rintro rfl
    have hnil : g.drop u.length = [] := hdrop
    rw [List.drop_eq_nil_iff] at hnil
    omega
  have hrender : g.drop u.length = render t := by
    rw [hdrop, render, SepPath.render_of_ne_nil '/' htne]
  rw [hrender]
  exact ⟨canonical_render hnames, by rw [comps_render_names hnames, ht]⟩

/-- `put_old` seen from the new root. -/
theorem putOldAfter_canonical {new old after : CStr} (hnew : Canonical new) (hold : Canonical old)
    (h : putOldAfter new old = some after) : Canonical after ∧ after ≠ slash := by
  unfold putOldAfter at h
  simp only at h
  split at h
  · rename_i hunder
    have hcut : Canonical (old.drop (if new.length = 1 then 0 else new.length)) := by
      by_cases hs : new = slash
      · rw [if_pos (hnew.length_eq_one.mpr hs)]
        exact hold
      · rw [if_neg (mt hnew.length_eq_one.mp hs)]
        exact (canonical_drop hold hnew hs hunder.2.1 (hunder.2.2.resolve_right hs)).1
    obtain ⟨⟨-, hlong⟩, heq⟩ := Option.ite_none_right_eq_some.mp h
    obtain rfl := Option.some.inj heq
    refine ⟨hcut, fun hs => hlong ?_⟩
    rw [hs]
    rfl
  · cases h

/-- A path moved under another one. -/
theorem canonical_append {u v : CStr} (hu : Canonical u) (hus : u ≠ slash) (hv : Canonical v)
    (hvs : v ≠ slash) : Canonical (u ++ v) ∧ u ++ v ≠ slash := by
  have htu := hu.trim_eq
  have htv := hv.trim_eq
  rw [trim, if_neg hus] at htu
  rw [trim, if_neg hvs] at htv
  have hnames : ∀ c ∈ comps u ++ comps v, IsName c := by
    intro c hc
    rcases List.mem_append.mp hc with hc | hc
    · exact hu.1 c hc
    · exact hv.1 c hc
  have hne : comps u ++ comps v ≠ [] := by
    intro hnil
    rw [(List.append_eq_nil_iff.mp hnil).1] at htu
    exact hu.ne_nil htu
  have heq : u ++ v = render (comps u ++ comps v) := by
    conv_lhs => rw [htu, htv]
    rw [← flat_append, render, SepPath.render_of_ne_nil '/' hne]
  rw [heq]
  refine ⟨canonical_render hnames, fun hslash => hne ?_⟩
  exact (render_eq_slash_iff fun c hc => (hnames c hc).isWord).mp hslash

end PRoot
