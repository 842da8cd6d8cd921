import PRoot.BindingOrder
import PRoot.PathEdits
import PRoot.Tracee

/-!
# The binding lists in order

The invariant of the two lists in effect, and what it makes of a lookup.

* `ListInv`: canonical paths with their lengths, the guest list deepest first
  with distinct guest paths and "/" at its end, the host list the same bindings
  deepest first;
* `ListInv.lookup`: every absolute path has a deepest binding, and the lookup
  by guest path finds it;
* `ListInv.substitute_guest`: substitution reroots the path to the host side of
  that binding when the new length fits, and *returns the path as it was, with
  success*, when it does not.
-/

namespace PRoot

open SepPath

/-- What holds of the lists whether or not "/" is bound. -/
structure ListCore (bindings : Bindings) : Prop where
  /-- Paths are canonical and their lengths recorded. -/
  good : ∀ b ∈ bindings.guest, b.guest.Good ∧ b.host.Good
  /-- Whether a binding changes paths is recorded. -/
  settled : ∀ b ∈ bindings.guest, b.settle = b
  distinct : GuestsDistinct bindings.guest
  /-- A binding under another one comes before it. -/
  deepest : DeepestFirst (Binding.words .guest) bindings.guest
  perm : bindings.host.Perm bindings.guest
  hostDeepest : DeepestFirst (Binding.words .host) bindings.host
  addrs : AddrsDistinct bindings.guest

/-- **The invariant of the binding lists.** -/
structure ListInv (bindings : Bindings) : Prop extends ListCore bindings where
  /-- "/" is bound, by the last binding. -/
  root : ∃ init root, bindings.guest = init ++ [root] ∧ root.guest.path = slash

/-- The lists of a root alone. -/
theorem ListInv.ofRoot {root : Binding} (hguest : root.guest = .ofCStr slash)
    (hhost : root.host.Good) (hset : root.settle = root) : ListInv ⟨[], [root], [root]⟩ where
  good := by simpa [hguest] using ⟨Path.good_ofCStr canonical_slash, hhost⟩
  settled := by simpa using hset
  distinct := by simp [GuestsDistinct]
  deepest := List.pairwise_singleton _ _
  root := ⟨[], root, rfl, by rw [hguest]; rfl⟩
  perm := List.Perm.refl _
  hostDeepest := List.pairwise_singleton _ _
  addrs := by simp [AddrsDistinct]

/-- The deepest binding that contains a path. -/
def IsDeepest (bindings : Bindings) (path : CStr) (b : Binding) : Prop :=
  b ∈ bindings.guest ∧ (comparePaths b.guest.path path).contains = true ∧
    ∀ y ∈ bindings.guest, (comparePaths y.guest.path path).contains = true →
      y = b ∨ y.guest.path.length < b.guest.path.length

/-- The path a binding makes of a path it contains. -/
def Binding.reroot (b : Binding) (path : CStr) : CStr := PRoot.reroot b.host.path b.guest.path path

/-- The binding can make its path: it is symmetric, or the new length fits. -/
def Binding.Fits (b : Binding) (path : CStr) : Prop :=
  b.host.path = b.guest.path ∨ PRoot.Fits b.host.path b.guest.path path

instance (b : Binding) (path : CStr) : Decidable (b.Fits path) :=
  inferInstanceAs (Decidable (_ ∨ _))

theorem covers_eq {a : List CStr} {p : CStr} (h : Covers '/' a p) :
    p = flat '/' a ++ p.drop (flat '/' a).length := by
  obtain ⟨rest, rfl, -⟩ := h
  simp

/-- Rerooting to the same place changes nothing. -/
theorem reroot_self {old p : CStr} (hold : Canonical old) (hcov : Covers '/' (comps old) p)
    (hp : p ≠ []) : reroot old old p = p := by
  have hsame : trim old ++ (trim p).drop (trim old).length = trim p := by
    by_cases ho : old = slash
    · simp [trim, ho]
    · obtain ⟨hps, hdrop, -⟩ := drop_trim_of_covers hold hcov ho
      have htp : trim p = p := if_neg hps
      have hto : trim old = old := if_neg ho
      have hflat : old = flat '/' (comps old) := by
        rw [← hold.trim_eq, hto]
      rw [hdrop, hto, htp]
      conv_rhs => rw [covers_eq hcov, ← hflat]
  rw [reroot, hsame]
  by_cases hps : p = slash
  · simp [trim, hps]
  · simp [trim, hps, hp]

/-- Rerooting to another place never gives back the path. -/
theorem reroot_ne {new old p : CStr} (hnew : Canonical new) (hold : Canonical old)
    (hdiff : new ≠ old) (hcov : Covers '/' (comps old) p) (hp : p ≠ []) :
    reroot new old p ≠ p := by
  intro heq
  have hself := reroot_self hold hcov hp
  have htrim : trim new ≠ trim old := by
    intro h
    apply hdiff
    have hw : comps new = comps old := by
      rw [hnew.trim_eq, hold.trim_eq] at h
      exact (flat_inj (comps_words _) (comps_words _)).mp h
    exact (hnew.eq_iff hold).mpr hw
  -- both sides are cut from the same string, and "/" stands for nothing
  have hinj : ∀ r : CStr, (if r = [] then slash else r) = p → r = [] ∨ r = p := by
    intro r hr
    by_cases h : r = []
    · exact Or.inl h
    · exact Or.inr (by simpa [h] using hr)
  have h₁ := hinj _ heq
  have h₂ := hinj _ hself
  set rest := (trim p).drop (trim old).length with hrest
  rcases h₁ with h₁ | h₁
  · -- the new side is "/" and nothing is left: the path is "/"
    obtain ⟨hn, hr⟩ := List.append_eq_nil_iff.mp h₁
    have hps : p = slash := by
      rw [reroot, ← hrest, h₁] at heq
      simpa using heq.symm
    rcases h₂ with h₂ | h₂
    · exact htrim (hn.trans (List.append_eq_nil_iff.mp h₂).1.symm)
    · rw [hr, List.append_nil] at h₂
      have ho : old ≠ slash := fun h => by simp [trim, h, hps, slash] at h₂
      exact absurd hps (drop_trim_of_covers hold hcov ho).1
  · rcases h₂ with h₂ | h₂
    · obtain ⟨ho, hr⟩ := List.append_eq_nil_iff.mp h₂
      rw [hr, List.append_nil] at h₁
      have hps : p = slash := by
        rw [reroot, ← hrest, h₂] at hself
        simpa using hself.symm
      rw [hps, trim] at h₁
      split at h₁
      · cases h₁
      · rename_i hns
        exact hns h₁
    · exact htrim (List.append_cancel_right (h₁.trans h₂.symm))

namespace ListInv

variable {bindings : Bindings}

theorem guest_good (h : ListInv bindings) : ∀ b ∈ bindings.guest, b.guest.Good :=
  fun b hb => (h.good b hb).1

/-- Whether a binding changes paths. -/
theorem needSubstitution_iff (h : ListInv bindings) {b : Binding} (hb : b ∈ bindings.guest) :
    b.needSubstitution = true ↔ b.host.path ≠ b.guest.path := by
  obtain ⟨hg, hh⟩ := h.good b hb
  have hset : b.needSubstitution =
      decide (comparePaths b.host.path b.guest.path ≠ .pathsAreEqual) :=
    congrArg Binding.needSubstitution (h.settled b hb).symm
  rw [hset, decide_eq_true_iff, ne_eq, comparePaths_equal_iff hh.1 hg.1]

/-- **Every absolute path has a deepest binding, and the lookup finds it.** -/
theorem lookup (h : ListInv bindings) {p : CStr} (hp : p.head? = some '/') :
    ∃ b, getBinding bindings .guest p = some b ∧ IsDeepest bindings p b := by
  have hne : p ≠ [] := by
    rintro rfl
    cases hp
  rw [getBinding_guest h.guest_good]
  cases hfind : bindings.guest.find? (Binding.contains .guest p) with
  | none =>
      obtain ⟨init, root, hlist, hroot⟩ := h.root
      have hno := List.find?_eq_none.mp hfind root (by rw [hlist]; simp)
      exact absurd (contains_of_slash .guest hroot hp) hno
  | some b =>
      have hb := List.mem_of_find?_eq_some hfind
      have hcontains : b.contains .guest p = true := List.find?_some hfind
      refine ⟨b, rfl, hb, hcontains, fun y hy hyc => ?_⟩
      rcases find?_longest .guest h.guest_good hne h.deepest hfind hy hyc with heq | hlt
      · exact Or.inl (h.distinct.inj hy hb (congrArg Path.path heq))
      · exact Or.inr hlt

/-- The words of a binding that contains a path cover it. -/
theorem covers (h : ListInv bindings) {b : Binding} {p : CStr} (hb : b ∈ bindings.guest)
    (hp : p ≠ []) : (comparePaths b.guest.path p).contains = true ↔
      Covers '/' (comps b.guest.path) p :=
  comparePaths_contains_iff (h.guest_good b hb).1 hp

/-- **What substitution by guest path does.** -/
theorem substitute_guest (h : ListInv bindings) {p : CStr} (hp : p.head? = some '/') :
    ∃ b, IsDeepest bindings p b ∧ substituteBinding bindings .guest p =
      (if b.Fits p then b.reroot p else p, .ok b.needSubstitution) := by
  have hne : p ≠ [] := by
    rintro rfl
    cases hp
  obtain ⟨b, hget, hdeep⟩ := h.lookup hp
  refine ⟨b, hdeep, ?_⟩
  obtain ⟨hg, hh⟩ := h.good b hdeep.1
  have hcov := (h.covers hdeep.1 hne).mp hdeep.2.1
  have hiff := h.needSubstitution_iff hdeep.1
  unfold substituteBinding
  rw [hget]
  simp only
  cases hneed : b.needSubstitution with
  | false =>
      have hsym : b.host.path = b.guest.path := by
        by_contra hc
        exact Bool.false_ne_true (hneed ▸ hiff.mpr hc)
      have hfits : b.Fits p := Or.inl hsym
      rw [if_pos rfl, if_pos hfits, Binding.reroot, hsym, reroot_self hg.1 hcov hne]
  | true =>
      have hasym : b.host.path ≠ b.guest.path := hiff.mp hneed
      have hspec := substitutePathPrefix_spec hh.1 hg.1 hasym hne hcov
      rw [if_neg (by simp)]
      simp only [Binding.ref, Binding.reverseRef, hg.2, hh.2, hspec]
      have hfits : b.Fits p ↔ PRoot.Fits b.host.path b.guest.path p :=
        ⟨fun hf => hf.resolve_left hasym, Or.inr⟩
      by_cases hf : PRoot.Fits b.host.path b.guest.path p
      · rw [if_pos hf, if_pos (hfits.mpr hf)]
        rfl
      · rw [if_neg hf, if_neg (fun hc => hf (hfits.mp hc))]

/-- What does not fit comes out as it went in, which is not where it belongs. -/
theorem reroot_ne_of_misfit (h : ListInv bindings) {b : Binding} {p : CStr}
    (hb : IsDeepest bindings p b) (hp : p ≠ []) (hfits : ¬ b.Fits p) : b.reroot p ≠ p := by
  obtain ⟨hg, hh⟩ := h.good b hb.1
  exact reroot_ne hh.1 hg.1 (fun hc => hfits (Or.inl hc)) ((h.covers hb.1 hp).mp hb.2.1) hp

end ListInv

/-- A binding of "/" is the last one, because it contains all others. -/
theorem ListCore.withRoot {bindings : Bindings} (h : ListCore bindings) {root : Binding}
    (hmem : root ∈ bindings.guest) (hroot : root.guest.path = slash) : ListInv bindings where
  toListCore := h
  root := by
    obtain ⟨init, tail, hsplit⟩ := List.append_of_mem hmem
    cases tail with
    | nil => exact ⟨init, root, hsplit, hroot⟩
    | cons b bs =>
        have hpair := h.deepest
        have hdistinct := h.distinct
        rw [hsplit] at hpair hdistinct
        have hwords : root.words .guest = [] := by
          show comps root.guest.path = []
          rw [hroot]
          rfl
        have hbefore := (List.pairwise_cons.mp (List.pairwise_append.mp hpair).2.1).1 b
          List.mem_cons_self
        have hbwords : root.words .guest = b.words .guest := hbefore (by simp [hwords])
        have hb : b ∈ bindings.guest := by rw [hsplit]; simp
        have hpath : root.guest.path = b.guest.path :=
          ((h.good root hmem).1.1.eq_iff (h.good b hb).1.1).mpr hbwords
        -- two bindings of "/"
        rw [GuestsDistinct, List.map_append, List.map_cons, List.map_cons] at hdistinct
        have hnot := (List.nodup_cons.mp (List.nodup_append.mp hdistinct).2.1).1
        exact absurd (by rw [hpath]; exact List.mem_cons_self) hnot

/-! ## Roots alone -/

/-- A root directory of many short names and a last one. -/
def deepRoot (n : Nat) (last : CStr) : CStr := render (List.replicate n ['h'] ++ [last])

theorem deepRoot_canonical (n : Nat) {last : CStr} (hlast : IsName last) :
    Canonical (deepRoot n last) := by
  refine canonical_render fun c hc => ?_
  rcases List.mem_append.mp hc with hc | hc
  · rw [List.eq_of_mem_replicate hc]
    decide
  · rwa [List.mem_singleton.mp hc]

theorem deepRoot_length (n : Nat) (last : CStr) :
    (deepRoot n last).length = 2 * n + (last.length + 1) := by
  have hflat : ∀ m, (flat '/' (List.replicate m ['h'])).length = 2 * m := by
    intro m
    induction m with
    | zero => rfl
    | succ m ih =>
        rw [List.replicate_succ, flat_cons, List.length_cons, List.length_append, ih]
        simp
        omega
  rw [deepRoot, render, SepPath.render_of_ne_nil '/' (by simp), flat_append, List.length_append,
    hflat]
  simp

/-- The binding of "/" to a host directory. -/
def rootBinding (host : CStr) : Binding := ⟨0, .ofCStr host, .ofCStr slash, decide (host ≠ slash)⟩

/-- A tracee with nothing but a root. -/
def rootedSys (host : CStr) : Sys Unit :=
  .lone ⟨[], [rootBinding host], [rootBinding host]⟩ 1

theorem rootedSys_inv {host : CStr} (h : Canonical host) : ListInv (rootedSys host).bindings := by
  refine ListInv.ofRoot rfl (Path.good_ofCStr h) ?_
  have hneed : decide (comparePaths host slash ≠ .pathsAreEqual) = decide (host ≠ slash) := by
    rw [decide_eq_decide, ne_eq, comparePaths_equal_iff h canonical_slash]
  simp only [Binding.settle, rootBinding, Path.ofCStr, Binding.mk.injEq, true_and]
  exact hneed

end PRoot
