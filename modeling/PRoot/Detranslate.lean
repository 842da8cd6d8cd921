import PRoot.ListInv
import PRoot.Proc

/-!
# Detranslation undoes translation

A translated path is looked up by host path to find the guest path again.  The
two directions use lists in different orders, and paths of the root are looked
up by no binding at all.

* `ListInv.getRoot`: the root is the host side of the binding of "/";
* `ListInv.lookup_host`: a host path under a binding apart from all others, and
  not under the root, is looked up to that binding;
* `detranslate_root`, `detranslate_bound`: the two ways back;
* `detranslate_translate`: translation followed by detranslation gives the guest
  path back, except for "/" under a root whose path is as long as a path can be.
-/

namespace PRoot

open SepPath

variable {W : Type}

/-- No host path of a binding is equal to another's or under it. -/
def HostsApart (bindings : Bindings) : Prop :=
  ∀ a ∈ bindings.guest, ∀ b ∈ bindings.guest, a ≠ b →
    comparePaths a.host.path b.host.path = .pathsAreNotComparable

namespace ListInv

variable {bindings : Bindings}

theorem host_good (h : ListInv bindings) : ∀ b ∈ bindings.host, b.host.Good :=
  fun b hb => (h.good b (h.perm.mem_iff.mp hb)).2

/-- **The root is the host side of the binding of "/".** -/
theorem getRoot (h : ListInv bindings) :
    ∃ root ∈ bindings.guest, root.guest.path = slash ∧
      PRoot.getRoot bindings = root.host.path := by
  obtain ⟨init, root, hlist, hroot⟩ := h.root
  refine ⟨root, by rw [hlist]; simp, hroot, ?_⟩
  rw [PRoot.getRoot, hlist, List.getLast?_concat]

/-- Bindings that are apart do not contain one host path. -/
theorem host_unique (h : ListInv bindings) (hapart : HostsApart bindings) {a b : Binding}
    {q : CStr} (ha : a ∈ bindings.guest) (hb : b ∈ bindings.guest)
    (haq : Covers '/' (comps a.host.path) q) (hbq : Covers '/' (comps b.host.path) q) :
    a = b := by
  by_contra hne
  obtain ⟨hab, hba⟩ :=
    comparePaths_apart (h.good a ha).2.1 (h.good b hb).2.1 (hapart a ha b hb hne)
  rcases Covers.chain '/' (comps_words _) (comps_words _) haq hbq with hpre | hpre
  · exact hab hpre
  · exact hba hpre

/-- Whether a host path is one of the root, and so hidden from the lookup. -/
theorem hiddenHost_iff (h : ListInv bindings) {root : Binding} (hroot : root ∈ bindings.guest)
    (hget : PRoot.getRoot bindings = root.host.path) {q : CStr} (hq : q ≠ []) :
    hiddenHost bindings q = true ↔
      root.host.path ≠ slash ∧ Covers '/' (comps root.host.path) q := by
  have hgood := (h.good root hroot).2.1
  rw [hiddenHost, Bool.and_eq_true, decide_eq_true_iff, belongsToGuestfs, hget, ne_eq,
    comparePaths_equal_iff hgood canonical_slash, comparePaths_contains_iff hgood hq]

/-- **The lookup by host path**, for bindings that are apart. -/
theorem lookup_host (h : ListInv bindings) (hapart : HostsApart bindings) {b : Binding} {q : CStr}
    (hb : b ∈ bindings.guest) (hq : q ≠ []) (hbq : Covers '/' (comps b.host.path) q)
    (hvisible : hiddenHost bindings q = false) : getBinding bindings .host q = some b := by
  rw [getBinding_eq .host h.host_good, if_neg (by simp [hvisible])]
  show bindings.host.find? _ = _
  cases hfind : bindings.host.find? (Binding.contains .host q) with
  | none =>
      have hno := List.find?_eq_none.mp hfind b (h.perm.mem_iff.mpr hb)
      exact absurd ((Binding.contains_iff .host (h.good b hb).2 hq).mpr hbq) hno
  | some c =>
      have hc := h.perm.mem_iff.mp (List.mem_of_find?_eq_some hfind)
      have hcq := (Binding.contains_iff .host (h.good c hc).2 hq).mp
        (List.find?_some hfind)
      rw [h.host_unique hapart hc hb hcq hbq]

end ListInv

/-- Without a referrer the whole of `detranslate_path` is its two last parts. -/
theorem detranslatePath_absolute {sys : Sys W} {q : CStr} (hlen : q.length < pathMax)
    (hq : q.head? = some '/') :
    detranslatePath sys q none = detranslateBinding sys.bindings q true true := by
  rw [detranslatePath, if_neg (by omega), if_neg (by simp [hq])]

/-- A host path of the root loses the root. -/
theorem detranslate_root {bindings : Bindings} (hinv : ListInv bindings) {root : Binding}
    (hroot : root ∈ bindings.guest) (hget : getRoot bindings = root.host.path)
    (hne : root.host.path ≠ slash) {t : List CStr} (ht : ∀ c ∈ t, IsName c) :
    detranslateBinding bindings (render (comps root.host.path ++ t)) true true =
      .ok (render t, (render t).length + 1) := by
  have hgood := (hinv.good root hroot).2.1
  have hnames : ∀ c ∈ comps root.host.path ++ t, IsName c := by
    intro c hc
    rcases List.mem_append.mp hc with hc | hc
    · exact hgood.1 c hc
    · exact ht c hc
  have hq := canonical_render hnames
  have hwords := comps_render_names hnames
  set q := render (comps root.host.path ++ t) with hqdef
  have hcov : Covers '/' (comps root.host.path) q := by
    rw [hqdef]
    exact (covers_render_iff '/' (comps_words _) (fun c hc => (hnames c hc).isWord)).mpr
      (List.prefix_append _ _)
  have hhidden : hiddenHost bindings q = true :=
    (hinv.hiddenHost_iff hroot hget hq.ne_nil).mpr ⟨hne, hcov⟩
  have hnone : getBinding bindings .host q = none := by
    rw [getBinding_eq .host hinv.host_good, if_pos ⟨rfl, hhidden⟩]
  have hsub : substituteBinding bindings .host q = (q, .error .ENOENT) := by
    rw [substituteBinding, hnone]
  rw [detranslateBinding, if_pos rfl, hsub]
  show detranslateRoot bindings q true = _
  have hone : (getRoot bindings).length ≠ 1 := by
    rw [hget]
    exact fun hc => hne (hgood.length_eq_one.mp hc)
  rw [detranslateRoot, hget, comparePaths_canonical hgood hq, hwords]
  rcases List.eq_nil_or_concat' t with rfl | ⟨init, c, rfl⟩
  · rw [if_pos (List.append_nil _).symm]
    rfl
  · have hdiff : comps root.host.path ≠ comps root.host.path ++ (init ++ [c]) := by simp
    have hpre : comps root.host.path <+: comps root.host.path ++ (init ++ [c]) :=
      List.prefix_append _ _
    rw [if_neg hdiff, if_pos hpre]
    have hflat : root.host.path = flat '/' (comps root.host.path) := by
      have := hgood.trim_eq
      rwa [trim, if_neg hne] at this
    have hdrop : q.drop root.host.path.length = render (init ++ [c]) := by
      have hqflat : q = flat '/' (comps root.host.path) ++ flat '/' (init ++ [c]) := by
        rw [hqdef, render, SepPath.render_of_ne_nil '/' (by simp), flat_append]
      rw [hqflat, ← hflat, List.drop_left, render, SepPath.render_of_ne_nil '/' (by simp)]
    have hlen : q.length - root.host.path.length = (render (init ++ [c])).length := by
      rw [← hdrop, List.length_drop]
    rw [hget] at hone
    simp only [if_neg hone, hdrop, hlen, List.take_length]

/-- A host path of a binding apart from the root is moved back to the guest. -/
theorem detranslate_bound {bindings : Bindings} (hinv : ListInv bindings)
    (hapart : HostsApart bindings) {root b : Binding} (hroot : root ∈ bindings.guest)
    (hget : getRoot bindings = root.host.path)
    (hb : b ∈ bindings.guest) (hbr : b ≠ root) (hbhost : b.host.path ≠ slash)
    (hbguest : b.guest.path ≠ slash) {t : List CStr} (ht : ∀ c ∈ t, IsName c)
    (hlen : (render (comps b.guest.path ++ t)).length < pathMax) :
    ∃ n, detranslateBinding bindings (render (comps b.host.path ++ t)) true true =
        .ok (render (comps b.guest.path ++ t), n) ∧
      (n ≠ 0 → n = (render (comps b.guest.path ++ t)).length + 1) := by
  obtain ⟨hg, hh⟩ := hinv.good b hb
  have hnames : ∀ c ∈ comps b.host.path ++ t, IsName c := by
    intro c hc
    rcases List.mem_append.mp hc with hc | hc
    · exact hh.1.1 c hc
    · exact ht c hc
  have hq := canonical_render hnames
  have hwords := comps_render_names hnames
  set q := render (comps b.host.path ++ t) with hqdef
  have hcov : Covers '/' (comps b.host.path) q := by
    rw [hqdef]
    exact (covers_render_iff '/' (comps_words _) (fun c hc => (hnames c hc).isWord)).mpr
      (List.prefix_append _ _)
  have hvisible : hiddenHost bindings q = false := by
    rw [Bool.eq_false_iff]
    intro hhidden
    obtain ⟨-, hrootq⟩ := (hinv.hiddenHost_iff hroot hget hq.ne_nil).mp hhidden
    exact hbr (hinv.host_unique hapart hb hroot hcov hrootq)
  have hfind := hinv.lookup_host hapart hb hq.ne_nil hcov hvisible
  have hsame : reroot b.guest.path b.host.path q = render (comps b.guest.path ++ t) :=
    reroot_render hg.1 hh.1 hq hwords
  have hiff := hinv.needSubstitution_iff hb
  cases hneed : b.needSubstitution with
  | false =>
      have hsym : b.host.path = b.guest.path := by
        by_contra hc
        exact Bool.false_ne_true (hneed ▸ hiff.mpr hc)
      have hsub : substituteBinding bindings .host q = (q, .ok false) := by
        rw [substituteBinding, hfind]
        simp only
        rw [if_pos hneed]
      rw [hsym] at hqdef
      refine ⟨0, ?_, by simp⟩
      rw [detranslateBinding, if_pos rfl, hsub, ← hqdef]
  | true =>
      have hasym : b.host.path ≠ b.guest.path := hiff.mp hneed
      have hspec := substitutePathPrefix_spec hg.1 hh.1 (Ne.symm hasym) hq.ne_nil hcov
      have hfits : Fits b.guest.path b.host.path q := by
        obtain ⟨-, hdrop, hle⟩ := drop_trim_of_covers hh.1 hcov hbhost
        have htrimg : trim b.guest.path = b.guest.path := if_neg hbguest
        right
        rw [if_neg hbhost]
        rw [← hsame, reroot, htrimg, hdrop] at hlen
        have hnil : b.guest.path ++ q.drop b.host.path.length ≠ [] := by
          simp [hg.1.ne_nil]
        rw [if_neg hnil, List.length_append, List.length_drop] at hlen
        omega
      rw [if_pos hfits, hsame] at hspec
      have hsub : substituteBinding bindings .host q =
          (render (comps b.guest.path ++ t), .ok true) := by
        rw [substituteBinding, hfind]
        simp only [Binding.ref, Binding.reverseRef, hg.2, hh.2, hspec]
        rw [if_neg (by simp [hneed])]
      refine ⟨(render (comps b.guest.path ++ t)).length + 1, ?_, fun _ => rfl⟩
      rw [detranslateBinding, if_pos rfl, hsub]

/-- Which paths of a fitting translation pass the length check. -/
theorem fits_iff_of_short {b : Binding} {p : CStr} (hg : Canonical b.guest.path)
    (hh : Canonical b.host.path) (hcov : Covers '/' (comps b.guest.path) p)
    (hhost : b.host.path ≠ slash) (hshort : (b.reroot p).length < pathMax) :
    b.Fits p ↔ ¬ (p = slash ∧ b.host.path.length = pathMax - 1) := by
  have htrim : trim b.host.path = b.host.path := if_neg hhost
  have hnil : ∀ r, b.host.path ++ r ≠ [] := fun r => by simp [hh.ne_nil]
  rw [Binding.reroot, reroot, htrim, if_neg (hnil _), List.length_append] at hshort
  by_cases ho : b.guest.path = slash
  · have hiff : b.Fits p ↔ b.host.path.length + p.length < pathMax := by
      rw [Binding.Fits, Fits, if_pos ho, ho]
      simp [hhost]
    rw [hiff]
    by_cases hps : p = slash
    · rw [hps] at hshort ⊢
      simp only [slash, List.length_singleton, true_and]
      simp [trim, slash] at hshort
      omega
    · have htp : trim p = p := if_neg hps
      rw [ho, htp] at hshort
      have hdrop : p.drop (trim slash).length = p := rfl
      rw [hdrop] at hshort
      simp [hps, hshort]
  · obtain ⟨hps, hdrop, -⟩ := drop_trim_of_covers hg hcov ho
    rw [hdrop, List.length_drop] at hshort
    refine iff_of_true (Or.inr (Or.inr ?_)) (fun hc => hps hc.1)
    rw [if_neg ho]
    omega

/-- "/" does not come back from a misfit: nothing contains it on the host. -/
theorem detranslate_slash_misfit {sys : Sys W} (hinv : ListInv sys.bindings)
    (hhosts : ∀ b ∈ sys.bindings.guest, b.host.path ≠ slash) :
    detranslatePath sys slash none = .error .EPERM := by
  obtain ⟨root, hroot, -, hget⟩ := hinv.getRoot
  have hno : ∀ b ∈ sys.bindings.guest, ¬ Covers '/' (comps b.host.path) slash := by
    intro b hb hcov
    have hgood := (hinv.good b hb).2.1
    have hpre : comps b.host.path <+: [] :=
      (covers_render_iff '/' (comps_words _) (by simp)).mp hcov
    exact hhosts b hb ((hgood.eq_iff canonical_slash).mpr (List.prefix_nil.mp hpre))
  have hnone : getBinding sys.bindings .host slash = none := by
    rw [getBinding_eq .host hinv.host_good]
    split
    · rfl
    · refine List.find?_eq_none.mpr fun b hb hc => ?_
      have hb' := hinv.perm.mem_iff.mp hb
      exact hno b hb' ((Binding.contains_iff .host (hinv.good b hb').2 (by simp [slash])).mp hc)
  have hsub : substituteBinding sys.bindings .host slash = (slash, .error .ENOENT) := by
    rw [substituteBinding, hnone]
  have hcmp : (comparePaths (getRoot sys.bindings) slash).contains = false := by
    rw [Bool.eq_false_iff, hget]
    intro hc
    exact hno root hroot ((comparePaths_contains_iff (hinv.good root hroot).2.1 (by simp [slash])).mp hc)
  rw [detranslatePath_absolute (by decide) rfl, detranslateBinding, if_pos rfl, hsub]
  show detranslateRoot _ _ _ = _
  rw [detranslateRoot]
  split
  · rename_i h
    rw [h] at hcmp
    cases hcmp
  · rename_i h
    rw [h] at hcmp
    cases hcmp
  · rfl

/-- **Detranslation undoes translation.**  Let the bindings be apart on the host
and the root not "/".  A canonical guest path whose translated form fits comes
back from there, with its size as the length reported for a change, unless it
is "/" and the path of the root takes all the room there is. -/
theorem detranslate_translate {sys : Sys W} {p : CStr} {b : Binding}
    (hinv : ListInv sys.bindings) (hroot : getRoot sys.bindings ≠ slash)
    (hapart : HostsApart sys.bindings) (hp : Canonical p) (hlen : p.length < pathMax)
    (hb : IsDeepest sys.bindings p b) (hshort : (b.reroot p).length < pathMax) :
    (∃ n, detranslatePath sys (substituteBinding sys.bindings .guest p).1 none = .ok (p, n) ∧
      (n ≠ 0 → n = p.length + 1)) ↔ ¬ (p = slash ∧ b.host.path.length = pathMax - 1) := by
  obtain ⟨root, hrmem, hrguest, hget⟩ := hinv.getRoot
  rw [hget] at hroot
  obtain ⟨hg, hh⟩ := hinv.good b hb.1
  have hrgood := (hinv.good root hrmem).2.1
  have hcov := (hinv.covers hb.1 hp.ne_nil).mp hb.2.1
  have hhosts : ∀ y ∈ sys.bindings.guest, y.host.path ≠ slash := by
    intro y hy hs
    by_cases hyr : y = root
    · exact hroot (hyr ▸ hs)
    · refine (comparePaths_apart (hinv.good y hy).2.1 hrgood (hapart y hy root hrmem hyr)).1 ?_
      rw [hs]
      exact List.nil_prefix
  have hhost := hhosts b hb.1
  obtain ⟨b', hb', hsub⟩ := hinv.substitute_guest hp.head
  have hbb : b' = b := by
    rcases hb.2.2 b' hb'.1 hb'.2.1 with h | h
    · exact h
    · rcases hb'.2.2 b hb.1 hb.2.1 with h' | h'
      · exact h'.symm
      · omega
  rw [hbb] at hsub
  rw [hsub, ← fits_iff_of_short hg.1 hh.1 hcov hhost hshort]
  by_cases hfits : b.Fits p
  · rw [if_pos hfits]
    refine iff_of_true ?_ hfits
    -- the words behind the binding travel unchanged
    have hpre : comps b.guest.path <+: comps p := by
      have hcov' := hcov
      rw [hp.2] at hcov'
      exact (covers_render_iff '/' (comps_words _) (comps_words _)).mp hcov'
    obtain ⟨t, ht⟩ := hpre
    have htnames : ∀ c ∈ t, IsName c := fun c hc => hp.1 c (by rw [← ht]; simp [hc])
    have hq : b.reroot p = render (comps b.host.path ++ t) := reroot_render hh.1 hg.1 hp ht.symm
    have hpt : p = render (comps b.guest.path ++ t) := by rw [ht, ← hp.2]
    rw [detranslatePath_absolute hshort (by rw [hq]; exact render_head _), hq]
    by_cases hbr : b = root
    · have hroot0 : comps b.guest.path = [] := by rw [hbr, hrguest]; rfl
      rw [hroot0, List.nil_append] at hpt
      refine ⟨p.length + 1, ?_, fun _ => rfl⟩
      rw [hbr, detranslate_root hinv hrmem hget hroot htnames, ← hpt]
    · have hbguest : b.guest.path ≠ slash := fun hc =>
        hbr (hinv.distinct.inj hb.1 hrmem (hc.trans hrguest.symm))
      rw [hpt] at hlen ⊢
      exact detranslate_bound hinv hapart hrmem hget hb.1 hbr hhost hbguest htnames hlen
  · rw [if_neg hfits]
    refine iff_of_false ?_ hfits
    rintro ⟨n, hn, -⟩
    -- only "/" can be too long here
    have hps : p = slash :=
      (not_not.mp (mt (fits_iff_of_short hg.1 hh.1 hcov hhost hshort).mpr hfits)).1
    rw [hps, detranslate_slash_misfit hinv hhosts] at hn
    cases hn

/-- "/" under a root of 4095 characters is translated, with success, to "/",
and that does not come back. -/
theorem detranslate_slash_fails :
    let root := deepRoot 2046 ['h', 'h']
    let sys := rootedSys root
    ListInv sys.bindings ∧ getRoot sys.bindings ≠ slash ∧ HostsApart sys.bindings ∧
      IsDeepest sys.bindings slash (rootBinding root) ∧
      ((rootBinding root).reroot slash).length < pathMax ∧
      substituteBinding sys.bindings .guest slash = (slash, .ok true) ∧
      detranslatePath sys (substituteBinding sys.bindings .guest slash).1 none =
        .error .EPERM := by
  intro root sys
  have hcanon : Canonical root := deepRoot_canonical 2046 (by decide)
  have hlen : root.length = 4095 := deepRoot_length 2046 _
  have hne : root ≠ slash := fun h => by rw [h] at hlen; simp [slash] at hlen
  have hinv : ListInv sys.bindings := rootedSys_inv hcanon
  have honly : ∀ b ∈ sys.bindings.guest, b = rootBinding root :=
    fun b hb => List.mem_singleton.mp hb
  have hdeep : IsDeepest sys.bindings slash (rootBinding root) :=
    ⟨List.mem_singleton_self _, by decide, fun y hy _ => Or.inl (honly y hy)⟩
  have hreroot : (rootBinding root).reroot slash = root := by
    have htrim : trim root = root := if_neg hne
    show PRoot.reroot root slash slash = root
    rw [PRoot.reroot, htrim]
    simp [trim, hcanon.ne_nil]
  obtain ⟨b, hb, hsub⟩ := hinv.substitute_guest (p := slash) rfl
  rw [honly b hb.1] at hsub
  have hmisfit : ¬ (rootBinding root).Fits slash := by
    rintro (h | h | h)
    · exact hne h
    · exact hne h
    · have h : root.length + slash.length < pathMax := h
      rw [hlen] at h
      exact absurd h (by decide)
  rw [if_neg hmisfit] at hsub
  have hneed : (rootBinding root).needSubstitution = true := by simp [rootBinding, hne]
  rw [hneed] at hsub
  refine ⟨hinv, hne, ?_, hdeep, by rw [hreroot, hlen]; decide, hsub, ?_⟩
  · intro a ha b hb hab
    exact absurd ((honly a ha).trans (honly b hb).symm) hab
  · rw [hsub]
    exact detranslate_slash_misfit hinv fun b hb => by rw [honly b hb]; exact hne

/-- Under the root "/r", "/a" comes back from "/r/a". -/
theorem detranslate_translate_short :
    (∃ n, detranslatePath (rootedSys "/r".toList)
        (substituteBinding (rootedSys "/r".toList).bindings .guest "/a".toList).1 none =
          .ok ("/a".toList, n) ∧ (n ≠ 0 → n = "/a".toList.length + 1)) ↔
      ¬ ("/a".toList = slash ∧ (rootBinding "/r".toList).host.path.length = pathMax - 1) :=
  detranslate_translate (rootedSys_inv (by decide)) (by decide)
    (fun a ha b hb hab =>
      absurd ((List.mem_singleton.mp ha).trans (List.mem_singleton.mp hb).symm) hab)
    (by decide) (by decide)
    ⟨List.mem_singleton_self _, by decide, fun y hy _ => Or.inl (List.mem_singleton.mp hy)⟩
    (by decide)

end PRoot
