import PRoot.Detranslate
import PRoot.MountPaths
import PRoot.MountTables

/-!
# Host names

The guest list as a mount table, and substitution as a lookup in it.

* `ListInv.reaches`: the first binding over a path is the deepest;
* `ListInv.substitute_names`: substitution of a guest path leads where the mount
  table does;
* `ListInv.substitute_marked`: so it does with a final marker, which
  `chop_finality` removes;
* `ListCore.entry_insort`, `ListCore.entry_remove`: what an insertion and a removal
  do to an entry.
-/

namespace PRoot

open SepPath MountTables

/-! ## The guest list as a mount table -/

/-- The binding of a guest path, given by its names. -/
def Bindings.entry (bindings : Bindings) (ws : List CStr) : Option Binding :=
  bindings.guest.find? fun b => comps b.guest.path = ws

/-- What the guest list mounts where. -/
def Bindings.table (bindings : Bindings) : Table CStr := fun ws =>
  (bindings.entry ws).map fun b => comps b.host.path

/-- The names of the host path that stands for a guest path: those of the first
binding over it, then the rest of the path. -/
def Bindings.hostNames (bindings : Bindings) (p : List CStr) : List CStr :=
  match bindings.guest.find? fun b => (comps b.guest.path).isPrefixOf p with
  | none => p
  | some b => comps b.host.path ++ p.drop (comps b.guest.path).length

variable {bindings : Bindings}

theorem ListCore.entry_iff (h : ListCore bindings) {ws : List CStr} {b : Binding} :
    bindings.entry ws = some b ↔ b ∈ bindings.guest ∧ comps b.guest.path = ws := by
  constructor
  · intro hb
    exact ⟨List.mem_of_find?_eq_some hb, by simpa using List.find?_some hb⟩
  · rintro ⟨hb, hws⟩
    cases hfind : bindings.entry ws with
    | none => exact absurd hws (by simpa using List.find?_eq_none.mp hfind b hb)
    | some b' =>
        have hb' := List.mem_of_find?_eq_some hfind
        have hws' : comps b'.guest.path = ws := by simpa using List.find?_some hfind
        have hpath := ((h.good b' hb').1.1.eq_iff (h.good b hb).1.1).mpr (hws'.trans hws.symm)
        rw [h.distinct.inj hb' hb hpath]

theorem ListCore.table_iff (h : ListCore bindings) {ws host : List CStr} :
    bindings.table ws = some host ↔
      ∃ b ∈ bindings.guest, comps b.guest.path = ws ∧ comps b.host.path = host := by
  rw [Bindings.table, Option.map_eq_some_iff]
  constructor
  · rintro ⟨b, hb, hhost⟩
    obtain ⟨hmem, hws⟩ := h.entry_iff.mp hb
    exact ⟨b, hmem, hws, hhost⟩
  · rintro ⟨b, hmem, hws, hhost⟩
    exact ⟨b, h.entry_iff.mpr ⟨hmem, hws⟩, hhost⟩

/-- **The first binding over a path is the deepest.** -/
theorem ListInv.reaches (h : ListInv bindings) (p : List CStr) :
    Reaches bindings.table p (bindings.hostNames p) := by
  unfold Bindings.hostNames
  cases hfind : bindings.guest.find? fun b => (comps b.guest.path).isPrefixOf p with
  | none =>
      obtain ⟨init, root, hlist, hroot⟩ := h.root
      have hno := List.find?_eq_none.mp hfind root (by rw [hlist]; simp)
      rw [hroot] at hno
      exact absurd (List.isPrefixOf_iff_prefix.mpr (List.nil_prefix (l := p))) hno
  | some b =>
      have hb := List.mem_of_find?_eq_some hfind
      have hover : comps b.guest.path <+: p := by simpa using List.find?_some hfind
      obtain ⟨rest, hrest⟩ := hover
      refine ⟨comps b.guest.path, rest, comps b.host.path, hrest.symm,
        h.toListCore.table_iff.mpr ⟨b, hb, rfl, rfl⟩, ?_, fun c hc hne => ?_⟩
      · show _ = comps b.host.path ++ rest
        rw [← hrest]
        simp only [List.drop_left]
      · obtain ⟨host, hhost⟩ := Option.ne_none_iff_exists'.mp hne
        obtain ⟨b', hb', rfl, -⟩ := h.toListCore.table_iff.mp hhost
        refine h.deepest.find?_deepest (fun x _ y _ hx hy => ?_) hfind b' hb' ?_
        · exact List.prefix_or_prefix_of_prefix (List.isPrefixOf_iff_prefix.mp hx)
            (List.isPrefixOf_iff_prefix.mp hy)
        · exact List.isPrefixOf_iff_prefix.mpr hc

variable {p : List CStr}

/-- The deepest binding over a path, where the path is written in a way that the
bindings over it are those over its names. -/
theorem ListInv.hostNames_deepest (h : ListInv bindings) {path : CStr} (hpath : path ≠ [])
    (hcovers : ∀ a, (∀ c ∈ a, IsName c) → (Covers '/' a path ↔ a <+: p)) {b : Binding}
    (hb : IsDeepest bindings path b) :
    ∃ rest, comps b.guest.path ++ rest = p ∧
      bindings.hostNames p = comps b.host.path ++ rest := by
  obtain ⟨hmem, hcontains, hdeep⟩ := hb
  have hover : ∀ y ∈ bindings.guest, (comparePaths y.guest.path path).contains = true ↔
      comps y.guest.path <+: p := fun y hy =>
    (h.covers hy hpath).trans (hcovers _ (h.guest_good y hy).1.1)
  obtain ⟨rest, hrest⟩ := (hover b hmem).mp hcontains
  refine ⟨rest, hrest, (h.reaches p).unique ⟨comps b.guest.path, rest, _, hrest.symm,
    h.toListCore.table_iff.mpr ⟨b, hmem, rfl, rfl⟩, rfl, fun c hc hne => ?_⟩⟩
  obtain ⟨host, hhost⟩ := Option.ne_none_iff_exists'.mp hne
  obtain ⟨b', hb', rfl, -⟩ := h.toListCore.table_iff.mp hhost
  rcases hdeep b' hb' ((hover b' hb').mpr hc) with rfl | hshorter
  · exact List.prefix_rfl
  · rcases List.prefix_or_prefix_of_prefix hc ⟨rest, hrest⟩ with hle | hge
    · exact hle
    · by_cases heq : comps b.guest.path = comps b'.guest.path
      · rw [heq]
      · have hlt := render_length_lt (comps_words b'.guest.path) hge heq
        rw [← (h.guest_good b hmem).1.2, ← (h.guest_good b' hb').1.2] at hlt
        omega

/-- **Substitution leads where the mount table does**, when the host path fits. -/
theorem ListInv.substitute_names (h : ListInv bindings) (hp : ∀ c ∈ p, IsName c)
    (hfits : (render (bindings.hostNames p)).length + 1 < pathMax) :
    (substituteBinding bindings .guest (render p)).1 = render (bindings.hostNames p) := by
  have hcanon := canonical_render hp
  have hcovers : ∀ a, (∀ c ∈ a, IsName c) → (Covers '/' a (render p) ↔ a <+: p) := fun a ha =>
    covers_render_iff '/' (fun c hc => (ha c hc).isWord) fun c hc => (hp c hc).isWord
  obtain ⟨b, hdeep, hsubst⟩ := h.substitute_guest (render_head p)
  obtain ⟨rest, hrest, hnames⟩ := h.hostNames_deepest hcanon.ne_nil hcovers hdeep
  obtain ⟨hg, hh⟩ := h.good b hdeep.1
  have hwords : comps (render p) = comps b.guest.path ++ rest := by
    rw [comps_render_names hp, hrest]
  have hreroot : b.reroot (render p) = render (comps b.host.path ++ rest) :=
    reroot_render hh.1 hg.1 hcanon hwords
  rw [hnames] at hfits ⊢
  rw [hsubst]
  show (if b.Fits (render p) then b.reroot (render p) else render p) = _
  rw [if_pos, hreroot]
  by_cases hhost : b.host.path = slash
  · exact Or.inr (Or.inl hhost)
  · refine (fits_iff_of_short hg.1 hh.1 ((h.covers hdeep.1 hcanon.ne_nil).mp hdeep.2.1) hhost
      (by rw [hreroot]; omega)).mpr ?_
    rintro ⟨hslash, hlong⟩
    have hnil : comps (render p) = [] := by rw [hslash]; rfl
    obtain ⟨-, rfl⟩ := List.append_eq_nil_iff.mp (hwords.symm.trans hnil)
    rw [List.append_nil, ← hh.1.2] at hfits
    omega

/-- The names of a host path. -/
theorem ListInv.hostNames_names (h : ListInv bindings) (hp : ∀ c ∈ p, IsName c) :
    ∀ c ∈ bindings.hostNames p, IsName c := by
  obtain ⟨a, rest, host, rfl, ha, heq, -⟩ := h.reaches p
  obtain ⟨b, hb, -, rfl⟩ := h.toListCore.table_iff.mp ha
  rw [heq]
  intro c hc
  rcases List.mem_append.mp hc with hc | hc
  · exact (h.good b hb).2.1.1 c hc
  · exact hp c (List.mem_append_right a hc)

/-- Substitution keeps a final marker in place. -/
theorem ListInv.substitute_marker (h : ListInv bindings) (hp : ∀ c ∈ p, IsName c)
    (hfits : (render (bindings.hostNames p)).length + 3 < pathMax) {marker : CStr}
    (hm : marker = ['/'] ∨ marker = ['/', '.']) (hne : flat '/' p ++ marker ≠ slash) :
    (substituteBinding bindings .guest (flat '/' p ++ marker)).1 =
      flat '/' (bindings.hostNames p) ++ marker := by
  have hhead : (flat '/' p ++ marker).head? = some '/' := by
    cases p with
    | nil => rcases hm with rfl | rfl <;> rfl
    | cons c cs => rfl
  have hnil : flat '/' p ++ marker ≠ [] := by
    intro hnil
    rw [hnil] at hhead
    cases hhead
  obtain ⟨b, hdeep, hsubst⟩ := h.substitute_guest hhead
  obtain ⟨rest, hrest, hnames⟩ := h.hostNames_deepest hnil
    (fun a ha => covers_marker_iff ha hp hm) hdeep
  obtain ⟨hg, hh⟩ := h.good b hdeep.1
  have hreroot : b.reroot (flat '/' p ++ marker) =
      flat '/' (comps b.host.path ++ rest) ++ marker :=
    reroot_marker hh.1 hg.1 hrest.symm hm hne
  rw [hnames] at hfits ⊢
  rw [hsubst]
  show (if b.Fits _ then b.reroot _ else _) = _
  rw [if_pos, hreroot]
  by_cases hhost : b.host.path = slash
  · exact Or.inr (Or.inl hhost)
  · refine (fits_iff_of_short hg.1 hh.1 ((h.covers hdeep.1 hnil).mp hdeep.2.1) hhost ?_).mpr
      fun hc => hne hc.1
    have hlen : marker.length ≤ 2 := by rcases hm with rfl | rfl <;> decide
    have hflat : (flat '/' (comps b.host.path ++ rest)).length ≤
        (render (comps b.host.path ++ rest)).length := by
      rw [render, SepPath.render]
      split
      · rename_i hnil
        rw [hnil]
        simp
      · exact Nat.le_refl _
    rw [hreroot, List.length_append]
    omega

/-- **A final marker goes along**, and `chop_finality` removes it. -/
theorem ListInv.substitute_marked (h : ListInv bindings) (hp : ∀ c ∈ p, IsName c)
    (hfits : (render (bindings.hostNames p)).length + 3 < pathMax) {path : CStr}
    (hpath : path = render p ∨ path = withSlash (render p) ∨ path = withDot (render p))
    (hchops : ChopsRight (substituteBinding bindings .guest path).1) :
    chopFinality (substituteBinding bindings .guest path).1 = render (bindings.hostNames p) := by
  have hcanon := canonical_render hp
  have hout := canonical_render (h.hostNames_names hp)
  have hplain : path = render p →
      chopFinality (substituteBinding bindings .guest path).1 = render (bindings.hostNames p) := by
    rintro rfl
    rw [h.substitute_names hp (by omega)] at hchops ⊢
    exact chopFinality_plain (fun hdot => hout.no_dot (hchops hdot)) hout.last_ne
  have hcomps := comps_render_names hp
  have hcomps' := comps_render_names (h.hostNames_names hp)
  rcases hpath with heq | heq | heq
  · exact hplain heq
  · by_cases hs : path = slash
    · refine hplain (heq.trans ?_)
      have hnil : p = [] := by
        have hflat := heq.symm.trans hs
        rw [hcanon.withSlash_eq, hcomps] at hflat
        have hlen := congrArg List.length hflat
        rw [List.length_append] at hlen
        exact (flat_eq_nil_iff '/').mp (List.length_eq_zero_iff.mp (by simpa [slash] using hlen))
      rw [hnil]
      rfl
    · rw [hcanon.withSlash_eq, hcomps] at heq
      rw [heq] at hs ⊢
      rw [h.substitute_marker hp hfits (Or.inl rfl) hs]
      have hmarked := hout.withSlash_eq
      rw [hcomps'] at hmarked
      rw [← hmarked, chopFinality_withSlash hout]
  · rw [hcanon.withDot_eq, hcomps] at heq
    have hs : flat '/' p ++ ['/', '.'] ≠ slash := by
      intro hs
      have hlen := congrArg List.length hs
      simp [slash] at hlen
    rw [heq, h.substitute_marker hp hfits (Or.inr rfl) hs]
    have hmarked := hout.withDot_eq
    rw [hcomps'] at hmarked
    rw [← hmarked, chopFinality_withDot hout]

/-! ## Entries -/

theorem ListCore.entry_insort (h : ListCore bindings) {x : Binding} (hg : x.guest.Good)
    (hh : x.host.Good) (hfresh : ∀ b ∈ bindings.guest, b.addr ≠ x.addr) (ws : List CStr) :
    (insortBinding2 bindings x).entry ws =
      if comps x.guest.path = ws then some x.settle else bindings.entry ws := by
  obtain ⟨hcore, hmem⟩ := h.insort hg hh hfresh
  ext b
  rw [hcore.entry_iff, hmem]
  by_cases hws : comps x.guest.path = ws
  · rw [if_pos hws, Option.some.injEq]
    constructor
    · rintro ⟨rfl | ⟨hb, hne⟩, heq⟩
      · rfl
      · exact absurd (((h.good b hb).1.1.eq_iff hg.1).mpr (heq.trans hws.symm)) hne
    · rintro rfl
      exact ⟨Or.inl rfl, hws⟩
  · rw [if_neg hws, h.entry_iff]
    constructor
    · rintro ⟨rfl | ⟨hb, -⟩, heq⟩
      · exact absurd heq hws
      · exact ⟨hb, heq⟩
    · rintro ⟨hb, heq⟩
      refine ⟨Or.inr ⟨hb, fun hpath => hws ?_⟩, heq⟩
      rw [← heq, hpath]

theorem ListCore.entry_remove (h : ListCore bindings) (x : Binding) (ws : List CStr) :
    (removeBindingFromAllLists bindings x).entry ws =
      (bindings.entry ws).filter (·.addr ≠ x.addr) := by
  ext b
  rw [(h.remove x).entry_iff, Option.filter_eq_some_iff, h.entry_iff]
  show b ∈ unlink x bindings.guest ∧ _ ↔ _
  rw [unlink, List.mem_filter]
  tauto

end PRoot
