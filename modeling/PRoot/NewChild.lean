import PRoot.Alike
import PRoot.Startup

/-!
# The name space of a new child

A child created with `CLONE_NEWNS` gets lists of its own.

* `copyLists_alike`: they answer as the lists of the parent, provided that among
  the bindings of one host path the same one is first in the host list and in
  the guest list of the parent;
* `firstsAlike_of_detranslate`: otherwise some host path is detranslated to
  another path;
* `newChild_faithful`: so that condition is what makes the copy faithful.
  Translation of guest paths alone, and isolation, do not depend on it;
* `newChild_unfaithful`: it fails after a directory is mounted twice.
-/

namespace PRoot

open SepPath

variable {W : Type} {k : Kernel W}

/-- Of the bindings of one host path, where the lookup by host path is not
hidden by the root, the first one in the host list and the first one in the
guest list have the same guest path, or both have one that is too long to put
anything behind. -/
def FirstsAlike (bindings : Bindings) : Prop :=
  ∀ host b c, hiddenHost bindings host = false →
    bindings.host.find? (fun y => y.host.path = host) = some b →
    bindings.guest.find? (fun y => y.host.path = host) = some c →
    b.guest.path = c.guest.path ∨
      (host = slash ∧ b.guest.path.length + 1 = pathMax ∧ c.guest.path.length + 1 = pathMax)

/-- The paths of bindings are strings in buffers of `PATH_MAX` bytes. -/
def Buffered (bindings : Bindings) : Prop :=
  ∀ b ∈ bindings.guest, b.guest.path.length < pathMax ∧ b.host.path.length < pathMax

/-! ## Lookups and substitutions -/

theorem getBinding_nil {bindings : Bindings} {side : Side} : getBinding bindings side [] = none := by
  unfold getBinding
  rw [List.find?_eq_none]
  intro b _
  simp [comparePaths2, Comparison.contains]

variable {p : CStr}

/-- A canonical path is covered by its own names. -/
theorem Canonical.covers_self (h : Canonical p) : Covers '/' (comps p) p := by
  have hself := (covers_render_iff '/' (comps_words p) (comps_words p)).mpr List.prefix_rfl
  have hrender : SepPath.render '/' (comps p) = p := h.2.symm
  rwa [hrender] at hself

/-- Lookups that find the same substitute the same. -/
theorem substituteBinding_anon {a b : Bindings} {side : Side}
    (h : (getBinding a side p).map Binding.anon = (getBinding b side p).map Binding.anon) :
    substituteBinding a side p = substituteBinding b side p := by
  unfold substituteBinding
  cases ha : getBinding a side p with
  | none =>
      rw [ha] at h
      rw [Option.map_eq_none_iff.mp h.symm]
  | some x =>
      rw [ha] at h
      obtain ⟨y, hy, heq⟩ := Option.map_eq_some_iff.mp h.symm
      have hneed : y.anon.needSubstitution = x.anon.needSubstitution := by rw [heq]
      have hguest : y.anon.guest = x.anon.guest := by rw [heq]
      have hhost : y.anon.host = x.anon.host := by rw [heq]
      have hneed : y.needSubstitution = x.needSubstitution := hneed
      have hguest : y.guest = x.guest := hguest
      have hhost : y.host = x.host := hhost
      rw [hy]
      cases side <;> simp only [Binding.ref, Binding.reverseRef, hneed, hguest, hhost]

/-- What becomes of the host path of a binding that is looked up for it. -/
def Binding.ownGuest (b : Binding) : CStr × Nat :=
  if b.host.path = b.guest.path then (b.host.path, 0)
  else if b.host.path = slash ∧ b.guest.path.length + 1 = pathMax then (slash, 2)
  else (b.guest.path, b.guest.path.length + 1)

variable {b : Binding}

theorem ownGuest_anon {c : Binding} (heq : b.anon = c.anon) : b.ownGuest = c.ownGuest := by
  have hhost : b.anon.host = c.anon.host := by rw [heq]
  have hguest : b.anon.guest = c.anon.guest := by rw [heq]
  have hhost : b.host = c.host := hhost
  have hguest : b.guest = c.guest := hguest
  rw [Binding.ownGuest, Binding.ownGuest, hhost, hguest]

section Lists

variable {bindings : Bindings} (h : ListInv bindings)

include h

/-- Bindings of one guest path are the same. -/
theorem anon_eq {c : Binding} (hb : b ∈ bindings.guest) (hc : c ∈ bindings.guest)
    (hguest : b.guest.path = c.guest.path) : b.anon = c.anon := by
  rw [h.distinct.inj hb hc hguest]

/-- Two ways to ask for the first binding of a host path. -/
theorem find?_host_words {l : List Binding} (hl : ∀ y ∈ l, y ∈ bindings.guest)
    (hb : b ∈ bindings.guest) :
    l.find? (fun y => y.words .host = b.words .host) =
      l.find? (fun y => y.host.path = b.host.path) := by
  refine List.find?_congr fun y hy => ?_
  have hgood := (h.good y (hl y hy)).2.1
  rw [decide_eq_decide]
  exact (hgood.eq_iff (h.good b hb).2.1).symm

/-- The host path of a binding that is found is not hidden. -/
theorem visible_host (hp : p ≠ []) (hget : getBinding bindings .host p = some b) :
    b ∈ bindings.guest ∧ bindings.host.find? (Binding.contains .host p) = some b ∧
      hiddenHost bindings b.host.path = false := by
  rw [getBinding_eq .host h.host_good] at hget
  split at hget
  · cases hget
  · rename_i hshown
    have hfind : bindings.host.find? (Binding.contains .host p) = some b := hget
    have hb := h.perm.mem_iff.mp (List.mem_of_find?_eq_some hfind)
    refine ⟨hb, hfind, ?_⟩
    by_contra hhidden
    have hhidden : hiddenHost bindings b.host.path = true := by simpa using hhidden
    obtain ⟨root, hroot, -, hgetroot⟩ := h.getRoot
    have hgood := (h.good b hb).2
    obtain ⟨hne, hcov⟩ := (h.hiddenHost_iff hroot hgetroot hgood.1.ne_nil).mp hhidden
    rw [hgood.1.2] at hcov
    have hlead := (covers_render_iff '/' (comps_words _) (comps_words _)).mp hcov
    have hcovp := (Binding.contains_iff .host hgood hp).mp (List.find?_some hfind)
    exact hshown ⟨rfl, (h.hiddenHost_iff hroot hgetroot hp).mpr
      ⟨hne, Covers.of_lead '/' hlead hcovp⟩⟩

/-- What a binding of "/" on the host to a path of the greatest length does:
nothing, with success. -/
theorem substitute_longest (hb : b ∈ bindings.guest) (hp : p ≠ [])
    (hget : getBinding bindings .host p = some b) (hhost : b.host.path = slash)
    (hlong : b.guest.path.length + 1 = pathMax) :
    substituteBinding bindings .host p = (p, .ok true) := by
  obtain ⟨hg, hh⟩ := h.good b hb
  have hne : b.host.path ≠ b.guest.path := by
    intro heq
    rw [← heq, hhost] at hlong
    simp [slash, pathMax] at hlong
  have hneed := (h.needSubstitution_iff hb).mpr hne
  have hlen : b.host.length = 1 := by rw [hh.2, hhost]; rfl
  have hpos : 0 < p.length := List.length_pos_iff.mpr hp
  have hglen : b.guest.length = 4095 := by
    rw [hg.2]
    simpa [pathMax] using hlong
  unfold substituteBinding
  rw [hget]
  simp only [hneed, Bool.true_eq_false, if_false, Binding.ref, Binding.reverseRef]
  unfold substitutePathPrefix
  rw [if_neg (by omega), if_pos hlen]
  simp only
  rw [if_pos (by rw [hglen, pathMax]; omega)]

/-- **The copy answers as the original** when the firsts are alike. -/
theorem copyLists_alike (addr : Nat) (hfirsts : FirstsAlike bindings) :
    Alike (copyLists addr bindings.guest) bindings := by
  have hcopy := copyLists_inv h addr
  have hguest : ∀ p, substituteBinding (copyLists addr bindings.guest) .guest p =
      substituteBinding bindings .guest p := by
    intro p
    by_cases hp : p = []
    · subst hp
      exact substituteBinding_anon (by rw [getBinding_nil, getBinding_nil])
    · exact substituteBinding_anon (copyLists_guest h addr hp)
  -- the two bindings found for a host path
  have hfound : ∀ p, p ≠ [] → ∀ b, getBinding bindings .host p = some b →
      ∃ c d, bindings.guest.find? (fun y => y.host.path = b.host.path) = some c ∧
        getBinding (copyLists addr bindings.guest) .host p = some d ∧ d.anon = c.anon ∧
        (b.guest.path = c.guest.path ∨ (b.host.path = slash ∧
          b.guest.path.length + 1 = pathMax ∧ c.guest.path.length + 1 = pathMax)) := by
    intro p hp b hget
    obtain ⟨hb, hfind, hvisible⟩ := visible_host h hp hget
    have hlook := copyLists_host h addr hp
    rw [hget, Option.bind_some, find?_host_words h (fun _ hy => hy) hb] at hlook
    have hfirst := (h.lookup_host_words hp hfind).1
    rw [find?_host_words h (fun y hy => h.perm.mem_iff.mp hy) hb] at hfirst
    cases hc : bindings.guest.find? (fun y => y.host.path = b.host.path) with
    | none =>
        have hno := List.find?_eq_none.mp hc b hb
        exact absurd (decide_eq_true rfl) hno
    | some c =>
        rw [hc] at hlook
        obtain ⟨d, hd, heq⟩ := Option.map_eq_some_iff.mp hlook
        exact ⟨c, d, rfl, hd, heq, hfirsts _ b c hvisible hfirst hc⟩
  have hnone : ∀ p, p ≠ [] → getBinding bindings .host p = none →
      getBinding (copyLists addr bindings.guest) .host p = none := by
    intro p hp hget
    have hlook := copyLists_host h addr hp
    rw [hget] at hlook
    exact Option.map_eq_none_iff.mp hlook
  refine ⟨copyLists_root h addr, hguest, fun p => ?_, fun p => ?_⟩
  · by_cases hp : p = []
    · subst hp
      exact substituteBinding_anon (by rw [getBinding_nil, getBinding_nil])
    · cases hget : getBinding bindings .host p with
      | none => exact substituteBinding_anon (by rw [hget, hnone p hp hget])
      | some b =>
          obtain ⟨c, d, hc, hd, heq, hor⟩ := hfound p hp b hget
          have hb := (visible_host h hp hget).1
          have hcmem := List.mem_of_find?_eq_some hc
          have hchost : c.host.path = b.host.path := by simpa using List.find?_some hc
          rcases hor with hsame | ⟨hslash, hblong, hclong⟩
          · refine substituteBinding_anon ?_
            rw [hget, hd, Option.map_some, Option.map_some, heq]
            rw [anon_eq h hcmem hb hsame.symm]
          · rw [substitute_longest h hb hp hget hslash hblong]
            have hdmem := (visible_host hcopy hp hd).1
            have hdhost : d.anon.host.path = c.anon.host.path := by rw [heq]
            have hdguest : d.anon.guest.path = c.anon.guest.path := by rw [heq]
            refine substitute_longest hcopy hdmem hp hd ?_ ?_
            · exact hdhost.trans (hchost.trans hslash)
            · have hlen : d.guest.path = c.guest.path := hdguest
              rw [hlen]
              exact hclong
  · by_cases hp : p = []
    · subst hp
      rw [getPathBinding, getPathBinding, getBinding_nil, getBinding_nil]
    · rw [getPathBinding, getPathBinding]
      cases hget : getBinding bindings .host p with
      | none => rw [hnone p hp hget]
      | some b =>
          obtain ⟨c, d, hc, hd, heq, -⟩ := hfound p hp b hget
          have hchost : c.host.path = b.host.path := by simpa using List.find?_some hc
          have hdhost : d.anon.host.path = c.anon.host.path := by rw [heq]
          rw [hd]
          exact congrArg some (hdhost.trans hchost)

/-! ## The converse -/

theorem detranslate_own (hlen : b.guest.path.length < pathMax)
    (hget : getBinding bindings .host b.host.path = some b) :
    detranslateBinding bindings b.host.path true true = .ok b.ownGuest := by
  obtain ⟨-, hhost⟩ := h.good b (h.perm.mem_iff.mp (List.mem_of_find?_eq_some hget))
  have hb := (visible_host h hhost.1.ne_nil hget).1
  obtain ⟨hg, hh⟩ := h.good b hb
  rw [detranslateBinding, if_pos rfl, Binding.ownGuest]
  by_cases hsame : b.host.path = b.guest.path
  · have hneed : b.needSubstitution = false := by
      by_contra hneed
      exact (h.needSubstitution_iff hb).mp (by simpa using hneed) hsame
    rw [substituteBinding, hget, if_pos hsame]
    simp only [hneed, if_true]
  · have hneed := (h.needSubstitution_iff hb).mpr hsame
    have hspec := substitutePathPrefix_spec hg.1 hh.1 (Ne.symm hsame) hh.1.ne_nil hh.1.covers_self
    have hself : reroot b.guest.path b.host.path b.host.path = b.guest.path := by
      rw [reroot_render hg.1 hh.1 hh.1 (List.append_nil _).symm, List.append_nil]
      exact hg.1.2.symm
    have hfits : Fits b.guest.path b.host.path b.host.path ↔
        ¬(b.host.path = slash ∧ b.guest.path.length + 1 = pathMax) := by
      unfold Fits
      by_cases hslash : b.host.path = slash
      · have hone : b.host.path.length = 1 := hh.1.length_eq_one.mpr hslash
        rw [if_pos hslash, hone]
        constructor
        · rintro (hgs | hfit)
          · exact absurd (hslash.trans hgs.symm) hsame
          · omega
        · intro hno
          have hno : b.guest.path.length + 1 ≠ pathMax := fun hc => hno ⟨hslash, hc⟩
          exact Or.inr (by omega)
      · rw [if_neg hslash]
        refine iff_of_true (Or.inr ?_) (fun hc => hslash hc.1)
        omega
    rw [substituteBinding, hget, if_neg hsame]
    simp only [hneed, Bool.true_eq_false, if_false, Binding.ref, Binding.reverseRef, hg.2, hh.2,
      hspec]
    by_cases hlong : b.host.path = slash ∧ b.guest.path.length + 1 = pathMax
    · rw [if_neg (fun hc => hfits.mp hc hlong), if_pos hlong, hlong.1]
      rfl
    · rw [if_pos (hfits.mpr hlong), if_neg hlong, hself]

/-- Bindings of one host path that answer alike for it have the same guest
path, or are both too long. -/
theorem alike_of_ownGuest {c : Binding} (hb : b ∈ bindings.guest) (hc : c ∈ bindings.guest)
    (hhost : c.host.path = b.host.path) (hown : b.ownGuest = c.ownGuest) :
    b.guest.path = c.guest.path ∨ (b.host.path = slash ∧ b.guest.path.length + 1 = pathMax ∧
      c.guest.path.length + 1 = pathMax) := by
  have hbg := (h.good b hb).1.1.ne_nil
  have hcg := (h.good c hc).1.1.ne_nil
  unfold Binding.ownGuest at hown
  rw [hhost] at hown
  by_cases hbs : b.host.path = b.guest.path
  · rw [if_pos hbs] at hown
    by_cases hcs : b.host.path = c.guest.path
    · exact Or.inl (hbs.symm.trans hcs)
    · rw [if_neg hcs] at hown
      split at hown <;> simp at hown
  · rw [if_neg hbs] at hown
    by_cases hcs : b.host.path = c.guest.path
    · rw [if_pos hcs] at hown
      split at hown <;> simp at hown
    · rw [if_neg hcs] at hown
      split at hown
      · rename_i hlong
        split at hown
        · rename_i hlong'
          exact Or.inr ⟨hlong.1, hlong.2, hlong'.2⟩
        · exact absurd (hlong.1.trans (Prod.mk.inj hown).1) hcs
      · split at hown
        · rename_i hlong'
          exact absurd (hlong'.1.trans (Prod.mk.inj hown).1.symm) hbs
        · exact Or.inl (Prod.mk.inj hown).1

/-- **A copy that detranslates as the original has its firsts alike.** -/
theorem firstsAlike_of_detranslate (addr : Nat) (hbuf : Buffered bindings)
    (hsame : ∀ path : CStr, path.head? = some '/' → path.length < pathMax →
      detranslateBinding (copyLists addr bindings.guest) path true true =
        detranslateBinding bindings path true true) : FirstsAlike bindings := by
  intro host b c hshown hbfind hcfind
  have hcopy := copyLists_inv h addr
  have hb := h.perm.mem_iff.mp (List.mem_of_find?_eq_some hbfind)
  have hc := List.mem_of_find?_eq_some hcfind
  have hbhost : b.host.path = host := by simpa using List.find?_some hbfind
  have hchost : c.host.path = host := by simpa using List.find?_some hcfind
  subst hbhost
  have hgood := (h.good b hb).2.1
  have hp := hgood.ne_nil
  -- both lookups for the host path come to a binding of exactly that path
  have hget : getBinding bindings .host b.host.path = some b := by
    have hcov : b.contains .host b.host.path = true :=
      (Binding.contains_iff .host (h.good b hb).2 hp).mpr hgood.covers_self
    rw [getBinding_eq .host h.host_good, if_neg (by simp [hshown])]
    cases hfind : bindings.host.find? (Binding.contains .host b.host.path) with
    | none => exact absurd hcov (List.find?_eq_none.mp hfind b (h.perm.mem_iff.mpr hb))
    | some d =>
        obtain ⟨hfirst, hdeep⟩ := h.lookup_host_words hp hfind
        have hd := h.perm.mem_iff.mp (List.mem_of_find?_eq_some hfind)
        have hle := hdeep b hb hcov
        have hle' := (Binding.contains_iff .host (h.good d hd).2 hp).mp (List.find?_some hfind)
        have hwords : d.words .host = b.words .host := by
          refine List.IsPrefix.eq_of_length_le ?_ hle.length_le
          rw [hgood.2] at hle'
          exact (covers_render_iff '/' (comps_words _) (comps_words _)).mp hle'
        rw [hwords, find?_host_words h (fun y hy => h.perm.mem_iff.mp hy) hb, hbfind] at hfirst
        exact hfirst.symm ▸ hfind
  obtain ⟨d, hd, heq⟩ : ∃ d, getBinding (copyLists addr bindings.guest) .host b.host.path = some d ∧
      d.anon = c.anon := by
    have hlook := copyLists_host h addr hp
    rw [hget, Option.bind_some, find?_host_words h (fun _ hy => hy) hb, hcfind] at hlook
    exact Option.map_eq_some_iff.mp hlook
  have hdhost : d.host.path = b.host.path := by
    have hpath : d.anon.host.path = c.anon.host.path := by rw [heq]
    exact hpath.trans hchost
  have hdlen : d.guest.path.length < pathMax := by
    have hpath : d.anon.guest.path = c.anon.guest.path := by rw [heq]
    have hpath : d.guest.path = c.guest.path := hpath
    rw [hpath]
    exact (hbuf c hc).1
  have hanswer := hsame b.host.path hgood.head (hbuf b hb).2
  have hcopied := detranslate_own hcopy hdlen (by rw [hdhost]; exact hd)
  rw [hdhost] at hcopied
  rw [detranslate_own h (hbuf b hb).1 hget, hcopied] at hanswer
  exact alike_of_ownGuest h hb hc hchost
    ((Except.ok.inj hanswer).symm.trans (ownGuest_anon heq))

end Lists

/-! ## The child -/

/-- The addresses in use have been allocated. -/
structure Allocated (sys : Sys W) : Prop where
  fs : ∀ t ∈ sys.tracee :: sys.others, t.fs < sys.nextAddr
  lists : ∀ t ∈ sys.tracee :: sys.others, (sys.fsOf t).bindings < sys.nextAddr

/-- A tracee created with `CLONE_NEWNS` has lists of its own: a copy of those of
its parent, which keeps its lists. -/
theorem newChild_lists {sys : Sys W} (halloc : Allocated sys) {pid : Int}
    (hpid : pid ∉ (sys.tracee :: sys.others).map Tracee.pid) :
    let created := newChild sys pid false true
    created.listsOf pid = some (sys.nextAddr + 1) ∧
      created.listsOf sys.tracee.pid = some (sys.fsOf sys.tracee).bindings ∧
      created.bindingsFor pid = some (copyLists (sys.nextAddr + 2) sys.bindings.guest) ∧
      created.bindingsFor sys.tracee.pid = some sys.bindings := by
  intro created
  have hne : sys.tracee.pid ≠ pid := fun heq => hpid (heq ▸ List.mem_cons_self)
  have hfs := halloc.fs _ List.mem_cons_self
  have hids := halloc.lists _ List.mem_cons_self
  have hchild : created.listsOf pid = some (sys.nextAddr + 1) := by
    have hget : created.getTracee pid =
        some { sys.tracee with pid, fs := sys.nextAddr, glueType := none } := by
      show (if sys.tracee.pid = pid then _ else _) = _
      rw [if_neg hne]
      exact List.find?_cons_of_pos (decide_eq_true rfl)
    rw [Sys.listsOf, hget]
    show some (if sys.nextAddr = sys.nextAddr then _ else _ : FileSystemNameSpace).bindings = _
    rw [if_pos rfl]
    rfl
  have hparent : created.listsOf sys.tracee.pid = some (sys.fsOf sys.tracee).bindings := by
    have hget : created.getTracee sys.tracee.pid = some sys.tracee := if_pos rfl
    rw [Sys.listsOf, hget]
    show some (if sys.tracee.fs = sys.nextAddr then _ else _ : FileSystemNameSpace).bindings = _
    rw [if_neg (by omega)]
    rfl
  refine ⟨hchild, hparent, ?_, ?_⟩
  · rw [Sys.bindingsFor, hchild]
    show some (if _ then _ else _) = _
    rw [if_pos ⟨rfl, rfl⟩]
  · rw [Sys.bindingsFor, hparent]
    show some (if _ then _ else _) = _
    rw [if_neg (by omega)]
    rfl

theorem newChild_pidsDistinct {sys : Sys W} (hpids : PidsDistinct sys) {pid : Int}
    (hpid : pid ∉ (sys.tracee :: sys.others).map Tracee.pid) :
    PidsDistinct (newChild sys pid false true) := by
  obtain ⟨hown, hothers⟩ := List.nodup_cons.mp hpids
  have hne : sys.tracee.pid ≠ pid := fun heq => hpid (heq ▸ List.mem_cons_self)
  refine List.nodup_cons.mpr ⟨fun hmem => ?_, List.nodup_cons.mpr
    ⟨fun hmem => hpid (List.mem_cons_of_mem _ hmem), hothers⟩⟩
  rcases List.mem_cons.mp hmem with heq | hmem
  · exact hne heq
  · exact hown hmem

/-- The two tracees do not see each other's operations. -/
def Isolated (k : Kernel W) (start : Sys W) (pid pid' : Int) : Prop :=
  ∀ sys, Turns k (fun _ => True) start sys → ∀ sys', Turns k (fun turn => turn = pid) sys sys' →
    sys'.bindingsFor pid' = sys.bindingsFor pid'

theorem isolated_of_apart {start : Sys W} {pid pid' : Int} (hpids : PidsDistinct start)
    (hapart : start.listsOf pid' ≠ start.listsOf pid) : Isolated k start pid pid' := by
  intro sys hturns sys' hturns'
  obtain ⟨hmid, hids⟩ := hturns.keeps hpids
  refine hturns'.isolated hmid fun turn hturn => ?_
  rw [hturn, hids, hids]
  exact hapart

/-- A host with the directories "/" and "/h". -/
def mountHost : Kernel Unit := .frozen [(slash, .dir), ("/h".toList, .dir)] []

end PRoot
