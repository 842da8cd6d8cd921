import PRoot.Detranslate
import PRoot.Namespaces

/-!
# Copied lists

`new_child` copies bindings in the order of the guest list.  The copy holds the
same bindings in order, and the guest list answers lookups as before.  In the
host list, where several bindings may have one host path, the copy puts them in
the order of the guest list, whereas the original has them in the order in which
they were made.

* `insortAll_core`, `insortAll_host_words`: lists made by insertion;
* `copyLists_inv`, `copyLists_guest`: the copy is in order, and its guest list
  answers as the original;
* `copyLists_host`: a lookup by host path in the copy finds the first binding of
  the guest list with the host path that the original finds.
-/

namespace PRoot

open SepPath

/-! ## Lists made by insertion -/

variable {bs : List Binding}

/-- Bindings inserted one after the other are in order. -/
theorem insortAll_core (hgood : ∀ b ∈ bs, b.guest.Good ∧ b.host.Good) (haddrs : AddrsDistinct bs) :
    ListCore (insortAll bs) ∧ ∀ y ∈ (insortAll bs).guest, ∃ b ∈ bs, y = b.settle := by
  induction bs using List.reverseRecOn with
  | nil =>
      refine ⟨⟨?_, ?_, List.nodup_nil, DeepestFirst.nil, List.Perm.refl _, DeepestFirst.nil,
        List.nodup_nil⟩, ?_⟩
      · exact fun b hb => absurd hb List.not_mem_nil
      · exact fun b hb => absurd hb List.not_mem_nil
      · exact fun b hb => absurd hb List.not_mem_nil
  | append_singleton bs x ih =>
      obtain ⟨hcore, hmem⟩ := ih (fun b hb => hgood b (by simp [hb]))
        (((List.sublist_append_left bs [x]).map _).nodup haddrs)
      obtain ⟨hg, hh⟩ := hgood x (by simp)
      have hfresh : ∀ y ∈ (insortAll bs).guest, y.addr ≠ x.addr := by
        intro y hy heq
        obtain ⟨b, hb, rfl⟩ := hmem y hy
        rw [AddrsDistinct, List.map_append, List.nodup_append] at haddrs
        exact haddrs.2.2 _ (List.mem_map_of_mem hb) _ (by simp) heq
      obtain ⟨hcore', hmem'⟩ := hcore.insort hg hh hfresh
      have hstep : insortAll (bs ++ [x]) = insortBinding2 (insortAll bs) x := by
        rw [insortAll, List.foldl_append]
        rfl
      rw [hstep]
      refine ⟨hcore', fun y hy => ?_⟩
      rcases (hmem' y).mp hy with rfl | ⟨hy, -⟩
      · exact ⟨x, by simp, rfl⟩
      · obtain ⟨b, hb, rfl⟩ := hmem y hy
        exact ⟨b, by simp [hb], rfl⟩

/-- **Bindings of one host path stand in the host list in the order of their
insertion.** -/
theorem insortAll_host_words (hgood : ∀ b ∈ bs, b.guest.Good ∧ b.host.Good)
    (hdiff : GuestsDistinct bs) (haddrs : AddrsDistinct bs) (w : List CStr) :
    (insortAll bs).host.filter (fun b => b.words .host = w) =
      (bs.filter fun b => b.words .host = w).map Binding.settle := by
  induction bs using List.reverseRecOn with
  | nil => rfl
  | append_singleton bs x ih =>
      have hgood' : ∀ b ∈ bs, b.guest.Good ∧ b.host.Good := fun b hb => hgood b (by simp [hb])
      have haddrs' := ((List.sublist_append_left bs [x]).map Binding.addr).nodup haddrs
      have ih := ih hgood' (((List.sublist_append_left bs [x]).map _).nodup hdiff) haddrs'
      obtain ⟨hcore, hmem⟩ := insortAll_core hgood' haddrs'
      obtain ⟨hg, hh⟩ := hgood x (by simp)
      have hstep : insortAll (bs ++ [x]) = insortBinding2 (insortAll bs) x := by
        rw [insortAll, List.foldl_append]
        rfl
      -- no binding gives way, so the host list is as before
      have hhalf : (insortBinding (insortAll bs) .guest x.settle).host = (insortAll bs).host := by
        rcases insortBinding_cases .guest (x := x.settle) hg (fun y hy => (hcore.good y hy).1)
            hcore.addrs with ⟨-, l₁, old, l₂, hsplit, hwords, -⟩ | ⟨l₁, l₂, -, -, -, hres⟩
        · have hold : old ∈ (insortAll bs).guest := by
            have hin : old ∈ (insortAll bs).head .guest := by rw [hsplit]; simp
            exact hin
          obtain ⟨b, hb, rfl⟩ := hmem old hold
          have heq : b.guest.path = x.guest.path := ((hgood' b hb).1.1.eq_iff hg.1).mpr hwords
          rw [GuestsDistinct, List.map_append, List.nodup_append] at hdiff
          exact absurd heq (hdiff.2.2 _ (List.mem_map_of_mem hb) _ (by simp))
        · rw [hres]
          rfl
      have hhostgood : ∀ y ∈ (insortAll bs).host, y.host.Good := fun y hy =>
        (hcore.good y (hcore.perm.mem_iff.mp hy)).2
      rw [hstep, List.filter_append, List.map_append, ← ih]
      show ((insortBinding (insortBinding (insortAll bs) .guest x.settle) .host
        x.settle).host).filter _ = _
      rcases @insortBinding_cases (insortBinding (insortAll bs) .guest x.settle) .host
          x.settle hh
          (by show ∀ y ∈ (insortBinding (insortAll bs) .guest x.settle).host, _
              rw [hhalf]; exact hhostgood)
          (by show AddrsDistinct (insortBinding (insortAll bs) .guest x.settle).host
              rw [hhalf]; exact (hcore.perm.map _).nodup_iff.mpr hcore.addrs) with
        ⟨hside, -⟩ | ⟨m₁, m₂, hsplit, hslot, -, hres⟩
      · exact absurd rfl hside
      · have hsplit : (insortBinding (insortAll bs) .guest x.settle).host = m₁ ++ m₂ := hsplit
        rw [hhalf] at hsplit
        have hnew : (insortBinding (insortBinding (insortAll bs) .guest x.settle) .host
            x.settle).host = m₁ ++ x.settle :: m₂ := by
          rw [hres]
          rfl
        rw [hnew, hsplit]
        by_cases hx : x.words .host = w
        · -- nothing with the same host path stands behind
          have hbehind : m₂.filter (fun b => b.words .host = w) = [] := by
            rw [List.filter_eq_nil_iff]
            intro y hy hyw
            have hyw : y.words .host = w := by simpa using hyw
            exact hslot.2 y hy (by rw [Binding.settle_words, hx, hyw])
          simp [List.filter_append, hbehind, hx]
        · simp [List.filter_append, hx]

/-! ## The copy -/

/-- The bindings `new_child` allocates, from the address `addr` on. -/
def relabel : Nat → List Binding → List Binding
  | _, [] => []
  | addr, b :: bs =>
      ⟨addr, .ofCStr b.host.path, .ofCStr b.guest.path, false⟩ :: relabel (addr + 1) bs

theorem copyLists_eq (addr : Nat) (bs : List Binding) :
    copyLists addr bs = insortAll (relabel addr bs) := by
  unfold copyLists insortAll
  generalize (⟨[], [], []⟩ : Bindings) = lists
  induction bs generalizing lists addr with
  | nil => rfl
  | cons b bs ih => exact ih (addr + 1) (insortBinding3 lists addr b.host.path b.guest.path)

/-- A binding apart from its address. -/
def Binding.anon (b : Binding) : Binding := { b with addr := 0 }

theorem relabel_anon (hgood : ∀ b ∈ bs, b.guest.Good ∧ b.host.Good) (hset : ∀ b ∈ bs, b.settle = b)
    (addr : Nat) :
    ((relabel addr bs).map Binding.settle).map Binding.anon = bs.map Binding.anon := by
  induction bs generalizing addr with
  | nil => rfl
  | cons b bs ih =>
      have ih := ih (fun y hy => hgood y (List.mem_cons_of_mem _ hy))
        (fun y hy => hset y (List.mem_cons_of_mem _ hy)) (addr + 1)
      obtain ⟨hg, hh⟩ := hgood b List.mem_cons_self
      have hpath : ∀ {p : Path}, p.Good → Path.ofCStr p.path = p := fun hp => by
        rw [Path.ofCStr, ← hp.2]
      rw [relabel, List.map_cons, List.map_cons, List.map_cons, ih, hpath hg, hpath hh]
      conv_rhs => rw [← hset b List.mem_cons_self]
      rfl

theorem mem_relabel {addr : Nat} {y : Binding} (h : y ∈ relabel addr bs) :
    addr ≤ y.addr ∧ ∃ b ∈ bs, y.host = .ofCStr b.host.path ∧ y.guest = .ofCStr b.guest.path := by
  induction bs generalizing addr with
  | nil => cases h
  | cons b bs ih =>
      rcases List.mem_cons.mp h with rfl | h
      · exact ⟨Nat.le_refl _, b, List.mem_cons_self, rfl, rfl⟩
      · obtain ⟨hle, c, hc, hh, hg⟩ := ih h
        exact ⟨by omega, c, List.mem_cons_of_mem _ hc, hh, hg⟩

theorem relabel_addrs (addr : Nat) (bs : List Binding) : AddrsDistinct (relabel addr bs) := by
  induction bs generalizing addr with
  | nil => exact List.nodup_nil
  | cons b bs ih =>
      refine List.nodup_cons.mpr ⟨fun hmem => ?_, ih (addr + 1)⟩
      obtain ⟨y, hy, heq⟩ := List.mem_map.mp hmem
      have hle := (mem_relabel hy).1
      simp only at heq
      omega

theorem relabel_guests {addr : Nat} (h : GuestsDistinct bs) :
    GuestsDistinct (relabel addr bs) := by
  have hmap : ∀ addr, (relabel addr bs).map (fun b => b.guest.path) =
      bs.map fun b => b.guest.path := by
    induction bs with
    | nil => exact fun _ => rfl
    | cons b bs ih =>
        intro addr
        rw [relabel, List.map_cons, List.map_cons, ih (List.nodup_cons.mp h).2]
        rfl
  rw [GuestsDistinct, hmap]
  exact h

section Copy

variable {bindings : Bindings} (h : ListInv bindings) (addr : Nat)

include h

theorem relabel_good : ∀ y ∈ relabel addr bindings.guest, y.guest.Good ∧ y.host.Good := by
  intro y hy
  obtain ⟨-, b, hb, hh, hg⟩ := mem_relabel hy
  obtain ⟨hguest, hhost⟩ := h.good b hb
  rw [hh, hg]
  exact ⟨Path.good_ofCStr hguest.1, Path.good_ofCStr hhost.1⟩

/-- The bindings of the copy are those of the original. -/
theorem copyLists_perm :
    ((copyLists addr bindings.guest).guest.map Binding.anon).Perm
      (bindings.guest.map Binding.anon) := by
  have hgood := relabel_good h addr
  obtain ⟨hperm, -⟩ := insortAll_guest (fun b hb => (hgood b hb).1) (relabel_guests h.distinct)
    (relabel_addrs addr bindings.guest)
  rw [copyLists_eq, ← relabel_anon h.good h.settled addr]
  exact hperm.map _

/-- **The copy is in order.** -/
theorem copyLists_inv : ListInv (copyLists addr bindings.guest) := by
  have hcore := (insortAll_core (relabel_good h addr) (relabel_addrs addr bindings.guest)).1
  obtain ⟨root, hroot, hslash, -⟩ := h.getRoot
  obtain ⟨copy, hcopy, heq⟩ := List.mem_map.mp
    ((copyLists_perm h addr).mem_iff.mpr (List.mem_map_of_mem hroot))
  rw [copyLists_eq] at hcopy ⊢
  have hguest : copy.anon.guest.path = root.anon.guest.path := by rw [heq]
  exact hcore.withRoot hcopy (hguest.trans hslash)

/-- A binding and its copy. -/
theorem copyLists_mem {c : Binding} (hc : c ∈ (copyLists addr bindings.guest).guest) :
    ∃ b ∈ bindings.guest, b.anon = c.anon :=
  List.mem_map.mp ((copyLists_perm h addr).mem_iff.mp (List.mem_map_of_mem hc))

theorem mem_copyLists {b : Binding} (hb : b ∈ bindings.guest) :
    ∃ c ∈ (copyLists addr bindings.guest).guest, c.anon = b.anon :=
  List.mem_map.mp ((copyLists_perm h addr).mem_iff.mpr (List.mem_map_of_mem hb))

/-- The copy has the same root. -/
theorem copyLists_root : getRoot (copyLists addr bindings.guest) = getRoot bindings := by
  obtain ⟨root, hroot, hslash, hget⟩ := h.getRoot
  obtain ⟨copy, hcopy, hcslash, hcget⟩ := (copyLists_inv h addr).getRoot
  obtain ⟨b, hb, heq⟩ := copyLists_mem h addr hcopy
  have hguest : b.anon.guest.path = copy.anon.guest.path := by rw [heq]
  have hsame : b = root := h.distinct.inj hb hroot (hguest.trans (hcslash.trans hslash.symm))
  have hhost : b.anon.host.path = copy.anon.host.path := by rw [heq]
  rw [hget, hcget, ← hsame]
  exact hhost.symm

theorem copyLists_hidden (p : CStr) :
    hiddenHost (copyLists addr bindings.guest) p = hiddenHost bindings p := by
  rw [hiddenHost, hiddenHost, belongsToGuestfs, belongsToGuestfs, copyLists_root h addr]

/-- **The guest list of the copy answers as the original.** -/
theorem copyLists_guest {p : CStr} (hp : p ≠ []) :
    (getBinding (copyLists addr bindings.guest) .guest p).map Binding.anon =
      (getBinding bindings .guest p).map Binding.anon := by
  have hcopy := copyLists_inv h addr
  have hanon : ∀ l : List Binding, (l.find? (Binding.contains .guest p)).map Binding.anon =
      (l.map Binding.anon).find? (Binding.contains .guest p) := by
    intro l
    rw [List.find?_map]
    rfl
  have hdeep : ∀ {bs : Bindings}, ListInv bs →
      DeepestFirst (Binding.words .guest) (bs.guest.map Binding.anon) := by
    intro bs hbs
    exact List.pairwise_map.mpr hbs.deepest
  rw [getBinding_guest hcopy.guest_good, getBinding_guest h.guest_good, hanon, hanon]
  refine (hdeep hcopy).find?_perm (hdeep h) (copyLists_perm h addr) ?_ ?_
  · intro x hx y hy hwords
    obtain ⟨a, ha, rfl⟩ := List.mem_map.mp hx
    obtain ⟨b, hb, rfl⟩ := List.mem_map.mp hy
    have hpath := ((hcopy.good a ha).1.1.eq_iff (hcopy.good b hb).1.1).mpr hwords
    rw [hcopy.distinct.inj ha hb hpath]
  · intro x hx y hy
    obtain ⟨a, ha, rfl⟩ := List.mem_map.mp hx
    obtain ⟨b, hb, rfl⟩ := List.mem_map.mp hy
    exact Binding.contains_chain .guest (hcopy.good a ha).1 (hcopy.good b hb).1 hp

/-- The first binding of a host path in the copy is the first one in the guest
list of the original. -/
theorem copyLists_first (w : List CStr) :
    ((copyLists addr bindings.guest).host.find? (fun b => b.words .host = w)).map Binding.anon =
      (bindings.guest.find? (fun b => b.words .host = w)).map Binding.anon := by
  have hstable := insortAll_host_words (relabel_good h addr) (relabel_guests h.distinct)
    (relabel_addrs addr bindings.guest) w
  have hanon : ∀ l : List Binding, (l.find? (fun b => b.words .host = w)).map Binding.anon =
      (l.map Binding.anon).find? (fun b => b.words .host = w) := by
    intro l
    rw [List.find?_map]
    rfl
  have hsettle : (relabel addr bindings.guest).find? (fun b => b.words .host = w) =
      (relabel addr bindings.guest).find? (fun b => b.settle.words .host = w) := by
    simp
  rw [copyLists_eq, ← List.head?_filter, hstable, List.head?_map, List.head?_filter, hsettle,
    hanon bindings.guest, ← relabel_anon h.good h.settled addr, List.find?_map, List.find?_map,
    Option.map_map, Option.map_map]
  rfl

end Copy

/-- The bindings a lookup by host path chooses from are those of one host path,
the deepest that contains the path. -/
theorem ListInv.lookup_host_words {bindings : Bindings} (h : ListInv bindings) {p : CStr}
    {b : Binding} (hp : p ≠ []) (hfind : bindings.host.find? (Binding.contains .host p) = some b) :
    bindings.host.find? (fun y => y.words .host = b.words .host) = some b ∧
      ∀ y ∈ bindings.guest, y.contains .host p = true → y.words .host <+: b.words .host := by
  have hchain : ∀ x ∈ bindings.host, ∀ y ∈ bindings.host, x.contains .host p = true →
      y.contains .host p = true → x.words .host <+: y.words .host ∨ y.words .host <+: x.words .host :=
    fun x hx y hy => Binding.contains_chain .host (h.host_good x hx) (h.host_good y hy) hp
  have hkey : ∀ x ∈ bindings.host, ∀ y ∈ bindings.host, x.words .host = y.words .host →
      x.contains .host p = y.contains .host p := by
    intro x hx y hy heq
    rw [Bool.eq_iff_iff, Binding.contains_iff .host (h.host_good x hx) hp,
      Binding.contains_iff .host (h.host_good y hy) hp, heq]
  exact ⟨DeepestFirst.find?_key hkey hfind,
    fun y hy => h.hostDeepest.find?_deepest hchain hfind y (h.perm.mem_iff.mpr hy)⟩

/-- **What a lookup by host path finds in the copy**: the first binding of the
guest list with the host path that the original finds. -/
theorem copyLists_host {bindings : Bindings} (h : ListInv bindings) (addr : Nat) {p : CStr}
    (hp : p ≠ []) : (getBinding (copyLists addr bindings.guest) .host p).map Binding.anon =
      (getBinding bindings .host p).bind fun b =>
        (bindings.guest.find? fun y => y.words .host = b.words .host).map Binding.anon := by
  have hcopy := copyLists_inv h addr
  rw [getBinding_eq .host hcopy.host_good, getBinding_eq .host h.host_good, copyLists_hidden h addr]
  by_cases hhidden : hiddenHost bindings p = true
  · simp [hhidden]
  · simp only [hhidden, Bool.false_eq_true, and_false, if_false]
    show ((copyLists addr bindings.guest).host.find? _).map _ = (bindings.host.find? _).bind _
    -- a binding contains a path if and only if its copy does
    have hiff : ∀ {b c : Binding}, b.anon = c.anon →
        b.contains .host p = c.contains .host p ∧ b.words .host = c.words .host := by
      intro b c heq
      have hpath : b.anon.host = c.anon.host := by rw [heq]
      have hpath : b.host = c.host := hpath
      simp only [Binding.contains, Binding.words, Binding.ref, hpath, and_self]
    cases hfind : bindings.host.find? (Binding.contains .host p) with
    | none =>
        have hno : (copyLists addr bindings.guest).host.find? (Binding.contains .host p) = none := by
          rw [List.find?_eq_none] at hfind ⊢
          intro c hc
          obtain ⟨b, hb, heq⟩ := copyLists_mem h addr (hcopy.perm.mem_iff.mp hc)
          rw [← (hiff heq).1]
          exact hfind b (h.perm.mem_iff.mpr hb)
        rw [hno]
        rfl
    | some b =>
        obtain ⟨-, hdeep⟩ := h.lookup_host_words hp hfind
        have hb := h.perm.mem_iff.mp (List.mem_of_find?_eq_some hfind)
        obtain ⟨b', hb', heq'⟩ := mem_copyLists h addr hb
        cases hcfind : (copyLists addr bindings.guest).host.find? (Binding.contains .host p) with
        | none =>
            have hno := List.find?_eq_none.mp hcfind b' (hcopy.perm.mem_iff.mpr hb')
            rw [(hiff heq').1] at hno
            exact absurd (List.find?_some hfind) hno
        | some c =>
            obtain ⟨hcfirst, hcdeep⟩ := hcopy.lookup_host_words hp hcfind
            have hc := hcopy.perm.mem_iff.mp (List.mem_of_find?_eq_some hcfind)
            obtain ⟨c', hc', heq⟩ := copyLists_mem h addr hc
            have hle₁ : c.words .host <+: b.words .host := by
              rw [← (hiff heq).2]
              refine hdeep c' hc' ?_
              rw [(hiff heq).1]
              exact List.find?_some hcfind
            have hle₂ : b.words .host <+: c.words .host := by
              rw [← (hiff heq').2]
              refine hcdeep b' hb' ?_
              rw [(hiff heq').1]
              exact List.find?_some hfind
            have hwords : c.words .host = b.words .host := hle₁.eq_of_length_le hle₂.length_le
            have hfirst := copyLists_first h addr (b.words .host)
            rw [← hwords, hcfirst, hwords] at hfirst
            exact hfirst

end PRoot
