import PRoot.Startup

/-!
# The order of the binding lists, for any paths

`chop_finality` and `pivot_root` may put guest paths into the lists that are not canonical.  What
is left of the order of the lists then:

* `Stacked`: no binding contains one behind it, and both lists hold the same bindings;
* `Stacked.insort`, `Stacked.remove`: insertions and removals keep that;
* `reached_stacked`: so it holds after start-up, and in every run.
-/

namespace PRoot

variable {W : Type} {k : Kernel W}

/-- **The order of the lists**, whatever the guest paths look like. -/
structure Stacked (bindings : Bindings) (nextAddr : Nat) : Prop where
  length : ∀ b ∈ bindings.guest, b.guest.length = b.guest.path.length
  addrs : AddrsDistinct bindings.guest
  fresh : ∀ b ∈ bindings.guest, b.addr < nextAddr
  perm : bindings.host.Perm bindings.guest
  order : bindings.guest.Pairwise fun a b => (comparePaths a.guest.path b.guest.path).contains = false

namespace Stacked

variable {bindings : Bindings} {nextAddr : Nat}

theorem compare_eq {a b : Binding} (ha : a.guest.length = a.guest.path.length)
    (hb : b.guest.length = b.guest.path.length) :
    a.compare .guest b = comparePaths a.guest.path b.guest.path := by
  show comparePaths2 a.guest.path a.guest.length b.guest.path b.guest.length = _
  rw [ha, hb]
  rfl

theorem empty (nextAddr : Nat) {bindings : Bindings} (hguest : bindings.guest = [])
    (hhost : bindings.host = []) : Stacked bindings nextAddr where
  length := by simp [hguest]
  addrs := by simp [hguest, AddrsDistinct]
  fresh := by simp [hguest]
  perm := by rw [hguest, hhost]
  order := by simp [hguest]

/-- The pending list does not matter, and addresses may be used up. -/
theorem mono (h : Stacked bindings nextAddr) {bindings' : Bindings} {nextAddr' : Nat}
    (hguest : bindings'.guest = bindings.guest) (hhost : bindings'.host = bindings.host)
    (hle : nextAddr ≤ nextAddr') : Stacked bindings' nextAddr' where
  length := by rw [hguest]; exact h.length
  addrs := by rw [hguest]; exact h.addrs
  fresh b hb := Nat.lt_of_lt_of_le (h.fresh b (hguest ▸ hb)) hle
  perm := by rw [hguest, hhost]; exact h.perm
  order := by rw [hguest]; exact h.order

/-- A removal. -/
theorem remove (h : Stacked bindings nextAddr) (b : Binding) :
    Stacked (removeBindingFromAllLists bindings b) nextAddr where
  length y hy := h.length y (unlink_subset hy)
  addrs := ((unlink_sublist b _).map _).nodup h.addrs
  fresh y hy := h.fresh y (unlink_subset hy)
  perm := h.perm.filter _
  order := h.order.sublist (unlink_sublist b _)

/-- A binding at its place, with what it contains before it and the rest behind. -/
theorem order_insert {l₁ l₂ : List Binding} {x : Binding}
    (h : (l₁ ++ l₂).Pairwise fun a b => (comparePaths a.guest.path b.guest.path).contains = false)
    (hdiff : ∀ y ∈ l₁ ++ l₂, comparePaths x.guest.path y.guest.path ≠ .pathsAreEqual)
    (hlast : ∀ z, l₁.getLast? = some z → (comparePaths x.guest.path z.guest.path).contains = true)
    (hbehind : ∀ y ∈ l₂, (comparePaths x.guest.path y.guest.path).contains = false) :
    (l₁ ++ x :: l₂).Pairwise fun a b =>
      (comparePaths a.guest.path b.guest.path).contains = false := by
  obtain ⟨hl₁, hl₂, hcross⟩ := List.pairwise_append.mp h
  refine List.pairwise_append.mpr ⟨hl₁, List.pairwise_cons.mpr ⟨hbehind, hl₂⟩, fun u hu v hv => ?_⟩
  rcases List.mem_cons.mp hv with rfl | hv
  · -- what contains `x` would contain the last binding before it
    rw [← Bool.not_eq_true]
    intro hcontains
    obtain ⟨init, z, rfl⟩ := List.eq_nil_or_concat l₁ |>.resolve_left (by rintro rfl; cases hu)
    rw [List.concat_eq_append] at hu hlast hl₁ hdiff
    have hz := hlast z (by simp)
    rcases List.mem_append.mp hu with hu | hu
    · have habove := comparePaths_trans hcontains hz
      rw [(List.pairwise_append.mp hl₁).2.2 u hu z (by simp)] at habove
      cases habove
    · obtain rfl := List.mem_singleton.mp hu
      exact hdiff u (by simp) (comparePaths_antisymm hz hcontains)
  · exact hcross u hu v hv

/-- A binding that takes the place of one that compares equal. -/
theorem order_replace {l₁ l₂ : List Binding} {old x : Binding}
    (h : (l₁ ++ old :: l₂).Pairwise fun a b =>
      (comparePaths a.guest.path b.guest.path).contains = false)
    (hequal : comparePaths x.guest.path old.guest.path = .pathsAreEqual) :
    (l₁ ++ x :: l₂).Pairwise fun a b =>
      (comparePaths a.guest.path b.guest.path).contains = false := by
  have hto : (comparePaths x.guest.path old.guest.path).contains = true := by rw [hequal]; rfl
  have hfrom : (comparePaths old.guest.path x.guest.path).contains = true := by
    obtain ⟨hx, hold, hstrip⟩ := comparePaths_equal_strip.mp hequal
    rw [comparePaths_equal_strip.mpr ⟨hold, hx, hstrip.symm⟩]
    rfl
  obtain ⟨hl₁, hl₂, hcross⟩ := List.pairwise_append.mp h
  obtain ⟨hbehind, hl₂⟩ := List.pairwise_cons.mp hl₂
  refine List.pairwise_append.mpr ⟨hl₁, List.pairwise_cons.mpr ⟨fun v hv => ?_, hl₂⟩,
    fun u hu v hv => ?_⟩
  · rw [← Bool.not_eq_true]
    intro hcontains
    have hold := comparePaths_trans hfrom hcontains
    rw [hbehind v hv] at hold
    cases hold
  · rcases List.mem_cons.mp hv with rfl | hv
    · rw [← Bool.not_eq_true]
      intro hcontains
      have hold := comparePaths_trans hcontains hto
      rw [hcross u hu old List.mem_cons_self] at hold
      cases hold
    · exact hcross u hu v (List.mem_cons_of_mem _ hv)

end Stacked

/-- **What `insort_binding2` does to the lists**: the new binding gets a place of its own, or
replaces the one it compares equal to. -/
inductive Inserted (bindings : Bindings) (x : Binding) : Bindings → Prop
  | beside {l₁ l₂ h₁ h₂ : List Binding} (guest : bindings.guest = l₁ ++ l₂)
      (host : bindings.host = h₁ ++ h₂) (place : IsPlace .guest x l₁ l₂)
      (alone : ∀ y ∈ bindings.guest, x.compare .guest y ≠ .pathsAreEqual) :
      Inserted bindings x ⟨bindings.pending, l₁ ++ x :: l₂, h₁ ++ x :: h₂⟩
  | replaces {l₁ l₂ h₁ h₂ : List Binding} {old : Binding}
      (guest : bindings.guest = l₁ ++ old :: l₂) (host : unlink old bindings.host = h₁ ++ h₂)
      (equal : x.compare .guest old = .pathsAreEqual) :
      Inserted bindings x ⟨unlink old bindings.pending, l₁ ++ x :: l₂, h₁ ++ x :: h₂⟩

section

variable {bindings : Bindings} {nextAddr : Nat}

theorem insortBinding_host (bindings : Bindings) (x : Binding) (h : AddrsDistinct bindings.host) :
    ∃ h₁ h₂, bindings.host = h₁ ++ h₂ ∧
      insortBinding bindings .host x = { bindings with host := h₁ ++ x :: h₂ } := by
  rcases insortBinding_place .host x h with ⟨hside, -⟩ | ⟨h₁, h₂, hsplit, -, -, hres⟩
  · exact absurd rfl hside
  · exact ⟨h₁, h₂, hsplit, hres⟩

theorem insortBinding2_inserted (h : Stacked bindings nextAddr) {x : Binding}
    (hfresh : ∀ b ∈ bindings.guest, b.addr ≠ x.addr) :
    Inserted bindings x.settle (insortBinding2 bindings x) := by
  have hhost : AddrsDistinct bindings.host := (h.perm.map _).nodup_iff.mpr h.addrs
  rw [insortBinding2]
  rcases insortBinding_place .guest x.settle h.addrs with
    ⟨-, l₁, old, l₂, hsplit, hequal, hres⟩ | ⟨l₁, l₂, hsplit, hplace, halone, hres⟩
  · have hguest : bindings.guest = l₁ ++ old :: l₂ := hsplit
    have hne : x.settle.addr ≠ old.addr := Ne.symm (hfresh old (by rw [hguest]; simp))
    have haddrs := h.addrs
    rw [hguest] at haddrs
    have hhalf : insortBinding bindings .guest x.settle =
        ⟨unlink old bindings.pending, l₁ ++ x.settle :: l₂, unlink old bindings.host⟩ := by
      rw [hres]
      show (⟨_, unlink old (l₁ ++ old :: x.settle :: l₂), _⟩ : Bindings) = _
      rw [unlink_replaced haddrs hne]
      rfl
    rw [hhalf]
    obtain ⟨h₁, h₂, hsplit', hres'⟩ := insortBinding_host
      ⟨unlink old bindings.pending, l₁ ++ x.settle :: l₂, unlink old bindings.host⟩ x.settle
      (((unlink_sublist old _).map _).nodup hhost)
    rw [hres']
    exact .replaces hguest hsplit' hequal
  · have hhalf : insortBinding bindings .guest x.settle =
        { bindings with guest := l₁ ++ x.settle :: l₂ } := hres
    rw [hhalf]
    obtain ⟨h₁, h₂, hsplit', hres'⟩ := insortBinding_host
      { bindings with guest := l₁ ++ x.settle :: l₂ } x.settle hhost
    rw [hres']
    exact .beside hsplit hsplit' hplace (halone (by decide))

theorem Inserted.mem {x : Binding} {bindings' : Bindings} (h : Inserted bindings x bindings')
    {b : Binding} (hb : b ∈ bindings'.guest) : b = x ∨ b ∈ bindings.guest := by
  cases h with
  | beside hguest _ _ _ =>
      rw [hguest]
      simp only [List.mem_append, List.mem_cons] at hb ⊢
      tauto
  | replaces hguest _ _ =>
      rw [hguest]
      simp only [List.mem_append, List.mem_cons] at hb ⊢
      tauto

/-- **An insertion keeps the order of the lists.** -/
theorem Stacked.insort (h : Stacked bindings nextAddr) {x : Binding}
    (hlen : x.guest.length = x.guest.path.length) (haddr : x.addr < nextAddr)
    (hfresh : ∀ b ∈ bindings.guest, b.addr ≠ x.addr) :
    Stacked (insortBinding2 bindings x) nextAddr := by
  have hinserted := insortBinding2_inserted h hfresh
  have hlength : ∀ b ∈ (insortBinding2 bindings x).guest,
      b.guest.length = b.guest.path.length := by
    intro b hb
    rcases hinserted.mem hb with rfl | hb
    · exact hlen
    · exact h.length b hb
  have hold : ∀ b ∈ (insortBinding2 bindings x).guest, b.addr < nextAddr := by
    intro b hb
    rcases hinserted.mem hb with rfl | hb
    · exact haddr
    · exact h.fresh b hb
  have hcompare : ∀ y ∈ bindings.guest, x.settle.compare .guest y =
      comparePaths x.settle.guest.path y.guest.path :=
    fun y hy => Stacked.compare_eq hlen (h.length y hy)
  generalize insortBinding2 bindings x = bindings' at hinserted hlength hold
  cases hinserted with
  | @beside l₁ l₂ h₁ h₂ hguest hhost hplace halone =>
      have horder := h.order
      have haddrs := h.addrs
      rw [hguest] at horder haddrs
      have hin : ∀ y, y ∈ l₁ ++ l₂ → y ∈ bindings.guest := fun y hy => hguest ▸ hy
      refine ⟨hlength, nodup_middle haddrs fun b hb => hfresh b (hin b hb), hold, ?_, ?_⟩
      · have hperm := h.perm
        rw [hguest, hhost] at hperm
        exact (List.perm_middle.trans (hperm.cons _)).trans List.perm_middle.symm
      · refine Stacked.order_insert horder (fun y hy => ?_) (fun z hz => ?_) fun y hy => ?_
        · rw [← hcompare y (hin y hy)]
          exact halone y (hin y hy)
        · rw [← hcompare z (hin z (List.mem_append_left _ (List.mem_of_getLast? hz)))]
          exact hplace.1 z hz
        · rw [← hcompare y (hin y (List.mem_append_right _ hy))]
          exact hplace.2 y hy
  | @replaces l₁ l₂ h₁ h₂ old hguest hhost hequal =>
      have horder := h.order
      have haddrs := h.addrs
      rw [hguest] at horder haddrs
      have hunlink : unlink old bindings.guest = l₁ ++ l₂ := by
        rw [hguest]
        exact unlink_split haddrs
      have hin : ∀ y, y ∈ l₁ ++ l₂ → y ∈ bindings.guest := fun y hy =>
        unlink_subset (hunlink ▸ hy)
      have hdistinct : AddrsDistinct (l₁ ++ l₂) := by
        rw [← hunlink]
        exact ((unlink_sublist old _).map _).nodup h.addrs
      refine ⟨hlength, nodup_middle hdistinct fun b hb => hfresh b (hin b hb), hold, ?_, ?_⟩
      · have hperm : (unlink old bindings.host).Perm (unlink old bindings.guest) :=
          h.perm.filter _
        rw [hunlink, hhost] at hperm
        exact (List.perm_middle.trans (hperm.cons _)).trans List.perm_middle.symm
      · rw [hcompare old (by rw [hguest]; simp)] at hequal
        exact Stacked.order_replace horder hequal

end

/-! ## Runs -/

/-- The lists of the tracee at hand are stacked. -/
def Sys.Stacked (sys : Sys W) : Prop := PRoot.Stacked sys.bindings sys.nextAddr

namespace Sys.Stacked

variable {sys : Sys W}

theorem insort (h : sys.Stacked) (host guest : CStr) : (sys.insortBinding3 host guest).Stacked := by
  have hnext : PRoot.Stacked sys.bindings (sys.nextAddr + 1) := h.mono rfl rfl (Nat.le_succ _)
  show PRoot.Stacked (sys.insortBinding3 host guest).bindings _
  rw [Sys.insortBinding3_bindings]
  exact hnext.insort rfl (Nat.lt_succ_self _) fun b hb => Nat.ne_of_lt (h.fresh b hb)

theorem remove (h : sys.Stacked) (b : Binding) : (sys.removeBinding b).Stacked := by
  show PRoot.Stacked (sys.setBindings _).bindings _
  rw [Sys.setBindings_bindings]
  exact PRoot.Stacked.remove h b

theorem stable : Stable fun sys : Sys W => sys.Stacked where
  world _ h := h
  glue _ h := h
  insort host guest h := h.insort host guest

theorem kept : Kept fun sys : Sys W => sys.Stacked where
  toStable := stable
  remove b h := h.remove b
  chdir cwd h := by
    show PRoot.Stacked (Sys.setCwd _ cwd).bindings _
    rw [Sys.setCwd_bindings]
    exact h

end Sys.Stacked

/-- **In every run the lists are stacked**, whatever the paths. -/
theorem reached_stacked {meets : Sys W → Op W → Prop} {start sys : Sys W}
    (hrun : Reached k meets start sys) (hstart : start.Stacked) : sys.Stacked := by
  induction hrun with
  | start => exact hstart
  | step hrun hop hstep ih => exact Sys.Stacked.kept.opRun ih hstep

/-! ## Start-up -/

theorem Sys.Stacked.settle {sys : Sys W} (h : sys.Stacked) {x : Binding}
    (hlen : x.guest.length = x.guest.path.length) (haddr : x.addr < sys.nextAddr)
    (hunused : ∀ y ∈ sys.bindings.guest, y.addr ≠ x.addr) :
    (sys.setBindings (insortBinding2 sys.bindings x)).Stacked := by
  show PRoot.Stacked (sys.setBindings _).bindings _
  rw [Sys.setBindings_bindings]
  exact PRoot.Stacked.insort h hlen haddr hunused

/-- One binding is initialized, and the others wait. -/
theorem initializeBinding_stacked {fuel : Nat} {sys sys' : Sys W} {b : Binding}
    (hsys : sys.Stacked) (hwaits : Waits sys b)
    (h : initializeBinding k fuel sys b = some sys') :
    sys'.Stacked ∧ ∀ y, y.addr ≠ b.addr → Waits sys y → Waits sys' y := by
  unfold initializeBinding at h
  split at h
  · simp only at h
    obtain ⟨out, hout, rfl⟩ := Option.map_eq_some_iff.mp h
    have htyped : (sys.setGlueType (some (glueTypeOf k sys.world b.host.path))).Stacked := hsys
    have hstacked : out.sys.Stacked := Sys.Stacked.stable.canonicalize htyped hout
    have hgrown : Grown sys out.sys := (canonicalize_grown hout).of_glueType
    cases out.result with
    | error e => exact ⟨hstacked, fun y _ hy => hy.grown hgrown⟩
    | ok guestPath =>
        have hself := hwaits.grown hgrown
        refine ⟨@Sys.Stacked.settle _ (out.sys.setGlueType none) hstacked _ rfl hself.addr
          hself.unused, fun y hy hyw => ?_⟩
        have hwait := hyw.grown hgrown
        have hleft : Waits (out.sys.setGlueType none) y :=
          ⟨hwait.path, hwait.guest, hwait.host, hwait.addr, hwait.unused⟩
        exact hleft.settled (Ne.symm hy)
  · obtain rfl := Option.some.inj h
    exact ⟨hsys.settle hwaits.guest hwaits.addr hwaits.unused, fun y hy hyw =>
      hyw.settled (Ne.symm hy)⟩

theorem initializeAll_stacked {fuel : Nat} {l : List Binding} (haddrs : AddrsDistinct l)
    {sys sys' : Sys W} (hsys : sys.Stacked) (hwaits : ∀ b ∈ l, Waits sys b)
    (h : initializeAll k fuel sys l = some sys') : sys'.Stacked := by
  induction l generalizing sys with
  | nil =>
      obtain rfl := Option.some.inj h
      exact hsys
  | cons b rest ih =>
      obtain ⟨mid, hmid, hrest⟩ := Option.bind_eq_some_iff.mp h
      obtain ⟨hstacked, hothers⟩ :=
        initializeBinding_stacked hsys (hwaits b List.mem_cons_self) hmid
      obtain ⟨hb, hdistinct⟩ := List.nodup_cons.mp haddrs
      refine ih hdistinct hstacked (fun y hy => hothers y (fun heq => hb ?_)
        (hwaits y (List.mem_cons_of_mem _ hy))) hrest
      exact List.mem_map.mpr ⟨y, hy, heq⟩

/-- **Start-up stacks the lists**, whatever the options are. -/
theorem initializeBindings_stacked {fuel : Nat} {sys sys' : Sys W} (hsys : Collecting sys)
    (h : initializeBindings k fuel sys = some sys') : sys'.Stacked := by
  unfold initializeBindings at h
  split at h
  · cases h
  · obtain ⟨all, hall, rfl⟩ := Option.map_eq_some_iff.mp h
    obtain ⟨hguest, hhost⟩ := hsys.empty
    have haddrs : AddrsDistinct sys.bindings.pending.reverse :=
      ((List.reverse_perm _).map _).nodup_iff.mpr hsys.pending.addrs
    have hstacked : all.Stacked := by
      refine initializeAll_stacked haddrs (Stacked.empty _ hguest hhost) (fun b hb => ?_) hall
      have hb := List.mem_reverse.mp hb
      exact ⟨(hsys.pending.guest b hb).1, (hsys.pending.guest b hb).2, hsys.pending.host b hb,
        hsys.fresh b hb, by simp [hguest]⟩
    show PRoot.Stacked (all.setBindings _).bindings _
    rw [Sys.setBindings_bindings]
    exact hstacked.mono rfl rfl (Nat.le_refl _)

theorem startUp_stacked (hk : k.Posix) {fuel : Nat} {boot start : Sys W}
    {options : List BindOption} (hboot : Collecting boot)
    (h : startUp k fuel boot options = some start) : start.Stacked := by
  obtain ⟨collected, hcollected, h⟩ := Option.bind_eq_some_iff.mp h
  obtain ⟨ready, hready, h⟩ := Option.bind_eq_some_iff.mp h
  have hcollecting :=
    preInitializeBindings_root hk (handleOptions_collecting hk hboot hcollected) hready
  exact initializeBindings_stacked hcollecting.1 h

end PRoot
