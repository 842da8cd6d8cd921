import PRoot.Frame
import PRoot.Pending

/-!
# Start-up, and the runs that follow

The lists that `initialize_bindings` makes of the pending ones, and what becomes
of them.

* `initializeBinding_inv`: a binding joins the lists in order, and those that
  still wait are not interfered with;
* `startUp_inv`: start-up yields lists in order;
* `mounts_ordered`: so they stay in every run whose steps resolve to paths
  `chop_finality` is right about;
* `mounts_disordered`: after `pivot_root(".", ".")` there is a binding of "/.".
-/

namespace PRoot

variable {W : Type} {k : Kernel W}

/-! ## Initializing the bindings -/

variable {sys : Sys W}

theorem SysInv.setGlueType (h : SysInv sys) (glueType : Option FileType) :
    SysInv (sys.setGlueType glueType) :=
  h.withTracee rfl (h.exe sys.tracee List.mem_cons_self) (h.glue sys.tracee List.mem_cons_self)

/-- A binding that waits to be initialized: it is allocated, but not in use. -/
structure Waits (sys : Sys W) (b : Binding) : Prop where
  path : b.guest.path.head? = some '/'
  guest : b.guest.length = b.guest.path.length
  host : b.host.Good
  addr : b.addr < sys.nextAddr
  unused : ∀ y ∈ sys.bindings.guest, y.addr ≠ b.addr

variable {sys' : Sys W}

theorem Waits.grown {b : Binding} (h : Waits sys b) (hgrown : Grown sys sys') :
    Waits sys' b where
  path := h.path
  guest := h.guest
  host := h.host
  addr := Nat.lt_of_lt_of_le h.addr hgrown.next
  unused y hy := by
    rcases hgrown.guest y hy with hy | hy
    · exact h.unused y hy
    · exact Ne.symm (Nat.ne_of_lt (Nat.lt_of_lt_of_le h.addr hy))

/-- Another binding is put into the lists. -/
theorem Waits.settled {b x : Binding} (h : Waits sys b) (hne : x.addr ≠ b.addr) :
    Waits (sys.setBindings (insortBinding2 sys.bindings x)) b where
  path := h.path
  guest := h.guest
  host := h.host
  addr := h.addr
  unused y hy := by
    rw [Sys.setBindings_bindings, insortBinding2, insortBinding_host_guest] at hy
    rcases mem_insortBinding .guest hy with rfl | hy
    · exact hne
    · exact h.unused y hy

/-- A waiting binding is put into the lists, under a canonical guest path. -/
theorem SysInv.settle (h : SysInv sys) {x : Binding} (hguest : x.guest.Good) (hhost : x.host.Good)
    (haddr : x.addr < sys.nextAddr) (hunused : ∀ y ∈ sys.bindings.guest, y.addr ≠ x.addr) :
    SysInv (sys.setBindings (insortBinding2 sys.bindings x)) := by
  have hmem := (h.bindings.toListCore.insort hguest hhost hunused).2
  refine h.withBindings (h.bindings.insort hguest hhost hunused) (Nat.le_refl _) fun b hb => ?_
  rcases (hmem b).mp hb with rfl | ⟨hb, -⟩
  · exact haddr
  · exact h.bindings_fresh b hb

/-- `initialize_binding` resolves the guest path of `b`, unless it is "/", to one
that `chop_finality` is right about. -/
def InitSound (k : Kernel W) (sys : Sys W) (b : Binding) : Prop :=
  b.guest.path ≠ slash → ∀ fuel out r, canonicalize k fuel
      (sys.setGlueType (some (glueTypeOf k sys.world b.host.path))) (bindingTarget b.guest.path).1
      (bindingTarget b.guest.path).2 slash 0 = some out →
    out.result = .ok r → ChopsRight r

theorem bindingTarget_ne_nil {p : CStr} (hp : p.head? = some '/') : (bindingTarget p).1 ≠ [] := by
  unfold bindingTarget
  split
  · rename_i hmark
    cases p with
    | nil => cases hp
    | cons x xs =>
        cases xs with
        | nil =>
            -- "/" does not end in '!'
            cases hp
            cases hmark
        | cons y ys => simp
  · rintro rfl
    cases hp

variable {fuel : Nat}

/-- **Initializing one binding** keeps the lists in order, and the others waiting. -/
theorem initializeBinding_inv (hk : k.Posix) {b : Binding} (hsys : SysInv sys)
    (hwaits : Waits sys b) (hsound : InitSound k sys b)
    (h : initializeBinding k fuel sys b = some sys') :
    SysInv sys' ∧ ∀ y, y.addr ≠ b.addr → Waits sys y → Waits sys' y := by
  have hne : b.guest.path ≠ [] := by
    intro hnil
    have hhead := hwaits.path
    rw [hnil] at hhead
    cases hhead
  unfold initializeBinding at h
  split at h
  · rename_i hnot
    have hsound := hsound fun hs => hnot ((comparePaths_slash_iff hne).mpr hs)
    simp only at h
    obtain ⟨out, hout, rfl⟩ := Option.map_eq_some_iff.mp h
    obtain ⟨hinv, hmarked⟩ := canonicalize_inv hk (hsys.setGlueType _) canonical_slash
      (bindingTarget_ne_nil hwaits.path) hout
    have hgrown : Grown sys out.sys := (canonicalize_grown hout).of_glueType
    cases hr : out.result with
    | error e => exact ⟨hinv, fun y _ hy => hy.grown hgrown⟩
    | ok guestPath =>
        have hcanon := (hmarked guestPath hr).chop (hsound fuel out guestPath hout hr)
        have hself := hwaits.grown hgrown
        refine ⟨(hinv.setGlueType none).settle (Path.good_ofCStr hcanon) hself.host hself.addr
          hself.unused, fun y hy hyw => ?_⟩
        have hwait := hyw.grown hgrown
        have hleft : Waits (out.sys.setGlueType none) y :=
          ⟨hwait.path, hwait.guest, hwait.host, hwait.addr, hwait.unused⟩
        exact hleft.settled (Ne.symm hy)
  · rename_i hslash
    obtain rfl := Option.some.inj h
    have hroot := (comparePaths_slash_iff hne).mp (not_not.mp hslash)
    have hguest : b.guest.Good := ⟨by rw [hroot]; exact canonical_slash, hwaits.guest⟩
    exact ⟨hsys.settle hguest hwaits.host hwaits.addr hwaits.unused,
      fun y hy hyw => hyw.settled (Ne.symm hy)⟩

/-- The guest paths of all bindings resolve right, each in the state it finds. -/
def InitAllSound (k : Kernel W) : Sys W → List Binding → Prop
  | _, [] => True
  | sys, b :: rest => InitSound k sys b ∧
      ∀ fuel sys', initializeBinding k fuel sys b = some sys' → InitAllSound k sys' rest

/-- The loop of `initialize_bindings`. -/
theorem initializeAll_inv (hk : k.Posix) {l : List Binding} (haddrs : AddrsDistinct l) :
    ∀ {sys sys' : Sys W}, SysInv sys → (∀ b ∈ l, Waits sys b) → InitAllSound k sys l →
      initializeAll k fuel sys l = some sys' → SysInv sys' := by
  induction l with
  | nil =>
      intro sys sys' hsys _ _ h
      obtain rfl := Option.some.inj h
      exact hsys
  | cons b rest ih =>
      intro sys sys' hsys hwaits hsound h
      obtain ⟨mid, hmid, hrest⟩ := Option.bind_eq_some_iff.mp h
      obtain ⟨hinv, hothers⟩ :=
        initializeBinding_inv hk hsys (hwaits b List.mem_cons_self) hsound.1 hmid
      obtain ⟨hb, hdistinct⟩ := List.nodup_cons.mp haddrs
      refine ih hdistinct hinv (fun y hy => hothers y (fun heq => hb ?_)
        (hwaits y (List.mem_cons_of_mem _ hy))) (hsound.2 fuel mid hmid) hrest
      exact List.mem_map.mpr ⟨y, hy, heq⟩

/-- The first binding to be initialized is the root, which needs no
canonicalization. -/
theorem initializeRoot_inv (h : Collecting sys) {root : Binding} (hroot : root.guest.path = slash)
    (hmem : root ∈ sys.bindings.pending) (hinit : initializeBinding k fuel sys root = some sys') :
    SysInv sys' ∧ ∀ y ∈ sys.bindings.pending, y.addr ≠ root.addr → Waits sys' y := by
  have hequal : comparePaths slash slash = .pathsAreEqual := by decide
  have hlists : ∀ y, y ∈ sys.bindings.guest → False := by
    intro y hy
    rw [h.empty.1] at hy
    cases hy
  have hcore : ListCore sys.bindings := by
    obtain ⟨hguest, hhost⟩ := h.empty
    refine ⟨?_, ?_, ?_, ?_, ?_, ?_, ?_⟩
    · exact fun b hb => (hlists b hb).elim
    · exact fun b hb => (hlists b hb).elim
    · rw [hguest]
      exact List.nodup_nil
    · rw [hguest]
      exact DeepestFirst.nil
    · rw [hguest, hhost]
    · rw [hhost]
      exact DeepestFirst.nil
    · rw [hguest]
      exact List.nodup_nil
  have hguest : root.guest.Good :=
    ⟨by rw [hroot]; exact canonical_slash, (h.pending.guest root hmem).2⟩
  obtain ⟨hcore', hiff⟩ := hcore.insort hguest (h.pending.host root hmem)
    fun b hb => (hlists b hb).elim
  have hinv := hcore'.withRoot ((hiff root.settle).mpr (Or.inl rfl)) hroot
  have honly : ∀ b ∈ (insortBinding2 sys.bindings root).guest, b = root.settle := by
    intro b hb
    rcases (hiff b).mp hb with hb | ⟨hb, -⟩
    · exact hb
    · exact (hlists b hb).elim
  unfold initializeBinding at hinit
  rw [if_neg (by rw [hroot, hequal]; simp)] at hinit
  obtain rfl := Option.some.inj hinit
  have hlone : ∀ t ∈ sys.tracee :: sys.others, t = sys.tracee := by
    intro t ht
    rw [h.alone] at ht
    exact List.mem_singleton.mp ht
  constructor
  · refine ⟨fun t ht => ?_, fun t ht b hb => ?_, fun t ht => ?_, fun t ht => ?_, fun t ht => ?_⟩
    · obtain rfl := hlone t ht
      show ListInv (sys.setBindings _).bindings
      rw [Sys.setBindings_bindings]
      exact hinv
    · obtain rfl := hlone t ht
      have hb : b ∈ (sys.setBindings _).bindings.guest := hb
      rw [Sys.setBindings_bindings] at hb
      rw [honly b hb]
      exact h.fresh root hmem
    · obtain rfl := hlone t ht
      exact h.cwd
    · obtain rfl := hlone t ht
      exact h.exe
    · obtain rfl := hlone t ht
      exact h.glue
  · intro y hy hne
    refine ⟨(h.pending.guest y hy).1, (h.pending.guest y hy).2, h.pending.host y hy,
      h.fresh y hy, fun b hb => ?_⟩
    rw [Sys.setBindings_bindings] at hb
    rw [honly b hb]
    exact Ne.symm hne

/-- The pending list does not matter any more. -/
theorem ListInv.clearPending {bindings : Bindings} (h : ListInv bindings) :
    ListInv { bindings with pending := [] } where
  good := h.good
  settled := h.settled
  distinct := h.distinct
  deepest := h.deepest
  perm := h.perm
  hostDeepest := h.hostDeepest
  addrs := h.addrs
  root := h.root

/-- The guest paths of the user's bindings resolve right at start-up. -/
def StartSound (k : Kernel W) (sys : Sys W) (options : List BindOption) : Prop :=
  ∀ collected ready, options.foldlM (handleOption k) sys = some collected →
    preInitializeBindings k collected = some ready →
    InitAllSound k ready ready.bindings.pending.reverse

/-- **Start-up yields lists in order.** -/
theorem startUp_inv (hk : k.Posix) {options : List BindOption} (hsys : Collecting sys)
    (hsound : StartSound k sys options) (h : startUp k fuel sys options = some sys') :
    SysInv sys' := by
  obtain ⟨collected, hcollected, h⟩ := Option.bind_eq_some_iff.mp h
  obtain ⟨ready, hready, h⟩ := Option.bind_eq_some_iff.mp h
  obtain ⟨hcollecting, hroot⟩ :=
    preInitializeBindings_root hk (handleOptions_collecting hk hsys hcollected) hready
  have hsound := hsound collected ready hcollected hready
  obtain ⟨init, root, hpending, hslash⟩ := (getPendingRoot_some_iff hcollecting.pending).mp hroot
  have hmem : root ∈ ready.bindings.pending := by rw [hpending]; simp
  have hrev : ready.bindings.pending.reverse = root :: init.reverse := by rw [hpending]; simp
  unfold initializeBindings at h
  rw [if_neg hroot] at h
  obtain ⟨all, hall, rfl⟩ := Option.map_eq_some_iff.mp h
  rw [hrev] at hall hsound
  obtain ⟨mid, hmid, hrest⟩ := Option.bind_eq_some_iff.mp hall
  obtain ⟨hinv, hwaits⟩ := initializeRoot_inv hcollecting hslash hmem hmid
  have haddrs : AddrsDistinct (root :: init.reverse) := by
    rw [← hrev]
    exact ((List.reverse_perm _).map _).nodup_iff.mpr hcollecting.pending.addrs
  obtain ⟨hnot, hdistinct⟩ := List.nodup_cons.mp haddrs
  have hall := initializeAll_inv hk hdistinct hinv (fun y hy => ?_) (hsound.2 fuel mid hmid) hrest
  · exact hall.withBindings hall.bindings.clearPending (Nat.le_refl _) hall.bindings_fresh
  · refine hwaits y (by rw [hpending]; simp [List.mem_reverse.mp hy]) fun heq => hnot ?_
    exact List.mem_map.mpr ⟨y, hy, heq⟩

/-! ## Runs -/

/-- A step that meets no path `chop_finality` is wrong about, builds no glue for
an empty path, and leaves no marker on `put_old`.  The working directory is
changed to canonical paths. -/
def Op.Sound (k : Kernel W) (sys : Sys W) : Op W → Prop
  | .mount srcUser targetUser fstype flags => MountSound k sys srcUser targetUser fstype flags
  | .umount targetUser => targetUser ≠ [] ∨ sys.tracee.glueType = none
  | .pivotRoot newRootUser putOldUser => PivotSound k sys newRootUser putOldUser
  | .translate _ _ _ => True
  | .chdir cwd => Canonical cwd
  | .host _ => True

/-- The states reached from `start` by operations that meet a condition. -/
inductive Reached (k : Kernel W) (meets : Sys W → Op W → Prop) (start : Sys W) : Sys W → Prop
  | start : Reached k meets start start
  | step {fuel : Nat} {sys sys' : Sys W} {op : Op W} (hrun : Reached k meets start sys)
      (hop : meets sys op) (hstep : op.run k fuel sys = some sys') : Reached k meets start sys'

theorem Sys.setCwd_bindingsOf (sys : Sys W) (cwd : CStr) (t : Tracee) :
    (sys.setCwd cwd).bindingsOf t = sys.bindingsOf t := by
  show sys.lists (if t.fs = sys.tracee.fs then { sys.spaces t.fs with cwd }
    else sys.spaces t.fs).bindings = sys.lists (sys.spaces t.fs).bindings
  split <;> rfl

theorem Sys.setCwd_bindings (sys : Sys W) (cwd : CStr) :
    (sys.setCwd cwd).bindings = sys.bindings := sys.setCwd_bindingsOf cwd sys.tracee

/-- Changing to a canonical working directory. -/
theorem SysInv.setCwd (h : SysInv sys) {cwd : CStr} (hcwd : Canonical cwd) :
    SysInv (sys.setCwd cwd) := by
  refine ⟨fun t ht => ?_, fun t ht b hb => ?_, fun t ht => ?_, h.exe, h.glue⟩
  · rw [Sys.setCwd_bindingsOf]
    exact h.lists t ht
  · rw [Sys.setCwd_bindingsOf] at hb
    exact h.fresh t ht b hb
  · show Canonical (if t.fs = sys.tracee.fs then { sys.spaces t.fs with cwd }
      else sys.spaces t.fs).cwd
    split
    · exact hcwd
    · exact h.cwd t ht

/-- One operation keeps the invariant of the state. -/
theorem Op.run_inv (hk : k.Posix) {op : Op W} (hsys : SysInv sys) (hsound : op.Sound k sys)
    (h : op.run k fuel sys = some sys') : SysInv sys' := by
  cases op with
  | mount srcUser targetUser fstype flags => exact emulateMount_inv hk hsys hsound h
  | umount targetUser => exact emulateUmount_inv hk hsys hsound h
  | pivotRoot newRootUser putOldUser => exact emulatePivotRoot_inv hk hsys hsound h
  | translate dirFd userPath derefFinal =>
      obtain ⟨out, hout, rfl⟩ := Option.map_eq_some_iff.mp h
      exact (translatePath_inv hk hsys hout).1
  | chdir cwd =>
      obtain rfl := Option.some.inj h
      exact hsys.setCwd hsound
  | host world =>
      obtain rfl := Option.some.inj h
      exact hsys.withWorld world

theorem Reached.inv (hk : k.Posix) {start : Sys W}
    (h : Reached k (fun sys op => op.Sound k sys) start sys) (hstart : SysInv start) :
    SysInv sys := by
  induction h with
  | start => exact hstart
  | step hrun hop hstep ih => exact Op.run_inv hk ih hop hstep

/-- A tracee before any option is read. -/
def bootSys : Sys Unit := .lone ⟨[], [], []⟩ 0

theorem bootSys_collecting : Collecting bootSys where
  alone := rfl
  empty := ⟨rfl, rfl⟩
  pending := ⟨by simp [bootSys, Sys.lone, Sys.bindings, Sys.bindingsOf], by
    simp [bootSys, Sys.lone, Sys.bindings, Sys.bindingsOf], List.nodup_nil, by
    simp [bootSys, Sys.lone, Sys.bindings, Sys.bindingsOf]⟩
  fresh := by simp [bootSys, Sys.lone, Sys.bindings, Sys.bindingsOf]
  cwd := canonical_slash
  exe := by decide
  glue := by simp [bootSys, Sys.lone]

/-- A host with the directory "/r" alone. -/
def rootHost : Kernel Unit := .frozen [("/r".toList, .dir)] []

theorem rootHost_posix : rootHost.Posix := Kernel.frozen_posix (by decide) (by decide)

end PRoot
