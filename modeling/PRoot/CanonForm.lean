import PRoot.CanonRun
import PRoot.ListEdit

/-!
# Canonicalization yields canonical paths

A run of `canonicalize` edits the binding lists when it builds glue, and it
walks along texts read from links.  Both keep to canonical paths.

* `SysInv`: what holds of the state between any two operations;
* `SysInv.insort`, `substituteBindingStat_inv`: a new binding keeps it, and so
  does glue;
* `linkText_ne_nil`: the text of a link is never empty;
* `CanonRun.inv`: a run keeps the invariant of the state, its nested invocations
  yield canonical paths, and the outermost one a canonical path with a final
  "/" or "/." where the user path asks for one.
-/

namespace PRoot

open SepPath

variable {W : Type} {k : Kernel W}

/-- What PRoot relies on in the host: the text of a link is not empty, real paths
and temporary directories are canonical, and its working directory is absolute. -/
structure Kernel.Posix (k : Kernel W) : Prop where
  readlink_ne_nil : ∀ w path text, k.readlink w path = .ok text → text ≠ []
  realpath_canonical : ∀ w path real, k.realpath w path = .ok real → Canonical real
  temp_canonical : ∀ w name w' path, k.createTempDirectory w name = (w', some path) →
    Canonical path ∧ path.getLast? ≠ some '.'
  getcwd_absolute : ∀ w cwd, k.getcwd w = .ok cwd → cwd.head? = some '/'

/-- **The invariant of the state.**  The lists of all tracees are in order and
their bindings allocated; working directories and glue are canonical. -/
structure SysInv (sys : Sys W) : Prop where
  lists : ∀ t ∈ sys.tracee :: sys.others, ListInv (sys.bindingsOf t)
  fresh : ∀ t ∈ sys.tracee :: sys.others, ∀ b ∈ (sys.bindingsOf t).guest, b.addr < sys.nextAddr
  cwd : ∀ t ∈ sys.tracee :: sys.others, Canonical (sys.fsOf t).cwd
  exe : ∀ t ∈ sys.tracee :: sys.others, t.exe ≠ []
  glue : ∀ t ∈ sys.tracee :: sys.others, ∀ glue, t.glue = some glue → Canonical glue

variable {glue : CStr}

namespace SysInv

variable {sys : Sys W}

theorem bindings (h : SysInv sys) : ListInv sys.bindings := h.lists _ List.mem_cons_self

theorem bindings_fresh (h : SysInv sys) : ∀ b ∈ sys.bindings.guest, b.addr < sys.nextAddr :=
  h.fresh _ List.mem_cons_self

theorem cwd_canonical (h : SysInv sys) : Canonical sys.cwd := h.cwd _ List.mem_cons_self

/-- A tracee that is found is one of them. -/
theorem getTracee_mem {pid : Int} {t : Tracee} (h : sys.getTracee pid = some t) :
    t ∈ sys.tracee :: sys.others := by
  unfold Sys.getTracee at h
  split at h
  · rw [← Option.some.inj h]
    exact List.mem_cons_self
  · exact List.mem_cons_of_mem _ (List.mem_of_find?_eq_some h)

/-- Changes of the host do not matter. -/
theorem withWorld (h : SysInv sys) (world : W) : SysInv { sys with world } := ⟨h.1, h.2, h.3, h.4, h.5⟩

/-- A change of the lists of the tracee at hand that keeps them in order. -/
theorem withBindings (h : SysInv sys) {bindings : Bindings} {nextAddr : Nat}
    (hinv : ListInv bindings) (hle : sys.nextAddr ≤ nextAddr)
    (hfresh : ∀ b ∈ bindings.guest, b.addr < nextAddr) :
    SysInv { sys.setBindings bindings with nextAddr } where
  lists t ht := by
    show ListInv (if (sys.fsOf t).bindings = (sys.fsOf sys.tracee).bindings then bindings
      else sys.lists (sys.fsOf t).bindings)
    split
    · exact hinv
    · exact h.lists t ht
  fresh t ht b hb := by
    have hb : b ∈ (if (sys.fsOf t).bindings = (sys.fsOf sys.tracee).bindings then bindings
      else sys.lists (sys.fsOf t).bindings).guest := hb
    split at hb
    · exact hfresh b hb
    · exact Nat.lt_of_lt_of_le (h.fresh t ht b hb) hle
  cwd := h.cwd
  exe := h.exe
  glue := h.glue

/-- **A new binding between canonical paths keeps the invariant.** -/
theorem insort (h : SysInv sys) {host guest : CStr} (hhost : Canonical host)
    (hguest : Canonical guest) : SysInv (sys.insortBinding3 host guest) := by
  have hfresh : ∀ b ∈ sys.bindings.guest, b.addr ≠ sys.nextAddr := fun b hb =>
    Nat.ne_of_lt (h.bindings_fresh b hb)
  have hx : (⟨sys.nextAddr, .ofCStr host, .ofCStr guest, false⟩ : Binding).guest.Good :=
    Path.good_ofCStr hguest
  have hinv := h.bindings.insort hx (Path.good_ofCStr hhost) hfresh
  have hmem := (h.bindings.toListCore.insort hx (Path.good_ofCStr hhost) hfresh).2
  refine h.withBindings hinv (Nat.le_succ _) fun b hb => ?_
  rcases (hmem b).mp hb with rfl | ⟨hb, -⟩
  · exact Nat.lt_succ_self _
  · exact Nat.lt_succ_of_lt (h.bindings_fresh b hb)

/-- The tracee at hand in another form, in the same name space. -/
theorem withTracee (h : SysInv sys) {world : W} {tracee : Tracee}
    (hfs : tracee.fs = sys.tracee.fs) (hexe : tracee.exe ≠ [])
    (hglue : ∀ glue, tracee.glue = some glue → Canonical glue) :
    SysInv { sys with world, tracee } where
  lists := List.forall_mem_cons.mpr ⟨by
    show ListInv (sys.lists (sys.spaces tracee.fs).bindings)
    rw [hfs]
    exact h.bindings, (List.forall_mem_cons.mp h.lists).2⟩
  fresh := List.forall_mem_cons.mpr ⟨by
    show ∀ b ∈ (sys.lists (sys.spaces tracee.fs).bindings).guest, b.addr < sys.nextAddr
    rw [hfs]
    exact h.bindings_fresh, (List.forall_mem_cons.mp h.fresh).2⟩
  cwd := List.forall_mem_cons.mpr ⟨by
    show Canonical (sys.spaces tracee.fs).cwd
    rw [hfs]
    exact h.cwd_canonical, (List.forall_mem_cons.mp h.cwd).2⟩
  exe := List.forall_mem_cons.mpr ⟨hexe, (List.forall_mem_cons.mp h.exe).2⟩
  glue := List.forall_mem_cons.mpr ⟨hglue, (List.forall_mem_cons.mp h.glue).2⟩

/-- The glue directory of the tracee at hand. -/
theorem withGlue (h : SysInv sys) {world : W} (hglue : Canonical glue) :
    SysInv { sys with world, tracee := { sys.tracee with glue := some glue } } := by
  refine h.withTracee rfl (h.exe sys.tracee List.mem_cons_self) fun g hg => ?_
  cases hg
  exact hglue

end SysInv

/-! ## Glue -/

variable {guestPath : CStr}

theorem createBinding_inv {sys : Sys W} (h : SysInv sys) {type : FileType} (hglue : Canonical glue)
    (hguest : Canonical guestPath) :
    SysInv (createBinding sys glue guestPath type).1 := by
  unfold createBinding
  split
  · exact h
  · exact h.insort hglue hguest

variable {finality : Finality}

theorem afterMake_inv {sys : Sys W} (h : SysInv sys) {type : FileType} {belongs : Bool}
    {status : Except Errno Unit} (hglue : Canonical glue) (hguest : Canonical guestPath) :
    SysInv (afterMake sys glue guestPath type finality belongs status).1 := by
  unfold afterMake
  split
  · exact h
  · split
    · exact h
    · exact createBinding_inv h hglue hguest

variable {hostPath : CStr}

theorem buildGlueIn_inv {sys : Sys W} (h : SysInv sys) {glueType : FileType}
    (hglue : Canonical glue) (hguest : Canonical guestPath) :
    SysInv (buildGlueIn k sys glue glueType guestPath hostPath finality).1 := by
  unfold buildGlueIn
  by_cases hpollute : k.dontPolluteRootfs ∧ ¬ (comparePaths glue hostPath).contains
  · rw [if_pos hpollute]
    exact createBinding_inv h hglue hguest
  · rw [if_neg hpollute]
    exact afterMake_inv (h.withWorld _) hglue hguest

theorem buildGlue_inv (hk : k.Posix) {sys : Sys W} (h : SysInv sys) {glueType : FileType}
    (hguest : Canonical guestPath) :
    SysInv (buildGlue k sys glueType guestPath hostPath finality).1 := by
  unfold buildGlue
  split
  · rename_i glue hglue
    exact buildGlueIn_inv h (h.glue _ List.mem_cons_self glue hglue) hguest
  · split
    · exact h.withWorld _
    · rename_i glue htemp
      have hglue := (hk.temp_canonical _ _ _ _ htemp).1
      exact buildGlueIn_inv (h.withGlue hglue) hglue hguest

/-- **Looking up a canonical path keeps the invariant**, with or without glue. -/
theorem substituteBindingStat_inv (hk : k.Posix) {sys sys' : Sys W} (h : SysInv sys)
    {r : Except Errno (Bool × CStr)} (hguest : Canonical guestPath)
    (hs : substituteBindingStat k sys finality guestPath = (sys', r)) : SysInv sys' := by
  have hs' : sys' = (substituteBindingStat k sys finality guestPath).1 := by rw [hs]
  rw [hs']
  unfold substituteBindingStat
  split
  · exact h
  · split
    · exact h
    · exact h
    · exact buildGlue_inv hk h hguest

/-! ## Where canonicalization stops -/

variable {base : CStr}

/-- What is under /proc, or /proc itself, is absolute and not "/". -/
theorem procPath_covers (h : (comparePaths procPath base).contains = true) :
    ∃ rest, base = procPath ++ rest := by
  have hne : base ≠ [] := by
    rintro rfl
    exact absurd h (by decide)
  have hproc : Canonical procPath := by decide
  obtain ⟨rest, hrest, -⟩ := (comparePaths_contains_iff hproc hne).mp h
  exact ⟨rest, hrest⟩

theorem head_of_procPath (h : (comparePaths procPath base).contains = true) :
    base.head? = some '/' := by
  obtain ⟨rest, rfl⟩ := procPath_covers h
  rfl

variable {component path : CStr}

/-- `readlink_proc` declines to follow entries of "/proc/<PID>/fd" only. -/
theorem readlinkProc_stop {sys : Sys W} {comparison : Comparison}
    (h : readlinkProc sys base component comparison = .ok (.dontCanonicalize path)) :
    path = base ++ '/' :: component ∧ (strtol component).converted = true ∧
      comparePaths (procPidFdPath (atoi (base.drop 6))) base = .pathsAreEqual := by
  have hsub : ∀ (name text : CStr) (otherwise : Except Errno Action),
      substitute component name text otherwise = .ok (.dontCanonicalize path) →
      otherwise = .ok (.dontCanonicalize path) := by
    intro name text otherwise hs
    unfold substitute at hs
    split at hs
    · split at hs <;> cases hs
    · exact hs
  unfold readlinkProc at h
  split at h
  · split at h <;> cases h
  · simp only at h
    split at h
    · cases h
    · split at h
      · unfold readlinkProcPid at h
        split at h
        · cases h
        · have h₃ := hsub _ _ _ (hsub _ _ _ (hsub _ _ _ h))
          cases h₃
      · split at h
        · rename_i heq
          unfold readlinkProcPidFd at h
          simp only at h
          split at h
          · cases h
          · rename_i hnum
            split at h
            · cases h
            · cases h
              exact ⟨rfl, not_not.mp fun hc => hnum (Or.inr hc), heq⟩
        · cases h
      · cases h
  · cases h

theorem readHostLink_ne_stop {sys : Sys W} :
    readHostLink k sys hostPath ≠ .ok (.stop path) := by
  unfold readHostLink
  split
  · simp
  · split
    · simp
    · rename_i text _ _
      cases detranslatePath sys text (some hostPath) <;> simp [Except.map]

variable {g : CStr}

/-- The directory of a link in /proc, under either of its names. -/
theorem procBase_eq {sys : Sys W} {comparison : Comparison}
    (h : procBase sys g = (comparison, base)) :
    comparison = comparePaths procPath base ∧
      (base = g ∨ base = (substituteBinding sys.bindings .guest g).1) := by
  unfold procBase at h
  simp only at h
  split at h
  · cases h
    exact ⟨rfl, Or.inl rfl⟩
  · split at h
    · cases h
      exact ⟨rfl, Or.inr rfl⟩
    · cases h
      exact ⟨rfl, Or.inl rfl⟩

/-- **The only paths canonicalization stops at are entries of "/proc/<PID>/fd".** -/
theorem linkText_stop {sys : Sys W}
    (h : linkText k sys finality g component hostPath = .ok (.stop path)) :
    ∃ base, (base = g ∨ base = (substituteBinding sys.bindings .guest g).1) ∧
      (comparePaths procPath base).contains = true ∧ finality = .finalNormal ∧
      readlinkProc sys base component (comparePaths procPath base) =
        .ok (.dontCanonicalize path) := by
  unfold linkText at h
  rcases hbase : procBase sys g with ⟨comparison, base⟩
  obtain ⟨rfl, hor⟩ := procBase_eq hbase
  rw [hbase] at h
  simp only at h
  split at h
  · rename_i hcontains
    split at h
    · cases h
    · cases h
    · rename_i hread
      split at h
      · rename_i hfin
        cases h
        exact ⟨base, hor, hcontains, hfin, hread⟩
      · exact absurd h readHostLink_ne_stop
    · exact absurd h readHostLink_ne_stop
  · exact absurd h readHostLink_ne_stop

/-! ## The text of a link -/

theorem substitutePathPrefix_ne_nil {new : CStr} {n m : Nat} (hp : path ≠ []) (hnew : new ≠ []) :
    (substitutePathPrefix path n new m).1 ≠ [] := by
  unfold substitutePathPrefix
  split
  · simp only
    split
    · rename_i hlen
      intro hnil
      have := congrArg List.length hnil
      rw [List.length_drop, List.length_nil] at this
      exact hlen this
    · simp [slash]
  · split
    · simp only
      split
      · exact hp
      · split
        · simp [hnew]
        · exact hnew
    · simp only
      split
      · exact hp
      · simp [hnew]

theorem substituteBinding_ne_nil {bindings : Bindings} (h : ListInv bindings) (side : Side)
    (hside : side ≠ .pending) (hp : path ≠ []) :
    (substituteBinding bindings side path).1 ≠ [] := by
  unfold substituteBinding
  split
  · exact hp
  · rename_i b hget
    have hb : b ∈ bindings.guest := by
      have hmem : b ∈ bindings.head side := List.mem_of_find?_eq_some hget
      cases side with
      | pending => exact absurd rfl hside
      | guest => exact hmem
      | host => exact h.perm.mem_iff.mp hmem
    split
    · exact hp
    · refine substitutePathPrefix_ne_nil hp ?_
      obtain ⟨hg, hh⟩ := h.good b hb
      cases side with
      | pending => exact absurd rfl hside
      | guest => exact hh.1.ne_nil
      | host => exact hg.1.ne_nil

theorem comparePaths_longer {p q : CStr} (hp : Canonical p)
    (h : comparePaths p q = .path1IsPrefix) : (trim p).length < q.length := by
  have hq : q ≠ [] := by
    rintro rfl
    have hnone : comparePaths p [] = .pathsAreNotComparable := if_pos (Or.inr rfl)
    rw [hnone] at h
    cases h
  rw [comparePaths_eq hp.ne_nil hq] at h
  have hstrip : strip p = trim p := by
    conv_lhs => rw [hp.2]
    rw [strip_render (comps_words p), hp.trim_eq]
  split at h
  · cases h
  · split at h
    · rename_i hin
      rw [hstrip] at hin
      exact Nat.lt_of_lt_of_le hin.length_lt (strip_isLead q).length_le
    · split at h <;> cases h

theorem detranslateBinding_ne_nil {bindings : Bindings} (h : ListInv bindings) {path' : CStr}
    {sanityCheck followBinding : Bool} {n : Nat} (hp : path ≠ [])
    (hd : detranslateBinding bindings path sanityCheck followBinding = .ok (path', n)) :
    path' ≠ [] := by
  have hroot : ∀ {path'}, detranslateRoot bindings path sanityCheck = .ok (path', n) →
      path' ≠ [] := by
    intro path' hr
    obtain ⟨root, hrmem, -, hget⟩ : ∃ root ∈ bindings.guest, root.guest.path = slash ∧
        getRoot bindings = root.host.path := by
      obtain ⟨init, root, hlist, hslash⟩ := h.root
      exact ⟨root, by rw [hlist]; simp, hslash, by rw [getRoot, hlist, List.getLast?_concat]⟩
    have hgood := (h.good root hrmem).2.1
    unfold detranslateRoot at hr
    rw [hget] at hr
    split at hr
    · rename_i hcmp
      have hlong := comparePaths_longer hgood hcmp
      have hcut : (if root.host.path.length = 1 then 0 else root.host.path.length) =
          (trim root.host.path).length := by
        by_cases hs : root.host.path = slash
        · rw [hs]
          rfl
        · rw [if_neg (mt hgood.length_eq_one.mp hs), trim, if_neg hs]
      simp only [hcut, Except.ok.injEq, Prod.mk.injEq] at hr
      rw [← hr.1]
      intro hnil
      have := congrArg List.length hnil
      rw [List.length_take, List.length_drop, List.length_nil] at this
      omega
    · cases hr
      simp [slash]
    · split at hr
      · cases hr
      · cases hr
        exact hp
  unfold detranslateBinding at hd
  split at hd
  · have hsub := substituteBinding_ne_nil h .host (by simp) hp
    split at hd
    · rename_i heq
      rw [heq] at hsub
      cases hd
      exact hsub
    · rename_i heq
      rw [heq] at hsub
      cases hd
      exact hsub
    · exact hroot hd
  · exact hroot hd

/-- What `readlink_proc` emulates is not empty. -/
theorem readlinkProc_ne_nil {sys : Sys W} (h : SysInv sys) {text : CStr} {comparison : Comparison}
    (hr : readlinkProc sys base component comparison = .ok (.canonicalize text)) :
    text ≠ [] := by
  have hsub : ∀ (name t : CStr) (otherwise : Except Errno Action), t ≠ [] →
      (otherwise = .ok (.canonicalize text) → text ≠ []) →
      substitute component name t otherwise = .ok (.canonicalize text) → text ≠ [] := by
    intro name t otherwise ht hother hs
    unfold substitute at hs
    split at hs
    · split at hs
      · cases hs
      · cases hs
        exact ht
    · exact hother hs
  unfold readlinkProc at hr
  split at hr
  · split at hr
    · cases hr
    · cases hr
      simp [procPidPath]
  · simp only at hr
    split at hr
    · cases hr
    · split at hr
      · unfold readlinkProcPid at hr
        split at hr
        · cases hr
        · rename_i t ht
          have hmem := SysInv.getTracee_mem ht
          have hrootne : getRoot (sys.bindingsOf t) ≠ [] := by
            obtain ⟨init, root, hlist, -⟩ := (h.lists t hmem).root
            rw [getRoot, hlist, List.getLast?_concat]
            exact ((h.lists t hmem).good root (by rw [hlist]; simp)).2.1.ne_nil
          refine hsub _ _ _ (h.exe t hmem) ?_ hr
          refine hsub _ _ _ (h.cwd t hmem).ne_nil ?_
          exact hsub _ _ _ hrootne (fun hd => by cases hd)
      · split at hr
        · unfold readlinkProcPidFd at hr
          simp only at hr
          split at hr
          · cases hr
          · split at hr <;> cases hr
        · cases hr
      · cases hr
  · cases hr

theorem detranslatePath_ne_nil {sys : Sys W} (h : SysInv sys) {path' : CStr}
    {referrer : Option CStr} {n : Nat} (hp : path ≠ [])
    (hd : detranslatePath sys path referrer = .ok (path', n)) : path' ≠ [] := by
  unfold detranslatePath at hd
  split at hd
  · cases hd
  · split at hd
    · cases hd
      exact hp
    · split at hd
      · exact detranslateBinding_ne_nil h.bindings hp hd
      · split at hd
        · split at hd
          · cases hd
          · rename_i result hres
            cases hd
            unfold readlinkProc2 at hres
            split at hres
            · cases hres
            · simp only at hres
              split at hres
              · cases hres
              · split at hres
                · split at hres
                  · cases hres
                  · rename_i hne
                    cases hres
                    exact hne
                · cases hres
          · exact detranslateBinding_ne_nil h.bindings hp hd
        · split at hd
          · exact detranslateBinding_ne_nil h.bindings hp hd
          · exact detranslateBinding_ne_nil h.bindings hp hd

/-- **The text of a link is never empty.** -/
theorem linkText_ne_nil (hk : k.Posix) {sys : Sys W} (h : SysInv sys) {text : CStr}
    (ht : linkText k sys finality g component hostPath = .ok (.text text)) : text ≠ [] := by
  have hhost : readHostLink k sys hostPath = .ok (.text text) → text ≠ [] := by
    intro hr
    unfold readHostLink at hr
    split at hr
    · cases hr
    · rename_i raw hraw
      split at hr
      · cases hr
      · cases hd : detranslatePath sys raw (some hostPath) with
        | error e =>
            rw [hd] at hr
            cases hr
        | ok res =>
            rw [hd] at hr
            obtain ⟨path', n⟩ := res
            cases hr
            exact detranslatePath_ne_nil h (hk.readlink_ne_nil _ _ _ hraw) hd
  unfold linkText at ht
  rcases hbase : procBase sys g with ⟨comparison, base⟩
  rw [hbase] at ht
  simp only at ht
  split at ht
  · split at ht
    · cases ht
    · rename_i hr
      cases ht
      exact readlinkProc_ne_nil h hr
    · split at ht
      · cases ht
      · exact hhost ht
    · exact hhost ht
  · exact hhost ht

/-! ## Whole runs -/

/-- A canonical path, with a final "/" or "/." or without. -/
def Marked (p : CStr) : Prop :=
  ∃ g, Canonical g ∧ (p = g ∨ p = withSlash g ∨ p = withDot g)

/-- An invocation that is still under way has words left, or is at "/". -/
def Frame.Tidy (f : Frame) : Prop :=
  f.finality.isFinal = false → comps f.cursor ≠ [] ∨ f.guestPath = slash

/-- What a pass hands over. -/
def Pass.Good : Pass → Prop
  | .fail _ => True
  | .next finality cursor guestPath =>
      Canonical guestPath ∧ (finality.isFinal = false → comps cursor ≠ [])
  | .stop path => Canonical path
  | .follow finality cursor _ text => text ≠ [] ∧ (finality.isFinal = false → comps cursor ≠ [])

theorem joinPaths_child {c r : CStr} (hg : Canonical g) (hc : IsName c)
    (h : joinPaths [g, c] = .ok r) : r = render (comps g ++ [c]) ∧ Canonical r := by
  rw [joinPaths_name hg hc.isWord] at h
  obtain ⟨rfl, -⟩ := fitJoin_ok h
  exact ⟨rfl, (canonical_child hg hc).1⟩

/-- Joining the empty component of "/" stays there. -/
theorem joinPaths_slash_empty {r : CStr} (h : joinPaths [slash, []] = .ok r) : r = slash := by
  rw [joinPaths_empty (by simp [slash])] at h
  exact (fitJoin_ok h).1

theorem substituteBinding_canonical {bindings : Bindings} (h : ListInv bindings) (hg : Canonical g)
    : Canonical (substituteBinding bindings .guest g).1 := by
  obtain ⟨b, hb, hsub⟩ := h.substitute_guest hg.head
  rw [hsub]
  simp only
  split
  · obtain ⟨hgood, hhost⟩ := h.good b hb.1
    have hcov := (h.covers hb.1 hg.ne_nil).mp hb.2.1
    rw [hg.2] at hcov
    obtain ⟨t, ht⟩ := (covers_render_iff '/' (comps_words _) (comps_words _)).mp hcov
    rw [Binding.reroot, reroot_render hhost.1 hgood.1 hg ht.symm]
    exact canonical_render (reroot_names hhost.1 hg ht.symm)
  · exact hg

/-- The path at which canonicalization ends, in an entry of "/proc/<PID>/fd". -/
theorem linkText_stop_canonical {sys : Sys W} (h : SysInv sys) (hg : Canonical g)
    (hc : component = [] ∨ IsName component)
    (hs : linkText k sys finality g component hostPath = .ok (.stop path)) : Canonical path := by
  obtain ⟨base, hbase, hcontains, -, hread⟩ := linkText_stop hs
  have hcanon : Canonical base := by
    rcases hbase with rfl | rfl
    · exact hg
    · exact substituteBinding_canonical h.bindings hg
  obtain ⟨rfl, hconv, -⟩ := readlinkProc_stop hread
  have hname : IsName component := by
    rcases hc with rfl | hc
    · exact absurd hconv (by decide)
    · exact hc
  have hne : base ≠ slash := by
    rintro rfl
    exact absurd hcontains (by decide)
  have hpath : base ++ '/' :: component = render (comps base ++ [component]) := by
    rw [← withSlash_append_name hcanon, withSlash, if_neg (hcanon.last_ne.resolve_left hne)]
    simp
  rw [hpath]
  exact (canonical_child hcanon hname).1

/-- **What a pass hands over is canonical.** -/
theorem pass_inv (hk : k.Posix) {sys sys' : Sys W} (h : SysInv sys) {deref : Bool} {cursor : CStr}
    {log : List Event} {result : Pass} (hg : Canonical g) (htidy : comps cursor ≠ [] ∨ g = slash)
    (hp : pass k sys deref g cursor = (sys', log, result)) : SysInv sys' ∧ result.Good := by
  -- the pass for a component that is a name, or none at "/"
  have hcomponent : ∀ {component : CStr} {finality : Finality} {cur scratch : CStr},
      (IsName component ∨ component = [] ∧ g = slash) →
      (finality.isFinal = false → comps cur ≠ []) →
      joinPaths [g, component] = .ok scratch →
      SysInv (passComponent k sys deref finality cur g component scratch).1 ∧
        (passComponent k sys deref finality cur g component scratch).2.Good := by
    intro component finality cur scratch hc hcur hjoin
    have hscratch : Canonical scratch := by
      rcases hc with hc | ⟨rfl, rfl⟩
      · exact (joinPaths_child hg hc hjoin).2
      · rw [joinPaths_slash_empty hjoin]
        exact canonical_slash
    have henter : (enterComponent finality cur g component).Good := by
      rw [enterComponent, hjoin]
      exact ⟨hscratch, hcur⟩
    unfold passComponent
    rcases hs : substituteBindingStat k sys finality scratch with ⟨sys'', e | ⟨isLink, hostPath⟩⟩
    · exact ⟨substituteBindingStat_inv hk h hscratch hs, trivial⟩
    · have hinv := substituteBindingStat_inv hk h hscratch hs
      simp only
      split
      · exact ⟨hinv, henter⟩
      · split
        · exact ⟨hinv, trivial⟩
        · rename_i path hlink
          refine ⟨hinv, linkText_stop_canonical hinv hg ?_ hlink⟩
          exact hc.elim Or.inr fun hc => Or.inl hc.1
        · rename_i text hlink
          exact ⟨hinv, linkText_ne_nil hk hinv hlink, hcur⟩
  have hspec := nextComponent_spec cursor
  unfold pass at hp
  cases hnext : nextComponent cursor with
  | error e =>
      rw [hnext] at hp
      cases hp
      exact ⟨h, trivial⟩
  | ok r =>
      obtain ⟨component, finality, cur⟩ := r
      rw [hnext] at hp hspec
      simp only at hp
      have hword : component ≠ ['.'] → component ≠ ['.', '.'] →
          IsName component ∨ component = [] ∧ g = slash := by
        intro hdot hdotdot
        cases hspec with
        | empty hnil => exact Or.inr ⟨rfl, htidy.resolve_left (not_not.mpr hnil)⟩
        | last hlast _ =>
            exact Or.inl ⟨comps_words cursor _ (by rw [hlast]; simp), hdot, hdotdot⟩
        | more hmore _ _ _ _ =>
            exact Or.inl ⟨comps_words cursor _ (by rw [hmore]; simp), hdot, hdotdot⟩
      have hcur : finality.isFinal = false → comps cur ≠ [] := by
        intro hfin
        cases hspec with
        | empty _ => cases hfin
        | last _ _ =>
            split at hfin <;> cases hfin
        | more _ _ hmore _ _ => exact hmore
      split at hp
      · cases hp
        refine ⟨h, hg, fun hfin => hcur ?_⟩
        cases finality <;> simp_all [Finality.isFinal]
      · rename_i hdot
        split at hp
        · cases hp
          refine ⟨h, (popComponent_canonical hg).1, fun hfin => hcur ?_⟩
          cases finality <;> simp_all [Finality.isFinal]
        · rename_i hdotdot
          split at hp
          · cases hp
            exact ⟨h, trivial⟩
          · rename_i scratch hjoin
            have hres := hcomponent (hword hdot hdotdot) hcur hjoin
            simp only [Prod.mk.injEq] at hp
            obtain ⟨rfl, -, rfl⟩ := hp
            exact hres

theorem exitStage_marked {level : Nat} {r : CStr} (hg : Canonical g)
    (h : exitStage level finality g = .ok r) :
    if level = 0 then Marked r else Canonical r := by
  unfold exitStage at h
  by_cases hlevel : level = 0
  · rw [if_pos hlevel] at h ⊢
    split at h
    · rw [joinPaths_empty hg.ne_nil] at h
      exact ⟨g, hg, Or.inr (Or.inl (fitJoin_ok h).1)⟩
    · rw [joinPaths_relative hg.ne_nil (by simp)] at h
      exact ⟨g, hg, Or.inr (Or.inr (fitJoin_ok h).1)⟩
    · cases h
      exact ⟨g, hg, Or.inl rfl⟩
  · rw [if_neg hlevel] at h ⊢
    cases h
    exact hg

theorem enterStage_tidy {userPath : CStr} {level : Nat} (huser : userPath ≠ [])
    (hg : Canonical guestPath) (h : enterStage k userPath guestPath level = .ok base) :
    Canonical base ∧ (comps userPath ≠ [] ∨ base = slash) := by
  unfold enterStage at h
  split at h
  · cases h
  · split at h
    · cases h
    · split at h
      · rename_i hrel
        split at h
        · cases h
        · cases h
          refine ⟨hg, Or.inl fun hnil => hrel ?_⟩
          -- nothing but separators would be absolute
          have hall := (dropWhile_eq_nil_iff userPath).mpr hnil
          cases userPath with
          | nil => exact absurd rfl huser
          | cons x xs =>
              have hx := List.dropWhile_eq_nil_iff.mp hall x List.mem_cons_self
              simpa using hx
      · cases h
        exact ⟨canonical_slash, Or.inr rfl⟩

theorem Frame.nested_level_ne (f : Frame) (base text : CStr) : (f.nested base text).level ≠ 0 :=
  Nat.succ_ne_zero _

/-- **A run keeps the invariant and yields canonical paths.** -/
theorem CanonRun.inv (hk : k.Posix) {sys : Sys W} {f : Frame} {out : Outcome W}
    (h : CanonRun k sys f out) (hsys : SysInv sys) (hg : Canonical f.guestPath)
    (htidy : f.Tidy) :
    SysInv out.sys ∧
      ∀ r, out.result = .ok r → if f.level = 0 then Marked r else Canonical r := by
  induction h with
  | final hf => exact ⟨hsys, fun r hr => exitStage_marked hg hr⟩
  | fail hf hp => exact ⟨(pass_inv hk hsys hg (htidy hf) hp).1, fun r hr => by cases hr⟩
  | stop hf hp =>
      obtain ⟨hsys', hpath⟩ := pass_inv hk hsys hg (htidy hf) hp
      refine ⟨hsys', fun r hr => ?_⟩
      cases hr
      split
      · exact ⟨_, hpath, Or.inl rfl⟩
      · exact hpath
  | next hf hp hrest ih =>
      obtain ⟨hsys', hg', hcur⟩ := pass_inv hk hsys hg (htidy hf) hp
      exact ih hsys' hg' fun hfin => Or.inl (hcur hfin)
  | refused hf hp he => exact ⟨(pass_inv hk hsys hg (htidy hf) hp).1, fun r hr => by cases hr⟩
  | lost hf hp he hinner hr ih =>
      obtain ⟨hsys', htext, -⟩ := pass_inv hk hsys hg (htidy hf) hp
      obtain ⟨hbase, hstart⟩ := enterStage_tidy htext hg he
      exact ⟨(ih hsys' hbase fun _ => hstart).1, fun r hr => by cases hr⟩
  | same hf hp he hinner hr ih =>
      obtain ⟨hsys', htext, -⟩ := pass_inv hk hsys hg (htidy hf) hp
      obtain ⟨hbase, hstart⟩ := enterStage_tidy htext hg he
      exact ⟨(ih hsys' hbase fun _ => hstart).1, fun r hr => by cases hr⟩
  | wrong hf hp he hinner hr hne hs ih =>
      obtain ⟨hsys', htext, -⟩ := pass_inv hk hsys hg (htidy hf) hp
      obtain ⟨hbase, hstart⟩ := enterStage_tidy htext hg he
      obtain ⟨hin, hres⟩ := ih hsys' hbase fun _ => hstart
      have hland := hres _ hr
      rw [if_neg (Frame.nested_level_ne _ _ _)] at hland
      exact ⟨substituteBindingStat_inv hk hin hland hs, fun r hr => by cases hr⟩
  | follow hf hp he hinner hr hne hs hrest ihinner ihrest =>
      obtain ⟨hsys', htext, hcur⟩ := pass_inv hk hsys hg (htidy hf) hp
      obtain ⟨hbase, hstart⟩ := enterStage_tidy htext hg he
      obtain ⟨hin, hres⟩ := ihinner hsys' hbase fun _ => hstart
      have hland := hres _ hr
      rw [if_neg (Frame.nested_level_ne _ _ _)] at hland
      exact ihrest (substituteBindingStat_inv hk hin hland hs) hland fun hfin => Or.inl (hcur hfin)

/-- **Canonicalization of a nonempty path** keeps the invariant and yields a
canonical path, but for a final "/" or "/.". -/
theorem canonicalize_inv (hk : k.Posix) {fuel : Nat} {sys : Sys W} {userPath : CStr} {deref : Bool}
    {out : Outcome W} (hsys : SysInv sys) (hg : Canonical guestPath) (huser : userPath ≠ [])
    (h : canonicalize k fuel sys userPath deref guestPath 0 = some out) :
    SysInv out.sys ∧ ∀ r, out.result = .ok r → Marked r := by
  rcases canonicalize_cases h with ⟨e, -, rfl⟩ | ⟨base, inner, he, hrun, rfl⟩
  · exact ⟨hsys, fun r hr => by cases hr⟩
  · obtain ⟨hbase, hstart⟩ := enterStage_tidy huser hg he
    obtain ⟨hout, hres⟩ := hrun.inv hk hsys hbase fun _ => hstart
    exact ⟨hout, fun r hr => by simpa [Frame.start] using hres r hr⟩

/-! ## Hosts and tracees that do -/

theorem lookup_mem {α β : Type} [BEq α] [LawfulBEq α] {l : List (α × β)} {a : α} {b : β}
    (h : l.lookup a = some b) : (a, b) ∈ l := by
  induction l with
  | nil => cases h
  | cons x xs ih =>
      obtain ⟨a', b'⟩ := x
      rw [List.lookup_cons] at h
      split at h
      · rename_i heq
        cases h
        rw [eq_of_beq heq]
        exact List.mem_cons_self
      · exact List.mem_cons_of_mem _ (ih h)

theorem Kernel.frozen_posix {files : List (CStr × FileType)} {links : List (CStr × CStr)}
    (hfiles : ∀ f ∈ files, Canonical f.1) (hlinks : ∀ l ∈ links, l.2 ≠ []) :
    (Kernel.frozen files links).Posix where
  readlink_ne_nil w path text h := by
    simp only [Kernel.frozen] at h
    split at h
    · rename_i heq
      cases h
      exact hlinks _ (lookup_mem heq)
    · cases h
  realpath_canonical w path real h := by
    simp only [Kernel.frozen] at h
    split at h
    · rename_i heq
      cases h
      exact hfiles _ (lookup_mem heq)
    · cases h
  temp_canonical w name w' path h := by
    simp only [Kernel.frozen] at h
    cases h
  getcwd_absolute w cwd h := by
    cases h
    rfl

theorem rootedSys_sysInv {host : CStr} (h : Canonical host) : SysInv (rootedSys host) := by
  have honly : ∀ t ∈ (rootedSys host).tracee :: (rootedSys host).others,
      t = (rootedSys host).tracee := fun t ht => List.mem_singleton.mp ht
  refine ⟨fun t ht => ?_, fun t ht b hb => ?_, fun t ht => canonical_slash, fun t ht => ?_,
    fun t ht glue hglue => ?_⟩
  · rw [honly t ht]
    exact rootedSys_inv h
  · rw [honly t ht] at hb
    rw [List.mem_singleton.mp hb]
    exact Nat.zero_lt_one
  · rw [honly t ht]
    exact List.cons_ne_nil _ _
  · rw [honly t ht] at hglue
    cases hglue

end PRoot
