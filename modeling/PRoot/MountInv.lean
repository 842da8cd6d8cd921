import PRoot.MountPaths

/-!
# Mounts keep the lists in order

What each emulated call does to the invariant of the state.

* `translatePath_inv`, `resolveGuest_inv`: resolving a path keeps the invariant,
  and yields a canonical path but for a final marker;
* `emulateMount_inv`, `emulateUmount_inv`: so do mounting and unmounting, when
  `chop_finality` is right about the resolved paths;
* `pivotBinding_inv`, `switchRoot_inv`, `emulatePivotRoot_inv`: so does changing
  the root, when no final marker is left on `put_old` either.
-/

namespace PRoot

variable {W : Type} {k : Kernel W}

/-! ## Resolving the arguments -/

variable {fuel : Nat} {sys : Sys W} {userPath : CStr} {out : Outcome W}

/-- Translation keeps the invariant of the state, and its result is canonical
but for a final marker. -/
theorem translatePath_inv (hk : k.Posix) {dirFd : Int} {deref : Bool} (hsys : SysInv sys)
    (h : translatePath k fuel sys dirFd userPath deref = some out) :
    SysInv out.sys ∧ ∀ r, out.result = .ok r → Marked r := by
  rcases translatePath_cases h with
    ⟨e, rfl⟩ | ⟨base, joined, canon, hb, hj, hcanon, hout, -, hres⟩
  · exact ⟨hsys, fun r hr => by cases hr⟩
  · have hjoined : joined ≠ [] := joinPaths_ne_nil (translateBase_ne_nil hsys hb) hj
    obtain ⟨hinv, hmarked⟩ := canonicalize_inv hk hsys canonical_slash hjoined hcanon
    rw [hout]
    refine ⟨hinv, fun r hr => ?_⟩
    obtain ⟨g, changed, hg, hs⟩ := hres r hr
    have hm := substituteBinding_marked hinv.bindings (hmarked g hg)
    rwa [hs] at hm

/-- An invocation that has reached the last component returns. -/
theorem CanonRun.of_final {f : Frame} (h : CanonRun k sys f out) (hf : f.finality.isFinal = true) :
    out.result = exitStage f.level f.finality f.guestPath := by
  cases h with
  | final _ => rfl
  | fail hn _ => exact absurd (hn.symm.trans hf) (by simp)
  | stop hn _ => exact absurd (hn.symm.trans hf) (by simp)
  | next hn _ _ => exact absurd (hn.symm.trans hf) (by simp)
  | refused hn _ _ => exact absurd (hn.symm.trans hf) (by simp)
  | lost hn _ _ _ _ => exact absurd (hn.symm.trans hf) (by simp)
  | same hn _ _ _ _ => exact absurd (hn.symm.trans hf) (by simp)
  | wrong hn _ _ _ _ _ _ => exact absurd (hn.symm.trans hf) (by simp)
  | follow hn _ _ _ _ _ _ _ => exact absurd (hn.symm.trans hf) (by simp)

/-- Without glue, the empty path resolves to its base with a final "/", or to
where that leads. -/
theorem canonicalize_empty (hk : k.Posix) {guestPath r : CStr} {deref : Bool} (hsys : SysInv sys)
    (hg : Canonical guestPath) (hglue : sys.tracee.glueType = none)
    (h : canonicalize k fuel sys [] deref guestPath 0 = some out) (hr : out.result = .ok r) :
    Marked r := by
  rcases canonicalize_cases h with ⟨e, -, rfl⟩ | ⟨base, inner, he, hrun, rfl⟩
  · cases hr
  obtain rfl : guestPath = base := by
    unfold enterStage at he
    split at he
    · cases he
    · split at he
      · cases he
      · rw [if_pos (by simp), if_neg (by simp [hg.head])] at he
        exact Except.ok.inj he
  have hempty : nextComponent [] = .ok ([], .finalNormal, []) := by decide
  cases hrun with
  | final hf => cases hf
  | fail hf hp => cases hr
  | stop hf hp =>
      cases pass_spec hglue hp with
      | stop hnext _ _ _ _ htext =>
          cases hempty.symm.trans hnext
          cases hr
          exact ⟨_, linkText_stop_canonical hsys hg (Or.inl rfl) htext, Or.inl rfl⟩
  | next hf hp hrest =>
      cases pass_spec hglue hp with
      | here hnext => cases hempty.symm.trans hnext
      | up hnext => cases hempty.symm.trans hnext
      | enter hnext _ _ hjoin _ _ =>
          cases hempty.symm.trans hnext
          have hres := hrest.of_final rfl
          have hjoin : joinPaths [guestPath, []] = .ok _ := hjoin
          rw [joinPaths_empty hg.ne_nil] at hjoin
          obtain ⟨rfl, -⟩ := fitJoin_ok hjoin
          obtain rfl := Except.ok.inj (hr.symm.trans hres)
          exact ⟨guestPath, hg, Or.inr (Or.inl rfl)⟩
  | refused hf hp he' => cases hr
  | lost hf hp he' hinner hi => cases hr
  | same hf hp he' hinner hi => cases hr
  | wrong hf hp he' hinner hi hne hs => cases hr
  | follow hf hp he' hinner hi hne hs hrest =>
      obtain rfl := pass_static hglue hp
      cases pass_spec hglue hp with
      | follow hnext _ _ _ _ _ htext =>
          cases hempty.symm.trans hnext
          have hbase := enterStage_tidy (linkText_ne_nil hk hsys htext) hg he'
          have hland := (hinner.inv hk hsys hbase.1 fun _ => hbase.2).2 _ hi
          rw [if_neg (Frame.nested_level_ne _ _ _)] at hland
          have hres := hrest.of_final rfl
          obtain rfl := Except.ok.inj (hr.symm.trans hres)
          exact ⟨_, hland, Or.inl rfl⟩

/-- **Resolving an argument.**  An empty one would be looked up with a final "/",
which glue must not see. -/
theorem canonicalize_argument (hk : k.Posix) {guestPath : CStr} {deref : Bool} (hsys : SysInv sys)
    (hg : Canonical guestPath) (huser : userPath ≠ [] ∨ sys.tracee.glueType = none)
    (h : canonicalize k fuel sys userPath deref guestPath 0 = some out) :
    SysInv out.sys ∧ ∀ r, out.result = .ok r → Marked r := by
  by_cases hempty : userPath = []
  · subst hempty
    have hglue := huser.resolve_left (not_not.mpr rfl)
    exact ⟨by rw [canonicalize_static hglue h]; exact hsys,
      fun r hr => canonicalize_empty hk hsys hg hglue h hr⟩
  · exact canonicalize_inv hk hsys hg hempty h

/-- `guest_canonicalize`, before it chops. -/
theorem resolveGuest_inv (hk : k.Posix) (hsys : SysInv sys)
    (huser : userPath ≠ [] ∨ sys.tracee.glueType = none)
    (h : resolveGuest k fuel sys userPath = some out) :
    SysInv out.sys ∧ ∀ r, out.result = .ok r → Marked r := by
  unfold resolveGuest at h
  split at h
  · exact canonicalize_argument hk hsys canonical_slash huser h
  · unfold getcwd2 at h
    split at h
    · rename_i hcwd
      obtain rfl := Option.some.inj h
      exact ⟨hsys, fun r hr => by cases hr⟩
    · rename_i cwd hcwd
      split at hcwd
      · cases hcwd
      · obtain rfl := Except.ok.inj hcwd
        exact canonicalize_argument hk hsys hsys.cwd_canonical huser h

/-- The argument resolves in `sys` to a path `chop_finality` is right about, and
if it is empty no glue is built on the way. -/
structure ResolvesRight (k : Kernel W) (sys : Sys W) (userPath : CStr) : Prop where
  nonempty : userPath ≠ [] ∨ sys.tracee.glueType = none
  chops : ∀ fuel out r, resolveGuest k fuel sys userPath = some out → out.result = .ok r →
    ChopsRight r

theorem guestCanonicalize_inv (hk : k.Posix) (hsys : SysInv sys)
    (huser : ResolvesRight k sys userPath) (h : guestCanonicalize k fuel sys userPath = some out) :
    SysInv out.sys ∧ ∀ r, out.result = .ok r → Canonical r := by
  obtain ⟨resolved, hresolved, rfl⟩ := Option.map_eq_some_iff.mp h
  obtain ⟨hinv, hmarked⟩ := resolveGuest_inv hk hsys huser.nonempty hresolved
  refine ⟨hinv, fun r hr => ?_⟩
  cases hp : resolved.result with
  | error e =>
      simp only [hp, Except.map] at hr
      cases hr
  | ok p =>
      simp only [hp, Except.map] at hr
      obtain rfl := Except.ok.inj hr
      exact (hmarked p hp).chop (huser.chops fuel resolved p hresolved hp)

/-! ## Mounting and unmounting -/

variable {sys' : Sys W}

/-- The host side of a mount.  Only that of a bind mount may be chopped wrong. -/
theorem mountSource_inv (hk : k.Posix) {srcUser fstype : CStr} {flags : Nat} {source : Option CStr}
    (hsys : SysInv sys) (h : mountSource k fuel sys srcUser fstype flags = some (sys', source)) :
    SysInv sys' ∧ ∀ hostPath, source = some hostPath →
      Marked hostPath ∧ (flags &&& msBind = 0 → ChopsRight hostPath) := by
  have hfixed : ∀ {path : CStr}, Canonical path → path.getLast? ≠ some '.' →
      some (sys, some path) = some (sys', source) → SysInv sys' ∧ ∀ hostPath,
        source = some hostPath → Marked hostPath ∧ (flags &&& msBind = 0 → ChopsRight hostPath) := by
    intro path hpath hlast heq
    cases heq
    refine ⟨hsys, fun hostPath hs => ?_⟩
    obtain rfl := Option.some.inj hs
    exact ⟨⟨path, hpath, Or.inl rfl⟩, fun _ hdot => absurd hdot hlast⟩
  have hnone : some (sys, none) = some (sys', source) → SysInv sys' ∧ ∀ hostPath,
      source = some hostPath → Marked hostPath ∧ (flags &&& msBind = 0 → ChopsRight hostPath) := by
    intro heq
    cases heq
    exact ⟨hsys, fun hostPath hs => by cases hs⟩
  unfold mountSource at h
  split at h
  · exact hnone h
  · split at h
    · rename_i hbind
      obtain ⟨out, hout, heq⟩ := Option.map_eq_some_iff.mp h
      obtain ⟨hinv, hmarked⟩ := translatePath_inv hk hsys hout
      cases heq
      refine ⟨hinv, fun hostPath hs => ⟨hmarked hostPath ?_, fun hno => absurd hno hbind⟩⟩
      cases hr : out.result with
      | error e =>
          rw [hr] at hs
          cases hs
      | ok r =>
          rw [hr] at hs
          rw [Option.some.inj hs]
    · split at h
      · exact hfixed (by decide) (by decide) h
      · split at h
        · exact hfixed (by decide) (by decide) h
        · split at h
          · exact hfixed (by decide) (by decide) h
          · split at h
            · exact hfixed (by decide) (by decide) h
            · split at h
              · rcases htemp : k.createTempDirectory sys.world "proot-tmpfs-".toList with
                  ⟨world, tmpdir⟩
                rw [htemp] at h
                cases h
                refine ⟨hsys.withWorld world, fun hostPath hs => ?_⟩
                rw [hs] at htemp
                obtain ⟨hcanon, hlast⟩ := hk.temp_canonical _ _ _ _ htemp
                exact ⟨⟨hostPath, hcanon, Or.inl rfl⟩, fun _ hdot => absurd hdot hlast⟩
              · exact hnone h

/-- `emulate_mount` is called with paths `chop_finality` is right about. -/
def MountSound (k : Kernel W) (sys : Sys W) (srcUser targetUser fstype : CStr) (flags : Nat) :
    Prop :=
  ∀ fuel sys' hostPath, mountSource k fuel sys srcUser fstype flags = some (sys', some hostPath) →
    (flags &&& msBind ≠ 0 → ChopsRight hostPath) ∧ ResolvesRight k sys' targetUser

/-- **Mounting keeps the lists in order.** -/
theorem emulateMount_inv (hk : k.Posix) {srcUser targetUser fstype : CStr} {flags : Nat}
    (hsys : SysInv sys) (hsound : MountSound k sys srcUser targetUser fstype flags)
    (h : emulateMount k fuel sys srcUser targetUser fstype flags = some sys') : SysInv sys' := by
  obtain ⟨⟨mid, source⟩, hsource, h⟩ := Option.bind_eq_some_iff.mp h
  obtain ⟨hmid, hmarked⟩ := mountSource_inv hk hsys hsource
  cases source with
  | none =>
      obtain rfl := Option.some.inj h
      exact hmid
  | some hostPath =>
      obtain ⟨hbind, htarget⟩ := hsound fuel mid hostPath hsource
      obtain ⟨hmarked, hother⟩ := hmarked hostPath rfl
      have hchop : ChopsRight hostPath := by
        by_cases hflag : flags &&& msBind = 0
        · exact hother hflag
        · exact hbind hflag
      obtain ⟨out, hout, rfl⟩ := Option.map_eq_some_iff.mp h
      obtain ⟨hinv, hcanon⟩ := guestCanonicalize_inv hk hmid htarget hout
      cases hr : out.result with
      | error e => exact hinv
      | ok guestPath => exact hinv.insort (hmarked.chop hchop) (hcanon _ hr)

/-- Removing a binding keeps the invariant as long as "/" stays bound. -/
theorem SysInv.removeBinding (h : SysInv sys) {b root : Binding} (hroot : root ∈ sys.bindings.guest)
    (hslash : root.guest.path = slash) (hne : root.addr ≠ b.addr) :
    SysInv (sys.removeBinding b) := by
  have hmem : root ∈ (removeBindingFromAllLists sys.bindings b).guest :=
    List.mem_filter.mpr ⟨hroot, decide_eq_true hne⟩
  have hinv := (h.bindings.toListCore.remove b).withRoot hmem hslash
  exact h.withBindings hinv (Nat.le_refl _) fun y hy =>
    h.bindings_fresh y ((unlink_sublist b _).subset hy)

/-- **Unmounting keeps the lists in order**, whatever is left of the target. -/
theorem emulateUmount_inv (hk : k.Posix) {targetUser : CStr} (hsys : SysInv sys)
    (huser : targetUser ≠ [] ∨ sys.tracee.glueType = none)
    (h : emulateUmount k fuel sys targetUser = some sys') : SysInv sys' := by
  obtain ⟨out, hout, rfl⟩ := Option.map_eq_some_iff.mp h
  obtain ⟨resolved, hresolved, rfl⟩ := Option.map_eq_some_iff.mp hout
  have hinv := (resolveGuest_inv hk hsys huser hresolved).1
  cases hr : resolved.result.map chopFinality with
  | error e => exact hinv
  | ok guestPath =>
      simp only
      split
      · exact hinv
      · rename_i hslash
        split
        · exact hinv
        · rename_i binding hget
          split
          · exact hinv
          · rename_i hsame
            have hsame := not_not.mp hsame
            have hbinding : binding ∈ resolved.sys.bindings.guest :=
              List.mem_of_find?_eq_some hget
            obtain ⟨init, root, hlist, hroot⟩ := hinv.bindings.root
            have hmem : root ∈ resolved.sys.bindings.guest := by rw [hlist]; simp
            refine hinv.removeBinding hmem hroot fun haddr => hslash ?_
            rw [← hsame, ← hinv.bindings.addrs.inj hmem hbinding haddr, hroot]

/-! ## Changing the root -/

/-- The state while `emulate_pivot_root` moves bindings: the lists are in order,
and "/" is bound by one of the bindings made since the address `since`. -/
structure Pivoting (since : Nat) (sys : Sys W) : Prop where
  inv : SysInv sys
  root : ∃ root ∈ sys.bindings.guest, root.guest.path = slash ∧ since ≤ root.addr

variable {since : Nat}

/-- A new binding of another path than "/". -/
theorem Pivoting.insort (h : Pivoting since sys) {host guest : CStr} (hhost : Canonical host)
    (hguest : Canonical guest) (hne : guest ≠ slash) :
    Pivoting since (sys.insortBinding3 host guest) where
  inv := h.inv.insort hhost hguest
  root := by
    obtain ⟨root, hroot, hslash, hsince⟩ := h.root
    have hx : (⟨sys.nextAddr, .ofCStr host, .ofCStr guest, false⟩ : Binding).guest.Good :=
      Path.good_ofCStr hguest
    have hfresh : ∀ b ∈ sys.bindings.guest, b.addr ≠ sys.nextAddr := fun b hb =>
      Nat.ne_of_lt (h.inv.bindings_fresh b hb)
    have hmem := (h.inv.bindings.toListCore.insort hx (Path.good_ofCStr hhost) hfresh).2 root
    refine ⟨root, ?_, hslash, hsince⟩
    rw [Sys.insortBinding3_bindings]
    exact hmem.mpr (Or.inr ⟨hroot, by rw [hslash]; exact Ne.symm hne⟩)

/-- The removal of an older binding. -/
theorem Pivoting.remove (h : Pivoting since sys) {b : Binding} (hb : b.addr < since) :
    Pivoting since (sys.removeBinding b) := by
  obtain ⟨root, hroot, hslash, hsince⟩ := h.root
  have hne : root.addr ≠ b.addr := by omega
  refine ⟨h.inv.removeBinding hroot hslash hne, root, ?_, hslash, hsince⟩
  show root ∈ (sys.setBindings _).bindings.guest
  rw [Sys.setBindings_bindings]
  exact List.mem_filter.mpr ⟨hroot, decide_eq_true hne⟩

/-- **One turn of the loop of `emulate_pivot_root`.** -/
theorem pivotBinding_inv (h : Pivoting since sys) {newRootGuest : CStr} {putOld : Option CStr}
    {root b : Binding} (hnew : Canonical newRootGuest)
    (hold : ∀ after, putOld = some after → Canonical after ∧ after ≠ slash)
    (hguest : Canonical b.guest.path) (hhost : Canonical b.host.path) (hb : b.addr < since) :
    Pivoting since (pivotBinding newRootGuest putOld root sys b) := by
  unfold pivotBinding
  split
  · exact h
  · rename_i hskip
    have hslash : b.guest.path ≠ slash := fun hs => hskip (Or.inr hs)
    simp only
    split
    · rename_i hunder
      obtain ⟨-, hlong, htake, hsep⟩ := hunder
      have hns : newRootGuest ≠ slash := by
        rintro rfl
        exact hguest.second_ne hsep
      have hdrop := (canonical_drop hguest hnew hns htake hsep).1
      refine (h.insort hhost hdrop fun hs => ?_).remove hb
      -- a path that ends at a separator would not be canonical
      rcases hguest.last_ne with hl | hl
      · exact hslash hl
      · apply hl
        rw [← List.take_append_drop newRootGuest.length b.guest.path, hs]
        simp [slash]
    · cases putOld with
      | none => exact h
      | some after =>
          obtain ⟨hafter, hne⟩ := hold after rfl
          obtain ⟨happ, happne⟩ := canonical_append hafter hne hguest hslash
          simp only
          split
          · exact h
          · split
            · exact h
            · exact h.insort hhost happ happne

/-- The loop of `emulate_pivot_root`. -/
theorem pivotBindings_inv {newRootGuest : CStr} {putOld : Option CStr} {root : Binding}
    (hnew : Canonical newRootGuest)
    (hold : ∀ after, putOld = some after → Canonical after ∧ after ≠ slash)
    {snapshot : List Binding} (hall : ∀ b ∈ snapshot, b.guest.Good ∧ b.host.Good ∧ b.addr < since) :
    ∀ {sys : Sys W}, Pivoting since sys →
      Pivoting since (snapshot.foldl (pivotBinding newRootGuest putOld root) sys) := by
  induction snapshot with
  | nil => exact fun h => h
  | cons b rest ih =>
      intro sys h
      obtain ⟨hg, hh, hb⟩ := hall b List.mem_cons_self
      exact ih (fun y hy => hall y (List.mem_cons_of_mem _ hy))
        (pivotBinding_inv h hnew hold hg.1 hh.1 hb)

/-- The lookup of "/" finds the root. -/
theorem ListInv.getBinding_slash {bindings : Bindings} (h : ListInv bindings) :
    ∃ root ∈ bindings.guest, getBinding bindings .guest slash = some root ∧
      root.guest.path = slash := by
  obtain ⟨root, hget, hmem, hcontains, -⟩ := h.lookup (p := slash) rfl
  refine ⟨root, hmem, hget, ?_⟩
  have hcov := (h.covers hmem (by simp [slash])).mp hcontains
  have hgood := (h.good root hmem).1.1
  rw [canonical_slash.2] at hcov
  have hlead := (SepPath.covers_render_iff '/' (comps_words _) (comps_words _)).mp hcov
  have hnil : comps root.guest.path = [] := List.prefix_nil.mp hlead
  rw [hgood.2, hnil]
  rfl

/-- Rebinding "/": the old root is removed and a new one put in. -/
theorem SysInv.rebindRoot (h : SysInv sys) (root : Binding) {host : CStr} (hhost : Canonical host) :
    Pivoting sys.nextAddr ((sys.removeBinding root).insortBinding3 host slash) := by
  have hcore := h.bindings.toListCore.remove root
  have hold : ∀ b ∈ (removeBindingFromAllLists sys.bindings root).guest, b.addr < sys.nextAddr :=
    fun b hb => h.bindings_fresh b ((unlink_sublist root _).subset hb)
  set x : Binding := ⟨sys.nextAddr, .ofCStr host, .ofCStr slash, false⟩ with hx
  obtain ⟨hcore', hmem⟩ := hcore.insort (x := x) (Path.good_ofCStr canonical_slash)
    (Path.good_ofCStr hhost) fun b hb => Nat.ne_of_lt (hold b hb)
  have hroot := (hmem x.settle).mpr (Or.inl rfl)
  have hbindings : ((sys.removeBinding root).insortBinding3 host slash).bindings =
      insortBinding2 (removeBindingFromAllLists sys.bindings root) x := by
    rw [Sys.insortBinding3_bindings, Sys.removeBinding, Sys.setBindings_bindings]
    rfl
  have hsys : (sys.removeBinding root).insortBinding3 host slash =
      { sys.setBindings (insortBinding2 (removeBindingFromAllLists sys.bindings root) x) with
        nextAddr := sys.nextAddr + 1 } := by
    rw [← hbindings, Sys.insortBinding3_bindings, Sys.insortBinding3, Sys.removeBinding,
      Sys.setBindings_setBindings]
    rfl
  refine ⟨?_, x.settle, by rw [hbindings]; exact hroot, rfl, Nat.le_refl _⟩
  rw [hsys]
  refine h.withBindings (hcore'.withRoot hroot rfl) (Nat.le_succ _) fun b hb => ?_
  rcases (hmem b).mp hb with rfl | ⟨hb, -⟩
  · exact Nat.lt_succ_self _
  · exact Nat.lt_succ_of_lt (hold b hb)

/-- **Changing the root keeps the lists in order.** -/
theorem switchRoot_inv (h : SysInv sys) {newRootHost newRootGuest putOldGuest : CStr}
    (hhost : Canonical newRootHost) (hguest : Canonical newRootGuest)
    (hold : (putOldAfter newRootGuest putOldGuest).isSome → Canonical putOldGuest) :
    SysInv (switchRoot sys newRootHost newRootGuest putOldGuest) := by
  obtain ⟨root, hmem, hget, -⟩ := h.bindings.getBinding_slash
  have hroothost := (h.bindings.good root hmem).2.1
  have hafter : ∀ after, putOldAfter newRootGuest putOldGuest = some after →
      Canonical after ∧ after ≠ slash := by
    intro after heq
    exact putOldAfter_canonical hguest (hold (by rw [heq]; rfl)) heq
  have hswitched := h.rebindRoot root hhost
  unfold switchRoot
  rw [hget]
  refine (pivotBindings_inv hguest hafter (fun b hb => ⟨(h.bindings.good b hb).1,
    (h.bindings.good b hb).2, h.bindings_fresh b hb⟩) ?_).inv
  cases hput : putOldAfter newRootGuest putOldGuest with
  | none => exact hswitched
  | some after => exact hswitched.insort hroothost (hafter after hput).1 (hafter after hput).2

/-- `emulate_pivot_root` is called with paths `chop_finality` is right about, and
`put_old` resolves without a final marker when it lies below the new root. -/
def PivotSound (k : Kernel W) (sys : Sys W) (newRootUser putOldUser : CStr) : Prop :=
  ∀ fuel out newRootHost, translatePath k fuel sys atFdCwd newRootUser true = some out →
    out.result = .ok newRootHost →
    ChopsRight newRootHost ∧ ResolvesRight k out.sys newRootUser ∧
    ∀ fuel out' newRootGuest, guestCanonicalize k fuel out.sys newRootUser = some out' →
      out'.result = .ok newRootGuest →
      (putOldUser ≠ [] ∨ out'.sys.tracee.glueType = none) ∧
      ∀ fuel out'' putOldGuest, canonicalize k fuel out'.sys putOldUser true
          (putOldBase newRootGuest putOldUser) 0 = some out'' →
        out''.result = .ok putOldGuest → (putOldAfter newRootGuest putOldGuest).isSome →
        Unmarked putOldGuest

/-- **The emulated `pivot_root` keeps the lists in order.** -/
theorem emulatePivotRoot_inv (hk : k.Posix) {newRootUser putOldUser : CStr} (hsys : SysInv sys)
    (hsound : PivotSound k sys newRootUser putOldUser)
    (h : emulatePivotRoot k fuel sys newRootUser putOldUser = some sys') : SysInv sys' := by
  obtain ⟨out, hout, h⟩ := Option.bind_eq_some_iff.mp h
  obtain ⟨hinv, hmarked⟩ := translatePath_inv hk hsys hout
  cases hr : out.result with
  | error e =>
      rw [hr] at h
      obtain rfl := Option.some.inj h
      exact hinv
  | ok newRootHost =>
      rw [hr] at h
      obtain ⟨hchop, hresolves, hsound⟩ := hsound fuel out newRootHost hout hr
      obtain ⟨out', hout', h⟩ := Option.bind_eq_some_iff.mp h
      obtain ⟨hinv', hcanon⟩ := guestCanonicalize_inv hk hinv hresolves hout'
      cases hr' : out'.result with
      | error e =>
          rw [hr'] at h
          obtain rfl := Option.some.inj h
          exact hinv'
      | ok newRootGuest =>
          rw [hr'] at h
          obtain ⟨hempty, hunmarked⟩ := hsound fuel out' newRootGuest hout' hr'
          obtain ⟨out'', hout'', rfl⟩ := Option.map_eq_some_iff.mp h
          have hguest := hcanon newRootGuest hr'
          have hbase : Canonical (putOldBase newRootGuest putOldUser) := by
            unfold putOldBase
            split
            · exact canonical_slash
            · exact hguest
          obtain ⟨hinv'', hput⟩ := canonicalize_argument hk hinv' hbase hempty hout''
          cases hr'' : out''.result with
          | error e => exact hinv''
          | ok putOldGuest =>
              refine switchRoot_inv hinv'' ((hmarked newRootHost hr).chop hchop) hguest
                fun hbelow => ?_
              exact (hput putOldGuest hr'').canonical
                (hunmarked fuel out'' putOldGuest hout'' hr'' hbelow)

end PRoot
