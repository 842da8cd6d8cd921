import PRoot.Stacked

/-!
# Mounts over the bindings of the user

The emulated `umount` takes away whatever binding has the target as its guest path, and the
emulated `mount` replaces it.

* `Survives`: the bindings from start-up are there and translate as before;
* `startUp_survives`: so it is in every run in which no target is the guest path of one of them;
* `startUp_lost`: a `umount` of a binding of the command line.
-/

namespace PRoot

variable {W : Type} {k : Kernel W}

/-! ## The states of a mount -/

variable {fuel : Nat}

theorem guestCanonicalize_static {sys : Sys W} {userPath : CStr} {out : Outcome W}
    (hglue : sys.tracee.glueType = none) (h : guestCanonicalize k fuel sys userPath = some out) :
    out.sys = sys := by
  obtain ⟨resolved, hresolved, rfl⟩ := Option.map_eq_some_iff.mp h
  show resolved.sys = sys
  unfold resolveGuest at hresolved
  split at hresolved
  · exact canonicalize_static hglue hresolved
  · split at hresolved
    · cases hresolved
      rfl
    · exact canonicalize_static hglue hresolved

theorem translatePath_still {sys : Sys W} {dirFd : Int} {userPath : CStr} {deref : Bool}
    {out : Outcome W} (hglue : sys.tracee.glueType = none)
    (h : translatePath k fuel sys dirFd userPath deref = some out) : out.sys = sys := by
  rcases translatePath_cases h with ⟨e, rfl⟩ | ⟨base, joined, canon, -, -, hcanon, heq, -⟩
  · rfl
  · rw [heq]
    exact canonicalize_static hglue hcanon

theorem mountSource_static {sys mid : Sys W} {srcUser fstype : CStr} {flags : Nat}
    {source : Option CStr} (hglue : sys.tracee.glueType = none)
    (h : mountSource k fuel sys srcUser fstype flags = some (mid, source)) :
    mid = { sys with world := mid.world } := by
  unfold mountSource at h
  split at h
  · cases h
    rfl
  · split at h
    · obtain ⟨out, hout, heq⟩ := Option.map_eq_some_iff.mp h
      cases heq
      rw [translatePath_still hglue hout]
    · split at h
      · cases h
        rfl
      · split at h
        · cases h
          rfl
        · split at h
          · cases h
            rfl
          · split at h
            · cases h
              rfl
            · split at h
              · cases h
                rfl
              · cases h
                rfl

/-- `guest_canonicalize` of the path yields the guest path. -/
def ResolvesTo (k : Kernel W) (sys : Sys W) (userPath guestPath : CStr) : Prop :=
  ∃ fuel out, guestCanonicalize k fuel sys userPath = some out ∧ out.result = .ok guestPath

variable {sys' : Sys W}

/-- An `emulate_mount` either leaves the lists alone, or inserts a binding of the path its target
resolves to. -/
theorem emulateMount_cases {sys : Sys W} {srcUser targetUser fstype : CStr} {flags : Nat}
    (hglue : sys.tracee.glueType = none)
    (h : emulateMount k fuel sys srcUser targetUser fstype flags = some sys') :
    (∃ world, sys' = { sys with world }) ∨
    ∃ world hostPath guestPath,
      mountSource k fuel sys srcUser fstype flags = some ({ sys with world }, some hostPath) ∧
      ResolvesTo k { sys with world } targetUser guestPath ∧
      sys' = ({ sys with world } : Sys W).insortBinding3 (chopFinality hostPath) guestPath := by
  obtain ⟨⟨mid, source⟩, hsource, h⟩ := Option.bind_eq_some_iff.mp h
  have hmid := mountSource_static hglue hsource
  cases source with
  | none =>
      obtain rfl := Option.some.inj h
      exact Or.inl ⟨_, hmid⟩
  | some hostPath =>
      obtain ⟨out, hout, rfl⟩ := Option.map_eq_some_iff.mp h
      have hglue' : mid.tracee.glueType = none := by
        rw [hmid]
        exact hglue
      have hsame := guestCanonicalize_static hglue' hout
      cases hr : out.result with
      | error e => exact Or.inl ⟨mid.world, by rw [hsame]; exact hmid⟩
      | ok guestPath =>
          refine Or.inr ⟨mid.world, hostPath, guestPath, ?_, ?_, ?_⟩
          · rw [← hmid]
            exact hsource
          · rw [← hmid]
            exact ⟨fuel, out, hout, hr⟩
          · rw [← hmid, hsame]

/-- An `emulate_umount` either leaves the lists alone, or removes the binding of the path its
target resolves to. -/
theorem emulateUmount_cases {sys : Sys W} {targetUser : CStr} (hglue : sys.tracee.glueType = none)
    (h : emulateUmount k fuel sys targetUser = some sys') :
    sys' = sys ∨
    ∃ binding, ResolvesTo k sys targetUser binding.guest.path ∧ binding.guest.path ≠ slash ∧
      getBinding sys.bindings .guest binding.guest.path = some binding ∧
      sys' = sys.removeBinding binding := by
  obtain ⟨out, hout, rfl⟩ := Option.map_eq_some_iff.mp h
  have hsame := guestCanonicalize_static hglue hout
  rw [hsame]
  cases hr : out.result with
  | error e => exact Or.inl rfl
  | ok guestPath =>
      simp only
      split
      · exact Or.inl rfl
      · rename_i hslash
        cases hget : getBinding sys.bindings .guest guestPath with
        | none => exact Or.inl rfl
        | some binding =>
            simp only
            split
            · exact Or.inl rfl
            · rename_i hpath
              have hpath := not_not.mp hpath
              rw [← hpath] at hslash hget hr
              exact Or.inr ⟨binding, ⟨fuel, out, hout, hr⟩, hslash, hget, rfl⟩

/-! ## The bindings from start-up -/

/-- **The bindings from start-up are still in the lists**, in their order, and a path that
translates by one of them translates as it did; all other bindings were made later. -/
structure Survives (start sys : Sys W) : Prop where
  guest : start.bindings.guest.Sublist sys.bindings.guest
  host : start.bindings.host.Sublist sys.bindings.host
  translates : ∀ p, ∀ b ∈ start.bindings.guest, getBinding sys.bindings .guest p = some b →
    substituteBinding sys.bindings .guest p = substituteBinding start.bindings .guest p
  others : ∀ b ∈ sys.bindings.guest, b ∈ start.bindings.guest ∨ start.nextAddr ≤ b.addr

/-- No target is the guest path of a binding from start-up, and no glue is built. -/
def Op.Spares (k : Kernel W) (start sys : Sys W) : Op W → Prop
  | .mount srcUser targetUser fstype flags => sys.tracee.glueType = none ∧
      ∀ fuel mid hostPath guestPath,
        mountSource k fuel sys srcUser fstype flags = some (mid, some hostPath) →
        ResolvesTo k mid targetUser guestPath →
        ∀ b ∈ start.bindings.guest, comparePaths guestPath b.guest.path ≠ .pathsAreEqual
  | .umount targetUser => sys.tracee.glueType = none ∧
      ∀ guestPath, ResolvesTo k sys targetUser guestPath → guestPath ≠ slash →
        ∀ b ∈ start.bindings.guest, b.guest.path ≠ guestPath
  | .pivotRoot _ _ => False
  | .translate _ _ _ => sys.tracee.glueType = none
  | .chdir _ => True
  | .host _ => True

theorem getBinding_guests (bindings : Bindings) (path : CStr) :
    getBinding bindings .guest path = bindings.guest.find? fun binding =>
      (comparePaths2 binding.guest.path binding.guest.length path path.length).contains := by
  simp only [getBinding, reduceCtorEq, decide_false, Bool.false_and, Bool.not_false,
    Bool.and_true]
  rfl

/-- The first element of a list that has a property, if it is in a sublist. -/
theorem find?_sublist {l l' : List Binding} {p : Binding → Bool} {b : Binding}
    (hsub : l.Sublist l') (haddrs : AddrsDistinct l') (hfind : l'.find? p = some b) (hb : b ∈ l) :
    l.find? p = some b := by
  induction hsub with
  | slnil => cases hb
  | @cons l l' a hsub ih =>
      obtain ⟨hnot, haddrs⟩ := List.nodup_cons.mp haddrs
      have hne : b ≠ a := by
        rintro rfl
        exact hnot (List.mem_map_of_mem (hsub.subset hb))
      rw [List.find?_cons] at hfind
      split at hfind
      · cases hfind
        exact absurd rfl hne
      · exact ih haddrs hfind hb
  | @cons_cons l l' a hsub ih =>
      obtain ⟨hnot, haddrs⟩ := List.nodup_cons.mp haddrs
      rw [List.find?_cons] at hfind ⊢
      split at hfind
      · exact hfind
      · rename_i hno
        have hne : b ≠ a := by
          rintro rfl
          rw [List.find?_some hfind] at hno
          cases hno
        exact ih haddrs hfind ((List.mem_cons.mp hb).resolve_left hne)

/-- What matters of a state, once its lists are stacked. -/
theorem Survives.intro {start sys : Sys W} (hsys : sys.Stacked)
    (hguest : start.bindings.guest.Sublist sys.bindings.guest)
    (hhost : start.bindings.host.Sublist sys.bindings.host)
    (hothers : ∀ b ∈ sys.bindings.guest, b ∈ start.bindings.guest ∨ start.nextAddr ≤ b.addr) :
    Survives start sys where
  guest := hguest
  host := hhost
  translates p b hb hget := by
    have hsame : getBinding start.bindings .guest p = some b := by
      rw [getBinding_guests] at hget ⊢
      exact find?_sublist hguest hsys.addrs hget hb
    unfold substituteBinding
    rw [hget, hsame]
  others := hothers

namespace Survives

variable {start sys : Sys W}

/-- A binding that is not from start-up goes. -/
theorem unlink (h : Survives start sys) (hsys : sys.Stacked) (hstart : start.Stacked)
    {old : Binding} (hold : old ∈ sys.bindings.guest) (hnot : old ∉ start.bindings.guest) :
    start.bindings.guest.Sublist (unlink old sys.bindings.guest) ∧
      start.bindings.host.Sublist (PRoot.unlink old sys.bindings.host) := by
  have hother : ∀ b ∈ start.bindings.guest, b.addr ≠ old.addr := fun b hb heq =>
    hnot (hsys.addrs.inj (h.guest.subset hb) hold heq ▸ hb)
  constructor
  · rw [← unlink_of_fresh hother]
    exact h.guest.filter _
  · rw [← unlink_of_fresh fun b hb => hother b (hstart.perm.mem_iff.mp hb)]
    exact h.host.filter _

/-- A mount on another guest path. -/
theorem insort (h : Survives start sys) (hsys : sys.Stacked) (hstart : start.Stacked)
    (hnext : start.nextAddr ≤ sys.nextAddr) {host guest : CStr}
    (hspares : ∀ b ∈ start.bindings.guest, comparePaths guest b.guest.path ≠ .pathsAreEqual) :
    Survives start (sys.insortBinding3 host guest) := by
  have hfresh : ∀ b ∈ sys.bindings.guest, b.addr ≠ sys.nextAddr := fun b hb =>
    Nat.ne_of_lt (hsys.fresh b hb)
  have hinserted := insortBinding2_inserted
    (x := ⟨sys.nextAddr, .ofCStr host, .ofCStr guest, false⟩) hsys hfresh
  have hlists : (sys.insortBinding3 host guest).bindings =
      insortBinding2 sys.bindings ⟨sys.nextAddr, .ofCStr host, .ofCStr guest, false⟩ :=
    Sys.insortBinding3_bindings sys host guest
  have hothers : ∀ b ∈ (sys.insortBinding3 host guest).bindings.guest,
      b ∈ start.bindings.guest ∨ start.nextAddr ≤ b.addr := by
    intro b hb
    rw [hlists] at hb
    rcases hinserted.mem hb with rfl | hb
    · exact Or.inr hnext
    · exact h.others b hb
  have hboth : start.bindings.guest.Sublist (sys.insortBinding3 host guest).bindings.guest ∧
      start.bindings.host.Sublist (sys.insortBinding3 host guest).bindings.host := by
    rw [hlists]
    generalize insortBinding2 sys.bindings _ = bindings' at hinserted
    cases hinserted with
    | beside hguest hhost hplace halone =>
        have h₁ := h.guest
        have h₂ := h.host
        rw [hguest] at h₁
        rw [hhost] at h₂
        exact ⟨h₁.trans ((List.Sublist.refl _).append (List.sublist_cons_self _ _)),
          h₂.trans ((List.Sublist.refl _).append (List.sublist_cons_self _ _))⟩
    | @replaces l₁ l₂ g₁ g₂ old hguest hhost hequal =>
        have hold : old ∈ sys.bindings.guest := by rw [hguest]; simp
        have hnot : old ∉ start.bindings.guest := fun hin => hspares old hin
          ((Stacked.compare_eq rfl (hsys.length old hold)).symm.trans hequal)
        obtain ⟨h₁, h₂⟩ := h.unlink hsys hstart hold hnot
        have haddrs := hsys.addrs
        rw [hguest] at h₁ haddrs
        rw [unlink_split haddrs] at h₁
        rw [hhost] at h₂
        exact ⟨h₁.trans ((List.Sublist.refl _).append (List.sublist_cons_self _ _)),
          h₂.trans ((List.Sublist.refl _).append (List.sublist_cons_self _ _))⟩
  exact Survives.intro (hsys.insort host guest) hboth.1 hboth.2 hothers

theorem remove (h : Survives start sys) (hsys : sys.Stacked) (hstart : start.Stacked)
    {b : Binding} (hb : b ∈ sys.bindings.guest) (hnot : b ∉ start.bindings.guest) :
    Survives start (sys.removeBinding b) := by
  have hlists : (sys.removeBinding b).bindings = removeBindingFromAllLists sys.bindings b :=
    Sys.setBindings_bindings sys _
  obtain ⟨h₁, h₂⟩ := h.unlink hsys hstart hb hnot
  refine Survives.intro (hsys.remove b) (by rw [hlists]; exact h₁) (by rw [hlists]; exact h₂)
    fun y hy => ?_
  rw [hlists] at hy
  exact h.others y (unlink_subset hy)

/-- Neither the host nor the working directory matters. -/
theorem congr (h : Survives start sys) (hlists : sys'.bindings = sys.bindings) :
    Survives start sys' := by
  obtain ⟨h₁, h₂, h₃, h₄⟩ := h
  rw [← hlists] at h₁ h₂ h₃ h₄
  exact ⟨h₁, h₂, h₃, h₄⟩

end Survives

/-- **A step that spares the bindings from start-up.** -/
theorem Survives.step {start sys : Sys W} {op : Op W} (h : Survives start sys) (hsys : sys.Stacked)
    (hstart : start.Stacked) (hnext : start.nextAddr ≤ sys.nextAddr)
    (hspares : op.Spares k start sys) (hstep : op.run k fuel sys = some sys') :
    Survives start sys' ∧ start.nextAddr ≤ sys'.nextAddr := by
  cases op with
  | mount srcUser targetUser fstype flags =>
      obtain ⟨hglue, hspares⟩ := hspares
      rcases emulateMount_cases hglue hstep with
        ⟨world, rfl⟩ | ⟨world, hostPath, guestPath, hsource, hresolves, rfl⟩
      · exact ⟨h.congr rfl, hnext⟩
      · have hmid : Survives start { sys with world } := h.congr rfl
        exact ⟨hmid.insort hsys hstart hnext (hspares _ _ _ _ hsource hresolves),
          Nat.le_succ_of_le hnext⟩
  | umount targetUser =>
      obtain ⟨hglue, hspares⟩ := hspares
      rcases emulateUmount_cases hglue hstep with rfl | ⟨binding, hresolves, hslash, hget, rfl⟩
      · exact ⟨h, hnext⟩
      · exact ⟨h.remove hsys hstart (List.mem_of_find?_eq_some hget) fun hin =>
          hspares _ hresolves hslash binding hin rfl, hnext⟩
  | pivotRoot newRootUser putOldUser => exact hspares.elim
  | translate dirFd userPath derefFinal =>
      obtain ⟨out, hout, rfl⟩ := Option.map_eq_some_iff.mp hstep
      rw [translatePath_still hspares hout]
      exact ⟨h, hnext⟩
  | chdir cwd =>
      cases hstep
      exact ⟨h.congr (Sys.setCwd_bindings sys cwd), hnext⟩
  | host world =>
      cases hstep
      exact ⟨h.congr rfl, hnext⟩

/-- **The bindings from start-up survive** every run that spares them. -/
theorem startUp_survives (hk : k.Posix) {fuel : Nat} {boot start sys : Sys W}
    {options : List BindOption} (hboot : Collecting boot)
    (hstart : startUp k fuel boot options = some start)
    (hrun : Reached k (fun sys op => op.Spares k start sys) start sys) : Survives start sys := by
  have hstacked := startUp_stacked hk hboot hstart
  suffices hboth : Survives start sys ∧ start.nextAddr ≤ sys.nextAddr from hboth.1
  induction hrun with
  | start =>
      exact ⟨.intro hstacked (List.Sublist.refl _) (List.Sublist.refl _) fun b hb => Or.inl hb,
        Nat.le_refl _⟩
  | step hrun hop hstep ih =>
      exact ih.1.step (reached_stacked hrun hstacked) hstacked ih.2 hop hstep

/-- Mounting "proc" on "/p", and unmounting it. -/
theorem startUp_survives_proc : ∃ start mounted sys,
    startUp rootHost 9 bootSys [.r "/r".toList] = some start ∧
    (Op.mount [] "/p".toList "proc".toList 0).run rootHost 9 start = some mounted ∧
    (Op.umount "/p".toList).run rootHost 9 mounted = some sys ∧ Survives start sys := by
  have hrun : ((startUp rootHost 9 bootSys [.r "/r".toList]).bind fun start =>
      ((Op.mount [] "/p".toList "proc".toList 0).run rootHost 9 start).bind fun mounted =>
        ((Op.umount "/p".toList).run rootHost 9 mounted).map fun _ =>
          (start.bindings.guest.map (·.guest.path), start.tracee.glueType,
            mounted.tracee.glueType)) = some ([slash], none, none) := by
    decide
  obtain ⟨start, hstart, hrun⟩ := Option.bind_eq_some_iff.mp hrun
  obtain ⟨mounted, hmount, hrun⟩ := Option.bind_eq_some_iff.mp hrun
  obtain ⟨sys, humount, hfacts⟩ := Option.map_eq_some_iff.mp hrun
  simp only [Prod.mk.injEq] at hfacts
  obtain ⟨hguests, hglue, hglue'⟩ := hfacts
  have hroot : ∀ b ∈ start.bindings.guest, b.guest.path = slash := fun b hb =>
    List.mem_singleton.mp (hguests ▸ List.mem_map_of_mem hb)
  have hspares : (Op.mount [] "/p".toList "proc".toList 0).Spares rootHost start start := by
    refine ⟨hglue, fun fuel mid hostPath guestPath hsource hresolves b hb => ?_⟩
    have hproc : mountSource rootHost fuel start [] "proc".toList 0 =
        some (start, some "/proc".toList) := rfl
    cases hproc.symm.trans hsource
    obtain ⟨fuel', out, hout, hr⟩ := hresolves
    obtain ⟨resolved, hresolved, rfl⟩ := Option.map_eq_some_iff.mp hout
    have htarget : ((startUp rootHost 9 bootSys [.r "/r".toList]).bind fun start =>
        canonicalize rootHost 9 start "/p".toList true slash 0).map Outcome.result =
          some (.ok "/p".toList) := by
      decide
    rw [hstart, Option.bind_some] at htarget
    obtain ⟨out', hout', hr'⟩ := Option.map_eq_some_iff.mp htarget
    have hsame := canonicalize_unique hout' hresolved
    rw [hsame] at hr'
    have hpath : Except.map chopFinality resolved.result = .ok guestPath := hr
    rw [hr'] at hpath
    cases hpath
    rw [hroot b hb]
    decide
  have hspares' : (Op.umount "/p".toList).Spares rootHost start mounted := by
    refine ⟨hglue', fun guestPath _ hne b hb => ?_⟩
    rw [hroot b hb]
    exact Ne.symm hne
  exact ⟨start, mounted, sys, hstart, hmount, humount,
    startUp_survives rootHost_posix bootSys_collecting hstart
      (.step (.step .start hspares hmount) hspares' humount)⟩

/-- A host with a directory that is bound to a directory of the root. -/
def boundHost : Kernel Unit :=
  .frozen [("/r".toList, .dir), ("/r/p".toList, .dir), ("/x".toList, .dir)] []

theorem boundHost_posix : boundHost.Posix := Kernel.frozen_posix (by decide) (by decide)

/-- The lists after start-up with "-r /r -b /x:/p", and then after the operations. -/
def boundRun (ops : List (Op Unit)) : Option (Sys Unit × Sys Unit) :=
  (startUp boundHost 9 bootSys [.r "/r".toList, .b "/x".toList (some "/p".toList)]).bind
    fun start => (ops.foldlM (fun sys op => Op.run boundHost 9 sys op) start).map (start, ·)

/-- **A binding of the command line is unmounted**, and another one is replaced by a mount at its
guest path. -/
theorem startUp_lost :
    (∃ start sys, boundRun [.umount "/p".toList] = some (start, sys) ∧ ¬ Survives start sys ∧
      substituteBinding start.bindings .guest "/p".toList = ("/x".toList, .ok true) ∧
      substituteBinding sys.bindings .guest "/p".toList = ("/r/p".toList, .ok true)) ∧
    ∃ start sys, boundRun [.mount [] "/p".toList "proc".toList 0] = some (start, sys) ∧
      ¬ Survives start sys := by
  have hlost : ∀ ops, (boundRun ops).any (fun s =>
      s.1.bindings.guest.any fun b => !s.2.bindings.guest.contains b) = true →
      ∀ start sys, boundRun ops = some (start, sys) → ¬ Survives start sys := by
    intro ops hany start sys hrun hsurvives
    rw [hrun, Option.any_some, List.any_eq_true] at hany
    obtain ⟨b, hb, hnot⟩ := hany
    have hin := List.contains_iff_mem.mpr (hsurvives.guest.subset hb)
    rw [hin] at hnot
    cases hnot
  have hsubst : (boundRun [.umount "/p".toList]).map (fun s =>
      (substituteBinding s.1.bindings .guest "/p".toList,
        substituteBinding s.2.bindings .guest "/p".toList)) =
      some (("/x".toList, .ok true), ("/r/p".toList, .ok true)) := by decide
  have hmount : (boundRun [.mount [] "/p".toList "proc".toList 0]).isSome = true := by
    decide
  obtain ⟨⟨start, sys⟩, hrun, hpaths⟩ := Option.map_eq_some_iff.mp hsubst
  obtain ⟨⟨start', sys'⟩, hrun'⟩ := Option.isSome_iff_exists.mp hmount
  simp only [Prod.mk.injEq] at hpaths
  exact ⟨⟨start, sys, hrun, hlost _ (by decide) _ _ hrun, hpaths.1, hpaths.2⟩,
    start', sys', hrun', hlost _ (by decide) _ _ hrun'⟩

end PRoot
