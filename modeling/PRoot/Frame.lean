import PRoot.Mounts
import PRoot.Translate

/-!
# What canonicalization leaves alone

A tracee that resolves a path, or mounts something, works on its own lists only.

* `Confined`: other tracees, and the lists at other addresses, are as before;
* `Grown`: besides, the bindings in the guest list are those from before and new
  ones;
* `Stable.canonRun`: what new bindings leave alone, resolving a path leaves alone;
* `canonicalize_grown`: resolving a path comes to no more than growth;
* `Kept.opRun`: what operations do not change, survives them.
-/

namespace PRoot

variable {W : Type} {k : Kernel W}

/-- The tracee at hand changes its own lists at most. -/
structure Confined (sys sys' : Sys W) : Prop where
  others : sys'.others = sys.others
  pid : sys'.tracee.pid = sys.tracee.pid
  fs : sys'.tracee.fs = sys.tracee.fs
  ids : ∀ addr, (sys'.spaces addr).bindings = (sys.spaces addr).bindings
  lists : ∀ addr, addr ≠ (sys.fsOf sys.tracee).bindings → sys'.lists addr = sys.lists addr

variable {sys sys' : Sys W}

namespace Confined

theorem refl (sys : Sys W) : Confined sys sys := ⟨rfl, rfl, rfl, fun _ => rfl, fun _ _ => rfl⟩

/-- The address of the lists at hand stays the same. -/
theorem own (h : Confined sys sys') :
    (sys'.fsOf sys'.tracee).bindings = (sys.fsOf sys.tracee).bindings := by
  show (sys'.spaces sys'.tracee.fs).bindings = (sys.spaces sys.tracee.fs).bindings
  rw [h.fs, h.ids]

theorem trans {sys'' : Sys W} (h : Confined sys sys') (h' : Confined sys' sys'') :
    Confined sys sys'' where
  others := h'.others.trans h.others
  pid := h'.pid.trans h.pid
  fs := h'.fs.trans h.fs
  ids addr := (h'.ids addr).trans (h.ids addr)
  lists addr hne := (h'.lists addr (by rw [h.own]; exact hne)).trans (h.lists addr hne)

theorem setBindings (sys : Sys W) (bindings : Bindings) (nextAddr : Nat) :
    Confined sys { sys.setBindings bindings with nextAddr } :=
  ⟨rfl, rfl, rfl, fun _ => rfl, fun _ hne => if_neg hne⟩

end Confined

/-- Besides, every binding of the later state is one of the earlier, or was
allocated in between. -/
structure Grown (sys sys' : Sys W) : Prop extends Confined sys sys' where
  next : sys.nextAddr ≤ sys'.nextAddr
  guest : ∀ b ∈ sys'.bindings.guest, b ∈ sys.bindings.guest ∨ sys.nextAddr ≤ b.addr

namespace Grown

theorem refl (sys : Sys W) : Grown sys sys :=
  ⟨Confined.refl sys, Nat.le_refl _, fun _ hb => Or.inl hb⟩

theorem trans {sys'' : Sys W} (h : Grown sys sys') (h' : Grown sys' sys'') :
    Grown sys sys'' where
  toConfined := h.toConfined.trans h'.toConfined
  next := Nat.le_trans h.next h'.next
  guest b hb := by
    rcases h'.guest b hb with hb | hb
    · exact h.guest b hb
    · exact Or.inr (Nat.le_trans h.next hb)

theorem insort (sys : Sys W) (host guest : CStr) : Grown sys (sys.insortBinding3 host guest) where
  toConfined := Confined.setBindings sys _ _
  next := Nat.le_succ _
  guest b hb := by
    rw [Sys.insortBinding3_bindings, insortBinding3, insortBinding2,
      insortBinding_host_guest] at hb
    rcases mem_insortBinding .guest hb with rfl | hb
    · exact Or.inr (Nat.le_refl _)
    · exact Or.inl hb

/-- The type of the glue does not matter. -/
theorem of_glueType {glueType : Option FileType} (h : Grown (sys.setGlueType glueType) sys') :
    Grown sys sys' :=
  ⟨⟨h.others, h.pid, h.fs, h.ids, h.lists⟩, h.next, h.guest⟩

end Grown

/-- A property of states that survives changes of the host, a new directory for glue, and new
bindings. -/
structure Stable (P : Sys W → Prop) : Prop where
  world : ∀ {sys : Sys W} (world : W), P sys → P { sys with world }
  glue : ∀ {sys : Sys W} (glue : CStr), P sys →
    P { sys with tracee := { sys.tracee with glue := some glue } }
  insort : ∀ {sys : Sys W} (host guest : CStr), P sys → P (sys.insortBinding3 host guest)

variable {deref : Bool} {out : Outcome W} {fuel : Nat} {userPath : CStr}

namespace Stable

variable {P : Sys W → Prop} (hP : Stable P)

include hP

theorem createBinding (h : P sys) (glue guestPath : CStr) (type : FileType) :
    P (createBinding sys glue guestPath type).1 := by
  unfold PRoot.createBinding
  split
  · exact h
  · exact hP.insort glue guestPath h

theorem afterMake (h : P sys) (glue guestPath : CStr) (type : FileType) (finality : Finality)
    (belongs : Bool) (status : Except Errno Unit) :
    P (afterMake sys glue guestPath type finality belongs status).1 := by
  unfold PRoot.afterMake
  split
  · exact h
  · split
    · exact h
    · exact hP.createBinding h _ _ _

theorem buildGlueIn (h : P sys) (glue : CStr) (glueType : FileType) (guestPath hostPath : CStr)
    (finality : Finality) :
    P (buildGlueIn k sys glue glueType guestPath hostPath finality).1 := by
  unfold PRoot.buildGlueIn
  by_cases hpollute : k.dontPolluteRootfs ∧ ¬ (comparePaths glue hostPath).contains
  · rw [if_pos hpollute]
    exact hP.createBinding h _ _ _
  · rw [if_neg hpollute]
    exact hP.afterMake (hP.world _ h) _ _ _ _ _ _

theorem buildGlue (h : P sys) (glueType : FileType) (guestPath hostPath : CStr)
    (finality : Finality) : P (buildGlue k sys glueType guestPath hostPath finality).1 := by
  unfold PRoot.buildGlue
  split
  · exact hP.buildGlueIn h _ _ _ _ _
  · split
    · exact hP.world _ h
    · exact hP.buildGlueIn (hP.glue _ (hP.world _ h)) _ _ _ _ _

theorem substituteBindingStat (h : P sys) (finality : Finality) (guestPath : CStr) :
    P (substituteBindingStat k sys finality guestPath).1 := by
  unfold PRoot.substituteBindingStat
  split
  · exact h
  · split
    · exact h
    · exact h
    · exact hP.buildGlue h _ _ _ _

/-- **What is stable survives canonicalization.** -/
theorem canonRun {f : Frame} (hrun : CanonRun k sys f out) (h : P sys) : P out.sys :=
  hrun.state (fun hP' => hP.substituteBindingStat hP') h

theorem canonicalize {guestPath : CStr} {level : Nat} (h : P sys)
    (hout : canonicalize k fuel sys userPath deref guestPath level = some out) : P out.sys := by
  rcases canonicalize_cases hout with ⟨e, -, rfl⟩ | ⟨base, inner, -, hrun, rfl⟩
  · exact h
  · show P inner.sys
    exact hP.canonRun hrun h

theorem translatePath {dirFd : Int} (h : P sys)
    (hout : translatePath k fuel sys dirFd userPath deref = some out) : P out.sys := by
  rcases translatePath_cases hout with ⟨e, rfl⟩ | ⟨base, joined, canon, -, -, hcanon, heq, -⟩
  · exact h
  · rw [heq]
    exact hP.canonicalize h hcanon

end Stable

/-- What has grown may grow further. -/
theorem Grown.stable (sys : Sys W) : Stable (Grown sys) where
  world _ h := ⟨⟨h.others, h.pid, h.fs, h.ids, h.lists⟩, h.next, h.guest⟩
  glue _ h := ⟨⟨h.others, h.pid, h.fs, h.ids, h.lists⟩, h.next, h.guest⟩
  insort host guest h := h.trans (Grown.insort _ host guest)

/-- **Canonicalization adds bindings at new addresses only.** -/
theorem canonicalize_grown {guestPath : CStr} {level : Nat}
    (h : canonicalize k fuel sys userPath deref guestPath level = some out) :
    Grown sys out.sys :=
  (Grown.stable sys).canonicalize (Grown.refl sys) h

/-- A property of states that survives all that an operation does to them. -/
structure Kept (P : Sys W → Prop) : Prop extends Stable P where
  remove : ∀ {sys : Sys W} (b : Binding), P sys → P (sys.removeBinding b)
  chdir : ∀ {sys : Sys W} (cwd : CStr), P sys → P (sys.setCwd cwd)

namespace Kept

variable {P : Sys W → Prop} (hP : Kept P)

include hP

theorem guestCanonicalize (h : P sys) (hout : guestCanonicalize k fuel sys userPath = some out) :
    P out.sys := by
  obtain ⟨resolved, hresolved, rfl⟩ := Option.map_eq_some_iff.mp hout
  change P resolved.sys
  unfold resolveGuest at hresolved
  split at hresolved
  · exact hP.canonicalize h hresolved
  · split at hresolved
    · obtain rfl := Option.some.inj hresolved
      exact h
    · exact hP.canonicalize h hresolved

theorem mountSource {srcUser fstype : CStr} {flags : Nat} {source : Option CStr} (h : P sys)
    (hsource : mountSource k fuel sys srcUser fstype flags = some (sys', source)) : P sys' := by
  unfold PRoot.mountSource at hsource
  split at hsource
  · cases hsource
    exact h
  · split at hsource
    · obtain ⟨out, hout, heq⟩ := Option.map_eq_some_iff.mp hsource
      cases heq
      exact hP.translatePath h hout
    · split at hsource
      · cases hsource
        exact h
      · split at hsource
        · cases hsource
          exact h
        · split at hsource
          · cases hsource
            exact h
          · split at hsource
            · cases hsource
              exact h
            · split at hsource
              · cases hsource
                exact hP.world _ h
              · cases hsource
                exact h

theorem pivotBinding (newRootGuest : CStr) (putOld : Option CStr) (root : Binding) (h : P sys)
    (b : Binding) : P (pivotBinding newRootGuest putOld root sys b) := by
  unfold PRoot.pivotBinding
  split
  · exact h
  · simp only
    split
    · exact hP.remove b (hP.insort _ _ h)
    · cases putOld with
      | none => exact h
      | some after =>
          simp only
          split
          · exact h
          · split
            · exact h
            · exact hP.insort _ _ h

theorem pivotBindings (newRootGuest : CStr) (putOld : Option CStr) (root : Binding)
    (snapshot : List Binding) : ∀ {sys : Sys W}, P sys →
      P (snapshot.foldl (PRoot.pivotBinding newRootGuest putOld root) sys) := by
  induction snapshot with
  | nil =>
      intro sys h
      exact h
  | cons b rest ih =>
      intro sys h
      exact ih (hP.pivotBinding newRootGuest putOld root h b)

theorem switchRoot (h : P sys) (newRootHost newRootGuest putOldGuest : CStr) :
    P (switchRoot sys newRootHost newRootGuest putOldGuest) := by
  unfold PRoot.switchRoot
  split
  · exact h
  · rename_i root _
    have hswitched := hP.insort newRootHost slash (hP.remove root h)
    apply hP.pivotBindings
    cases putOldAfter newRootGuest putOldGuest with
    | none => exact hswitched
    | some after => exact hP.insort _ _ hswitched

/-- **What is kept survives every operation.** -/
theorem opRun {op : Op W} (h : P sys) (hrun : op.run k fuel sys = some sys') : P sys' := by
  cases op with
  | mount srcUser targetUser fstype flags =>
      obtain ⟨⟨mid, source⟩, hsource, hrun⟩ := Option.bind_eq_some_iff.mp hrun
      have hmid := hP.mountSource h hsource
      cases source with
      | none =>
          obtain rfl := Option.some.inj hrun
          exact hmid
      | some hostPath =>
          obtain ⟨out, hout, rfl⟩ := Option.map_eq_some_iff.mp hrun
          have hcanon := hP.guestCanonicalize hmid hout
          cases out.result with
          | error e => exact hcanon
          | ok guestPath => exact hP.insort _ _ hcanon
  | umount targetUser =>
      obtain ⟨out, hout, rfl⟩ := Option.map_eq_some_iff.mp hrun
      have hcanon := hP.guestCanonicalize h hout
      cases out.result with
      | error e => exact hcanon
      | ok guestPath =>
          simp only
          split
          · exact hcanon
          · split
            · exact hcanon
            · split
              · exact hcanon
              · exact hP.remove _ hcanon
  | pivotRoot newRootUser putOldUser =>
      obtain ⟨out, hout, hrun⟩ := Option.bind_eq_some_iff.mp hrun
      have htranslated := hP.translatePath h hout
      cases hr : out.result with
      | error e =>
          rw [hr] at hrun
          obtain rfl := Option.some.inj hrun
          exact htranslated
      | ok newRootHost =>
          rw [hr] at hrun
          obtain ⟨out', hout', hrun⟩ := Option.bind_eq_some_iff.mp hrun
          have hcanon := hP.guestCanonicalize htranslated hout'
          cases hr' : out'.result with
          | error e =>
              rw [hr'] at hrun
              obtain rfl := Option.some.inj hrun
              exact hcanon
          | ok newRootGuest =>
              rw [hr'] at hrun
              obtain ⟨out'', hout'', rfl⟩ := Option.map_eq_some_iff.mp hrun
              have hold := hP.canonicalize hcanon hout''
              cases out''.result with
              | error e => exact hold
              | ok putOldGuest => exact hP.switchRoot hold _ _ _
  | translate dirFd userPath derefFinal =>
      obtain ⟨out, hout, rfl⟩ := Option.map_eq_some_iff.mp hrun
      exact hP.translatePath h hout
  | chdir cwd =>
      obtain rfl := Option.some.inj hrun
      exact hP.chdir cwd h
  | host world =>
      obtain rfl := Option.some.inj hrun
      exact hP.world world h

end Kept

end PRoot
