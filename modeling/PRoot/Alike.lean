import PRoot.ListCopy

/-!
# Lists that answer alike

Translation and detranslation look at the binding lists only through the root,
substitutions, and the host path of the binding of a host path.

* `Alike`: two pairs of lists agree on these;
* `detranslatePath_alike`, `looksSame_alike`, `translatePath_alike`: then paths
  are detranslated, canonicalized and translated to the same.
-/

namespace PRoot

variable {W : Type} {k : Kernel W}

/-- Two pairs of lists give the same answers. -/
structure Alike (a b : Bindings) : Prop where
  root : getRoot a = getRoot b
  guest : ∀ p, substituteBinding a .guest p = substituteBinding b .guest p
  host : ∀ p, substituteBinding a .host p = substituteBinding b .host p
  path : ∀ p, getPathBinding a .host p = getPathBinding b .host p

theorem Alike.refl (bindings : Bindings) : Alike bindings bindings :=
  ⟨rfl, fun _ => rfl, fun _ => rfl, fun _ => rfl⟩

section Lists

variable {sys : Sys W} {lists : Nat → Bindings} (h : ∀ addr, Alike (lists addr) (sys.lists addr))

include h

theorem bindings_alike : Alike ({ sys with lists } : Sys W).bindings sys.bindings := h _

theorem readlinkProc_alike (base component : CStr) (comparison : Comparison) :
    readlinkProc { sys with lists } base component comparison =
      readlinkProc sys base component comparison := by
  have hpid : ∀ pid, readlinkProcPid { sys with lists } pid component =
      readlinkProcPid sys pid component := by
    intro pid
    unfold readlinkProcPid
    have htracee : ({ sys with lists } : Sys W).getTracee pid = sys.getTracee pid := rfl
    rw [htracee]
    cases sys.getTracee pid with
    | none => rfl
    | some tracee =>
        have hroot : getRoot (({ sys with lists } : Sys W).bindingsOf tracee) =
            getRoot (sys.bindingsOf tracee) := (h _).root
        simp only [hroot]
        rfl
  unfold readlinkProc
  simp only [hpid]

theorem readlinkProc2_alike (referer : CStr) :
    readlinkProc2 { sys with lists } referer = readlinkProc2 sys referer := by
  unfold readlinkProc2
  simp only [readlinkProc_alike h]

/-- **Detranslation depends on what the lists answer.** -/
theorem detranslatePath_alike (path : CStr) (referrer : Option CStr) :
    detranslatePath { sys with lists } path referrer = detranslatePath sys path referrer := by
  have halike := bindings_alike h
  have hroot : ∀ sanityCheck, detranslateRoot ({ sys with lists } : Sys W).bindings path sanityCheck =
      detranslateRoot sys.bindings path sanityCheck := by
    intro sanityCheck
    rw [detranslateRoot, detranslateRoot, halike.root]
  have hbinding : ∀ sanityCheck follow,
      detranslateBinding ({ sys with lists } : Sys W).bindings path sanityCheck follow =
        detranslateBinding sys.bindings path sanityCheck follow := by
    intro sanityCheck follow
    rw [detranslateBinding, detranslateBinding, halike.host, hroot]
  unfold detranslatePath
  simp only [hbinding, readlinkProc2_alike h, belongsToGuestfs, halike.root, sameHostBinding,
    halike.path]
  rfl

/-- Without glue, so does the lookup of a path. -/
theorem substituteBindingStat_alike (hglue : sys.tracee.glueType = none) (finality : Finality)
    (guestPath : CStr) : substituteBindingStat k { sys with lists } finality guestPath =
      ({ sys with lists }, (substituteBindingStat k sys finality guestPath).2) := by
  have hstatic : (substituteBindingStat k { sys with lists } finality guestPath).1 =
      { sys with lists } := substituteBindingStat_static hglue
  refine Prod.ext hstatic ?_
  unfold substituteBindingStat
  rw [(bindings_alike h).guest]
  rcases substituteBinding sys.bindings .guest guestPath with ⟨hostPath, e | changed⟩
  · rfl
  · simp only [hglue]
    cases statHost k sys.world hostPath <;> rfl

theorem linkText_alike (finality : Finality) (guestPath component hostPath : CStr) :
    linkText k { sys with lists } finality guestPath component hostPath =
      linkText k sys finality guestPath component hostPath := by
  have hread : readHostLink k { sys with lists } hostPath = readHostLink k sys hostPath := by
    unfold readHostLink
    simp only [detranslatePath_alike h]
  have hbase : procBase { sys with lists } guestPath = procBase sys guestPath := by
    unfold procBase
    rw [(bindings_alike h).guest]
  unfold linkText
  rw [hread, hbase]
  simp only [readlinkProc_alike h]

theorem looksSame_alike (hglue : sys.tracee.glueType = none) :
    LooksSame k k sys { sys with lists } fun _ => True where
  limit := rfl
  stat := fun finality guestPath _ => substituteBindingStat_alike h hglue finality guestPath
  link := linkText_alike h

end Lists

/-- **Canonicalization depends on what the lists answer**, when no glue is built. -/
theorem canonicalize_alike {fuel : Nat} {sys : Sys W} {userPath guestPath : CStr} {deref : Bool}
    {level : Nat} {out : Outcome W}
    (hout : canonicalize k fuel sys userPath deref guestPath level = some out)
    (hglue : sys.tracee.glueType = none) {lists : Nat → Bindings}
    (h : ∀ addr, Alike (lists addr) (sys.lists addr)) :
    ∃ fuel, canonicalize k fuel { sys with lists } userPath deref guestPath level =
      some { out with sys := { sys with lists } } := by
  obtain ⟨fuel', hfuel⟩ := canonicalize_carry hglue (looksSame_alike h hglue) hout fun _ _ => trivial
  exact ⟨fuel', hfuel fuel' (Nat.le_refl _)⟩

/-- `translate_path` comes to `result`. -/
def TranslatesTo (k : Kernel W) (sys : Sys W) (dirFd : Int) (userPath : CStr) (deref : Bool)
    (result : Except Errno CStr) : Prop :=
  ∃ fuel out, translatePath k fuel sys dirFd userPath deref = some out ∧ out.result = result

theorem TranslatesTo.alike {sys : Sys W} {dirFd : Int} {userPath : CStr} {deref : Bool}
    {result : Except Errno CStr} (ht : TranslatesTo k sys dirFd userPath deref result)
    (hglue : sys.tracee.glueType = none) {lists : Nat → Bindings}
    (h : ∀ addr, Alike (lists addr) (sys.lists addr)) :
    TranslatesTo k { sys with lists } dirFd userPath deref result := by
  obtain ⟨fuel, out, hout, rfl⟩ := ht
  have hbase : translateBase k { sys with lists } dirFd userPath =
      translateBase k sys dirFd userPath := by
    unfold translateBase
    simp only [detranslatePath_alike h]
    rfl
  unfold TranslatesTo translatePath
  rw [hbase]
  unfold translatePath at hout
  cases hjoin : translateBase k sys dirFd userPath >>= fun base => joinPaths [base, userPath] with
  | error e =>
      rw [hjoin] at hout
      obtain rfl := Option.some.inj hout
      exact ⟨0, _, rfl, rfl⟩
  | ok guestPath =>
      rw [hjoin] at hout
      obtain ⟨canon, hcanon, rfl⟩ := Option.map_eq_some_iff.mp hout
      obtain ⟨fuel', hfuel⟩ := canonicalize_alike hcanon hglue h
      have hsys : canon.sys = sys := canonicalize_static hglue hcanon
      refine ⟨fuel', _, by simp only [hfuel, Option.map_some]; rfl, ?_⟩
      cases hr : canon.result with
      | error e => simp only [hr]
      | ok g =>
          simp only [hsys, (bindings_alike h).guest]
          rcases substituteBinding sys.bindings .guest g with ⟨hostPath, e | changed⟩ <;> rfl

/-- **Translation depends on what the lists answer**, when no glue is built. -/
theorem translatesTo_alike {sys : Sys W} (hglue : sys.tracee.glueType = none)
    {lists : Nat → Bindings} (h : ∀ addr, Alike (lists addr) (sys.lists addr)) (dirFd : Int)
    (userPath : CStr) (deref : Bool) (result : Except Errno CStr) :
    TranslatesTo k { sys with lists } dirFd userPath deref result ↔
      TranslatesTo k sys dirFd userPath deref result := by
  constructor
  · intro ht
    have hsymm : ∀ addr, Alike (sys.lists addr) (({ sys with lists } : Sys W).lists addr) :=
      fun addr => ⟨(h addr).root.symm, fun p => ((h addr).guest p).symm,
        fun p => ((h addr).host p).symm, fun p => ((h addr).path p).symm⟩
    exact ht.alike hglue hsymm
  · exact fun ht => ht.alike hglue h

end PRoot
