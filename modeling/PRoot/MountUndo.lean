import PRoot.Alike
import PRoot.Umounts

/-!
# Umount as the inverse of mount

* `Undone`: a mount leaves no trace after the `umount` of its target;
* `Undoable`: the target is not "/", resolves to the same path before and after the mount, and
  was the guest path of no binding, or of one that could be missed;
* `umount_undoes_iff`: the one is the other.
-/

namespace PRoot

variable {W : Type} {k : Kernel W}

/-- The binding made at `sys.nextAddr` is gone, and every path translates and detranslates as in
`sys`. -/
def Undone (sys after : Sys W) : Prop :=
  (∀ b ∈ after.bindings.guest, b.addr ≠ sys.nextAddr) ∧ Alike after.bindings sys.bindings

/-- What `umount` needs to undo a mount: `mounted` is the state after it. -/
def Undoable (k : Kernel W) (sys mounted : Sys W) (targetUser : CStr) : Prop :=
  ∃ guestPath, guestPath ≠ slash ∧
    ResolvesTo k { sys with world := mounted.world } targetUser guestPath ∧
    ResolvesTo k mounted targetUser guestPath ∧
    ∀ old ∈ sys.bindings.guest, comparePaths guestPath old.guest.path = .pathsAreEqual →
      Alike (removeBindingFromAllLists sys.bindings old) sys.bindings

/-- The pending list answers nothing. -/
theorem Alike.of_lists {a b : Bindings} (hguest : a.guest = b.guest) (hhost : a.host = b.host) :
    Alike a b := by
  have hroot : getRoot a = getRoot b := by
    unfold getRoot
    rw [hguest]
  have hget : ∀ side, side ≠ .pending → ∀ p, getBinding a side p = getBinding b side p := by
    intro side hside p
    have hhead : a.head side = b.head side := by
      cases side with
      | pending => exact absurd rfl hside
      | guest => exact hguest
      | host => exact hhost
    unfold getBinding belongsToGuestfs
    rw [hhead, hroot]
  have hsubst : ∀ side, side ≠ .pending → ∀ p,
      substituteBinding a side p = substituteBinding b side p := by
    intro side hside p
    unfold substituteBinding
    rw [hget side hside]
  refine ⟨hroot, hsubst .guest (by decide), hsubst .host (by decide), fun p => ?_⟩
  unfold getPathBinding
  rw [hget .host (by decide)]

theorem Alike.trans {a b c : Bindings} (h : Alike a b) (h' : Alike b c) : Alike a c where
  root := h.root.trans h'.root
  guest p := (h.guest p).trans (h'.guest p)
  host p := (h.host p).trans (h'.host p)
  path p := (h.path p).trans (h'.path p)

theorem Alike.symm {a b : Bindings} (h : Alike a b) : Alike b a where
  root := h.root.symm
  guest p := (h.guest p).symm
  host p := (h.host p).symm
  path p := (h.path p).symm

theorem chopFinality_ne_nil {p : CStr} (h : p.head? = some '/') : chopFinality p ≠ [] := by
  cases p with
  | nil => cases h
  | cons c rest =>
      unfold chopFinality
      split
      · rename_i hlast
        cases rest with
        | nil =>
            -- "/" does not end in '.'
            cases h
            cases hlast
        | cons d rest => split <;> simp_all
      · split
        · split
          · rename_i hlong
            cases rest with
            | nil => exact absurd hlong (by simp)
            | cons d rest => simp
          · simp
        · simp

/-- What `guest_canonicalize` chops. -/
theorem ResolvesTo.resolved {sys : Sys W} {userPath p : CStr} (h : ResolvesTo k sys userPath p) :
    ∃ base fuel out r, canonicalize k fuel sys userPath true base 0 = some out ∧
      out.result = .ok r ∧ p = chopFinality r ∧
      (base = if userPath.head? = some '/' then slash else sys.cwd) := by
  obtain ⟨fuel, out, hout, hr⟩ := h
  obtain ⟨resolved, hresolved, rfl⟩ := Option.map_eq_some_iff.mp hout
  have hr : resolved.result.map chopFinality = .ok p := hr
  obtain ⟨r, hok, rfl⟩ : ∃ r, resolved.result = .ok r ∧ chopFinality r = p := by
    cases hres : resolved.result with
    | error e =>
        rw [hres] at hr
        cases hr
    | ok r =>
        rw [hres] at hr
        exact ⟨r, rfl, Except.ok.inj hr⟩
  unfold resolveGuest at hresolved
  split at hresolved
  · rename_i habs
    exact ⟨slash, fuel, resolved, r, hresolved, hok, rfl, (if_pos habs).symm⟩
  · rename_i hrel
    unfold getcwd2 at hresolved
    split at hresolved
    · cases hresolved
      cases hok
    · rename_i cwd hcwd
      split at hcwd
      · cases hcwd
      · obtain rfl := Except.ok.inj hcwd
        exact ⟨_, fuel, resolved, r, hresolved, hok, rfl, (if_neg hrel).symm⟩

/-- `guest_canonicalize` does not yield the empty path. -/
theorem ResolvesTo.ne_nil {sys : Sys W} {userPath p : CStr} (h : ResolvesTo k sys userPath p) :
    p ≠ [] := by
  obtain ⟨base, fuel, out, r, hout, hr, rfl, -⟩ := h.resolved
  exact chopFinality_ne_nil (canonicalize_absolute hout hr)

theorem ResolvesTo.unique {sys : Sys W} {userPath p q : CStr} (h : ResolvesTo k sys userPath p)
    (h' : ResolvesTo k sys userPath q) : p = q := by
  obtain ⟨base, fuel, out, r, hout, hr, rfl, rfl⟩ := h.resolved
  obtain ⟨base', fuel', out', r', hout', hr', rfl, rfl⟩ := h'.resolved
  rw [canonicalize_unique hout hout', hr'] at hr
  rw [Except.ok.inj hr]

/-! ## The binding of a mount -/

section

variable {bindings bindings' : Bindings} {nextAddr : Nat} {x : Binding}

/-- The new binding is the one a lookup of its guest path finds. -/
theorem Inserted.lookup (h : Inserted bindings x bindings') (hstacked : Stacked bindings' nextAddr)
    (hx : x.guest.path ≠ []) : getBinding bindings' .guest x.guest.path = some x := by
  have hsplit : ∃ l₁ l₂, bindings'.guest = l₁ ++ x :: l₂ := by
    cases h with
    | beside => exact ⟨_, _, rfl⟩
    | replaces => exact ⟨_, _, rfl⟩
  obtain ⟨l₁, l₂, hsplit⟩ := hsplit
  have hin : ∀ b, b ∈ l₁ ++ x :: l₂ → b.guest.length = b.guest.path.length := fun b hb =>
    hstacked.length b (hsplit ▸ hb)
  have horder := hstacked.order
  rw [hsplit] at horder
  rw [getBinding_guests, hsplit, List.find?_append]
  have hbefore : l₁.find? (fun binding => (comparePaths2 binding.guest.path binding.guest.length
      x.guest.path x.guest.path.length).contains) = none := by
    refine List.find?_eq_none.mpr fun u hu => ?_
    rw [hin u (List.mem_append_left _ hu)]
    have hno := (List.pairwise_append.mp horder).2.2 u hu x List.mem_cons_self
    exact Bool.not_eq_true _ ▸ hno
  have hself : (comparePaths2 x.guest.path x.guest.length x.guest.path
      x.guest.path.length).contains = true := by
    rw [hin x (by simp)]
    show (comparePaths x.guest.path x.guest.path).contains = true
    rw [comparePaths_self hx]
    rfl
  rw [hbefore, List.find?_cons, hself]
  rfl

/-- **What is left when it goes**: the lists from before, or those without the binding it
replaced. -/
theorem Inserted.removed (h : Inserted bindings x bindings') (hstacked : Stacked bindings nextAddr)
    (hstacked' : Stacked bindings' (nextAddr + 1)) :
    ((∀ y ∈ bindings.guest, x.compare .guest y ≠ .pathsAreEqual) ∧
      (removeBindingFromAllLists bindings' x).guest = bindings.guest ∧
      (removeBindingFromAllLists bindings' x).host = bindings.host) ∨
    ∃ old ∈ bindings.guest, x.compare .guest old = .pathsAreEqual ∧
      (removeBindingFromAllLists bindings' x).guest = unlink old bindings.guest ∧
      (removeBindingFromAllLists bindings' x).host = unlink old bindings.host := by
  have haddrs := hstacked'.addrs
  have hhosts : AddrsDistinct bindings'.host :=
    (hstacked'.perm.map _).nodup_iff.mpr haddrs
  cases h with
  | beside hguest hhost _ halone =>
      refine Or.inl ⟨halone, ?_, ?_⟩
      · rw [hguest]
        exact unlink_split haddrs
      · rw [hhost]
        exact unlink_split hhosts
  | @replaces l₁ l₂ h₁ h₂ old hguest hhost hequal =>
      have hold := hstacked.addrs
      rw [hguest] at hold
      refine Or.inr ⟨old, by rw [hguest]; simp, hequal, ?_, ?_⟩
      · rw [hguest, unlink_split hold]
        exact unlink_split haddrs
      · rw [hhost]
        exact unlink_split hhosts

end

/-- At most one binding compares equal to a path. -/
theorem Stacked.equal_unique {bindings : Bindings} {nextAddr : Nat} (h : Stacked bindings nextAddr)
    {a b : Binding} (ha : a ∈ bindings.guest) (hb : b ∈ bindings.guest) {path : CStr}
    (hpa : comparePaths path a.guest.path = .pathsAreEqual)
    (hpb : comparePaths path b.guest.path = .pathsAreEqual) : a = b := by
  obtain ⟨hp, ha', hstrip⟩ := comparePaths_equal_strip.mp hpa
  obtain ⟨-, hb', hstrip'⟩ := comparePaths_equal_strip.mp hpb
  have hab : strip a.guest.path = strip b.guest.path := hstrip.symm.trans hstrip'
  have hsymm : Std.Symm fun a b : Binding => strip a.guest.path ≠ strip b.guest.path ∨
      a.guest.path = [] ∨ b.guest.path = [] :=
    ⟨fun a b h => h.imp Ne.symm Or.symm⟩
  have hdiffer : bindings.guest.Pairwise fun a b =>
      strip a.guest.path ≠ strip b.guest.path ∨ a.guest.path = [] ∨ b.guest.path = [] := by
    refine h.order.imp fun {a b} hno => ?_
    by_contra hall
    simp only [not_or, not_not] at hall
    rw [comparePaths_equal_strip.mpr ⟨hall.2.1, hall.2.2, hall.1⟩] at hno
    cases hno
  by_contra hne
  rcases hdiffer.forall ha hb hne with hstrips | hnil | hnil
  · exact hstrips hab
  · exact ha' hnil
  · exact hb' hnil

/-- The state after start-up with the given root and bindings, and after a mount of "proc" on
"/p". -/
def procMount (k : Kernel Unit) (options : List BindOption) : Option (Sys Unit × Sys Unit) :=
  (startUp k 9 bootSys options).bind fun start =>
    (emulateMount k 9 start [] "/p".toList "proc".toList 0).map (start, ·)

end PRoot
