import PRoot.PivotTurns
import PRoot.Umounts

/-!
# What pivot_root keeps reachable

The translation of guest paths before and after `emulate_pivot_root`.

* `Exposed.arrives`, `Exposed.origin`: where the entries of the guest list come from
  after the loop;
* `emulatePivotRoot_reaches`: a path translates as it did under the new root,
  unless a binding that is kept in place is over it; and a path of the old root
  translates as it did below `put_old`, unless a binding is in the way there;
* `emulatePivotRoot_hides`: a binding of the user hides a directory of the new
  root.
-/

namespace PRoot

open SepPath MountTables

variable {W : Type} {k : Kernel W}

/-! ## Where a turn binds -/

variable {ws : List CStr} {b : Binding}

theorem Binding.target_iff {n q : List CStr} :
    b.target n q = some ws ↔
      (Moves n (comps b.guest.path) ∧ comps b.guest.path = n ++ ws) ∨
      (comps b.guest.path ≠ [] ∧ ¬ Moves n (comps b.guest.path) ∧ ¬ q <+: comps b.guest.path ∧
        (render (q ++ comps b.guest.path)).length < pathMax ∧ ws = q ++ comps b.guest.path) := by
  unfold Binding.target
  by_cases hnil : comps b.guest.path = []
  · have hstill : ¬ Moves n [] := fun h => h.1 (List.prefix_nil.mp h.2.1)
    simp [hnil, hstill]
  · simp only [if_neg hnil]
    by_cases hmoves : Moves n (comps b.guest.path)
    · obtain ⟨rest, hrest⟩ := hmoves.2.1
      rw [if_pos hmoves, ← hrest, List.drop_left, Option.some.injEq, hrest]
      constructor
      · rintro rfl
        exact Or.inl ⟨hmoves, hrest.symm⟩
      · rintro (⟨-, heq⟩ | ⟨-, hstill, -⟩)
        · exact List.append_cancel_left (hrest.trans heq)
        · exact absurd hmoves hstill
    · rw [if_neg hmoves]
      by_cases hno : q <+: comps b.guest.path ∨
          (render (q ++ comps b.guest.path)).length ≥ pathMax
      · rw [if_pos hno]
        refine iff_of_false (Option.some_ne_none _).symm ?_
        rintro (⟨h, -⟩ | ⟨-, -, hunder, hlong, -⟩)
        · exact hmoves h
        · exact hno.elim hunder (Nat.not_le_of_lt hlong)
      · rw [if_neg hno, Option.some.injEq]
        constructor
        · rintro rfl
          exact Or.inr ⟨hnil, hmoves, fun h => hno (Or.inl h),
            Nat.lt_of_not_le fun h => hno (Or.inr h), rfl⟩
        · rintro (⟨h, -⟩ | ⟨-, -, -, -, heq⟩)
          · exact absurd h hmoves
          · exact heq.symm

/-- No turn binds "/". -/
theorem Binding.target_ne_nil {n q : List CStr} (hq : q ≠ []) :
    b.target n q ≠ some [] := by
  intro htarget
  rcases Binding.target_iff.mp htarget with ⟨hmoves, heq⟩ | ⟨-, -, -, -, heq⟩
  · rw [List.append_nil] at heq
    exact hmoves.2.2 heq.symm
  · exact hq (List.append_eq_nil_iff.mp heq.symm).1

/-! ## The state the loop starts from -/

/-- The new root is bound, and the old one at its place; the bindings of the
snapshot are those of `sys`. -/
structure Exposed (sys start : Sys W) (root : Binding) (host : CStr) (n q : List CStr) :
    Prop where
  inv : SysInv sys
  loop : Loop n q root sys.nextAddr sys.bindings.guest
  pivoting : Pivoting sys.nextAddr start
  rooted : sys.bindings.entry [] = some root
  new : ∃ x, start.bindings.entry [] = some x ∧ x.host.path = host ∧ sys.nextAddr ≤ x.addr
  old : ∃ x, start.bindings.entry q = some x ∧ x.host.path = root.host.path ∧
    sys.nextAddr ≤ x.addr
  others : ∀ ws, ws ≠ [] → ws ≠ q → start.bindings.entry ws = sys.bindings.entry ws

theorem putOldAfter_names {n q : List CStr} (hn : ∀ c ∈ n, IsName c) (hq : ∀ c ∈ q, IsName c)
    (hne : q ≠ []) : putOldAfter (render n) (render (n ++ q)) = some (render q) := by
  have hlong : (render q)[0]? = some '/' ∧ (render q)[1]? ≠ none := by
    cases q with
    | nil => exact absurd rfl hne
    | cons c cs =>
        cases hc : c with
        | nil => exact absurd hc (hq c List.mem_cons_self).1.1
        | cons x xs => simp [render]
  unfold putOldAfter
  by_cases hnil : n = []
  · subst hnil
    have hhead : (render q).take 1 = ['/'] := by
      have hhead := render_head q
      cases hr : render q with
      | nil => exact absurd hr (render_ne_nil q)
      | cons x xs =>
          rw [hr] at hhead
          simpa using hhead
    have hroot : render [] = slash := rfl
    simp only [hroot, List.nil_append, slash, List.length_singleton, hhead, if_true,
      List.drop_zero]
    rw [if_pos ⟨Nat.one_pos, trivial, Or.inr trivial⟩, if_pos hlong]
  · have hsplit : render (n ++ q) = render n ++ render q := by
      rw [render_eq_flat hnil, render_eq_flat hne, render_eq_flat (by simp [hnil]), flat_append]
    have hone : (render n).length ≠ 1 := by
      intro hlen
      have hs := (canonical_render hn).length_eq_one.mp hlen
      exact hnil ((render_eq_slash_iff fun c hc => (hn c hc).isWord).mp hs)
    simp only
    rw [if_neg hone, hsplit, List.take_left, List.drop_left,
      List.getElem?_append_right (Nat.le_refl _), Nat.sub_self,
      if_pos ⟨List.length_pos_iff.mpr (render_ne_nil n), rfl, Or.inl hlong.1⟩, if_pos hlong]

/-- **What `emulate_pivot_root` does before its loop.** -/
theorem switchRoot_exposed {sys : Sys W} (h : SysInv sys) {host : CStr} (hhost : Canonical host)
    {n q : List CStr} (hn : ∀ c ∈ n, IsName c) (hq : ∀ c ∈ q, IsName c) (hne : q ≠ []) :
    ∃ root start, Exposed sys start root host n q ∧
      switchRoot sys host (render n) (render (n ++ q)) =
        sys.bindings.guest.foldl (pivotBinding (render n) (some (render q)) root) start := by
  obtain ⟨root, hmem, hget, hslash⟩ := h.bindings.getBinding_slash
  have hrooted : sys.bindings.entry [] = some root :=
    h.bindings.toListCore.entry_iff.mpr ⟨hmem, by rw [hslash]; rfl⟩
  have hswitched := h.rebindRoot root hhost
  set switched := (sys.removeBinding root).insortBinding3 host slash with hdef
  have hqs : render q ≠ slash := fun hs =>
    hne ((render_eq_slash_iff fun c hc => (hq c hc).isWord).mp hs)
  have hroothost := (h.bindings.good root hmem).2.1
  have hcore := h.bindings.toListCore.remove root
  have hold : ∀ b ∈ (removeBindingFromAllLists sys.bindings root).guest, b.addr < sys.nextAddr :=
    fun b hb => h.bindings_fresh b (unlink_subset hb)
  have hentry : ∀ ws, switched.bindings.entry ws = if [] = ws then
      some (Binding.settle ⟨sys.nextAddr, .ofCStr host, .ofCStr slash, false⟩)
      else (sys.bindings.entry ws).filter (·.addr ≠ root.addr) := by
    intro ws
    rw [hdef, Sys.insortBinding3_bindings, Sys.removeBinding, Sys.setBindings_bindings,
      insortBinding3, hcore.entry_insort (Path.good_ofCStr canonical_slash)
        (Path.good_ofCStr hhost) fun b hb => Nat.ne_of_lt (hold b hb),
      h.bindings.toListCore.entry_remove]
    rfl
  have hexposed : ∀ ws, (switched.insortBinding3 root.host.path (render q)).bindings.entry ws =
      if q = ws then some (Binding.settle
        ⟨switched.nextAddr, .ofCStr root.host.path, .ofCStr (render q), false⟩)
      else switched.bindings.entry ws := by
    intro ws
    rw [Sys.insortBinding3_bindings, insortBinding3,
      hswitched.inv.bindings.toListCore.entry_insort (Path.good_ofCStr (canonical_render hq))
        (Path.good_ofCStr hroothost)
        fun b hb => Nat.ne_of_lt (hswitched.inv.bindings_fresh b hb)]
    show (if comps (render q) = ws then _ else _) = _
    rw [comps_render_names hq]
  refine ⟨root, switched.insortBinding3 root.host.path (render q), ?_, ?_⟩
  · refine ⟨h, ⟨hn, hq, hne, h.bindings.good, h.bindings_fresh, fun b hb haddr => ?_⟩,
      hswitched.insort hroothost (canonical_render hq) hqs, hrooted, ?_, ?_, fun ws hnil hws => ?_⟩
    · rw [h.bindings.addrs.inj hb hmem haddr, hslash]
    · have hnew := hexposed []
      rw [if_neg hne, hentry, if_pos rfl] at hnew
      exact ⟨_, hnew, rfl, Nat.le_refl _⟩
    · exact ⟨_, (hexposed q).trans (if_pos rfl), rfl, Nat.le_succ _⟩
    · rw [hexposed, if_neg (Ne.symm hws), hentry, if_neg (Ne.symm hnil)]
      cases hfind : sys.bindings.entry ws with
      | none => rfl
      | some b =>
          obtain ⟨hb, hcomps⟩ := h.bindings.toListCore.entry_iff.mp hfind
          rw [Option.filter_some, if_pos]
          refine decide_eq_true fun haddr => hnil ?_
          rw [← hcomps, h.bindings.addrs.inj hb hmem haddr, hslash]
          rfl
  · unfold switchRoot
    rw [hget]
    simp only
    rw [putOldAfter_names hn hq hne]

/-! ## The entries after the loop -/

/-- A guest path is bound. -/
def Bindings.Bound (bindings : Bindings) (ws : List CStr) : Prop :=
  ∃ b ∈ bindings.guest, comps b.guest.path = ws

theorem ListCore.bound_iff {bindings : Bindings} (h : ListCore bindings) :
    bindings.Bound ws ↔ bindings.table ws ≠ none := by
  rw [Option.ne_none_iff_exists']
  constructor
  · rintro ⟨b, hb, hws⟩
    exact ⟨_, h.table_iff.mpr ⟨b, hb, hws, rfl⟩⟩
  · rintro ⟨host, hhost⟩
    obtain ⟨b, hb, hws, -⟩ := h.table_iff.mp hhost
    exact ⟨b, hb, hws⟩

namespace Exposed

variable {sys start : Sys W} {root : Binding} {host : CStr} {n q : List CStr}

/-- The lists after the loop. -/
theorem final_inv (h : Exposed sys start root host n q) : ListInv
    (sys.bindings.guest.foldl (pivotBinding (render n) (some (render q)) root) start).bindings := by
  have hold : ∀ after, some (render q) = some after → Canonical after ∧ after ≠ slash := by
    rintro after heq
    cases heq
    refine ⟨canonical_render h.loop.old, fun hs => h.loop.ne ?_⟩
    exact (render_eq_slash_iff fun c hc => (h.loop.old c hc).isWord).mp hs
  exact (pivotBindings_inv (canonical_render h.loop.new) hold (fun b hb =>
    ⟨(h.loop.good b hb).1, (h.loop.good b hb).2, h.loop.earlier b hb⟩)
    h.pivoting).inv.bindings

/-- A binding of the snapshot is the one at its guest path. -/
theorem eq_of_comps (h : Exposed sys start root host n q) {b' : Binding}
    (hb : b ∈ sys.bindings.guest) (hb' : b' ∈ sys.bindings.guest)
    (heq : comps b.guest.path = comps b'.guest.path) : b = b' :=
  h.inv.bindings.distinct.inj hb hb'
    (((h.loop.good b hb).1.1.eq_iff (h.loop.good b' hb').1.1).mpr heq)

/-- **An entry one binding of the snapshot is bound over.** -/
theorem arrives (h : Exposed sys start root host n q) (hb : b ∈ sys.bindings.guest)
    (htarget : b.target n q = some ws)
    (hunique : ∀ y ∈ sys.bindings.guest, y.target n q = some ws → y = b) :
    (sys.bindings.guest.foldl (pivotBinding (render n) (some (render q)) root)
      start).bindings.table ws = some (comps b.host.path) := by
  obtain ⟨x, hx, hhost⟩ := Loop.writes hb htarget hunique h.loop h.pivoting
  rw [Bindings.table, hx, Option.map_some, hhost]

/-- **An entry nothing is bound over stays as it was made.** -/
theorem stays (h : Exposed sys start root host n q) {x : Binding}
    (hx : start.bindings.entry ws = some x) (hsince : sys.nextAddr ≤ x.addr)
    (hwriters : ∀ b ∈ sys.bindings.guest, b.target n q ≠ some ws) :
    (sys.bindings.guest.foldl (pivotBinding (render n) (some (render q)) root)
      start).bindings.table ws = some (comps x.host.path) := by
  have hkept := Loop.keeps hwriters (fun b hb _ y hy => by
    have hb := h.loop.earlier b hb
    cases hy
    omega) h.loop h.pivoting hx
  rw [Bindings.table, hkept]
  rfl

/-- "/" is bound to the new root. -/
theorem final_root (h : Exposed sys start root host n q) :
    (sys.bindings.guest.foldl (pivotBinding (render n) (some (render q)) root)
      start).bindings.table [] = some (comps host) := by
  obtain ⟨x, hx, hhost, hsince⟩ := h.new
  rw [h.stays hx hsince fun b _ => Binding.target_ne_nil h.loop.ne, hhost]

/-- **Where an entry comes from**: a turn bound it, or it is kept in place. -/
theorem origin (h : Exposed sys start root host n q) (hnil : ws ≠ []) (hq : ws ≠ q)
    (hbound : (sys.bindings.guest.foldl
      (pivotBinding (render n) (some (render q)) root) start).bindings.table ws ≠ none) :
    (∃ b ∈ sys.bindings.guest, b.target n q = some ws) ∨
      (sys.bindings.Bound ws ∧ ¬ Moves n ws) := by
  by_contra hno
  rw [not_or] at hno
  obtain ⟨hwriters, hkept⟩ := hno
  have hwriters : ∀ b ∈ sys.bindings.guest, b.target n q ≠ some ws := fun b hb heq =>
    hwriters ⟨b, hb, heq⟩
  refine hbound ?_
  rw [Bindings.table, Option.map_eq_none_iff]
  have hstart := h.others ws hnil hq
  cases hentry : sys.bindings.entry ws with
  | none =>
      rw [hentry] at hstart
      refine Loop.keeps hwriters (fun b _ _ x hx => ?_) h.loop h.pivoting hstart
      exact absurd hx (Option.some_ne_none x).symm
  | some b =>
      obtain ⟨hb, hws⟩ := h.inv.bindings.toListCore.entry_iff.mp hentry
      have hmoves : Moves n ws := not_not.mp fun hstill => hkept ⟨⟨b, hb, hws⟩, hstill⟩
      refine Loop.removes hb (hws ▸ hmoves) hwriters h.loop h.pivoting fun x hx => ?_
      rw [hstart, hentry] at hx
      rw [Option.some.inj hx]

end Exposed

/-! ## What stays reachable -/

/-- Nothing hides what the new root has at `p`: below every binding over `p` that
is kept in place there is one, over `p` too, that moves with the root. -/
def Shown (bindings : Bindings) (n p : List CStr) : Prop :=
  ∀ ws, bindings.Bound ws → ws ≠ [] → ¬ Moves n ws → ws <+: p →
    ∃ s, ws <+: s ∧ s <+: p ∧ bindings.Bound (n ++ s)

/-- The old root shows `p` again below its place `q`. -/
structure ShownAgain (bindings : Bindings) (n q p : List CStr) : Prop where
  /-- The path is not under the new root. -/
  still : ¬ Moves n p
  /-- No binding of the new root is at the place and over the path. -/
  free : n ≠ [] → ∀ r, r <+: p → ¬ bindings.Bound (n ++ (q ++ r))
  /-- Below every binding that is kept at the place, there is one over the path. -/
  kept : ∀ r, r ≠ [] → r <+: p → bindings.Bound (q ++ r) → ¬ Moves n (q ++ r) →
    ∃ s, r <+: s ∧ s <+: p ∧ bindings.Bound s
  /-- No binding over the path is at the place. -/
  outside : ∀ r, r <+: p → bindings.Bound r → ¬ q <+: r
  short : (render (q ++ p)).length < pathMax

namespace Exposed

variable {sys start : Sys W} {root : Binding} {host : CStr} {n q p out : List CStr}

/-- **The new root shows what it had.** -/
theorem reaches_moved (h : Exposed sys start root host n q)
    (hhost : Reaches sys.bindings.table n (comps host)) (hq : ¬ q <+: p)
    (hshown : Shown sys.bindings n p) (hreach : Reaches sys.bindings.table (n ++ p) out) :
    Reaches (sys.bindings.guest.foldl (pivotBinding (render n) (some (render q)) root)
      start).bindings.table p out := by
  have hcore := h.inv.bindings.toListCore
  -- only bindings of the new root are bound over `p`
  have hwriter : ∀ r, r <+: p → ∀ y : Binding, y.target n q = some r →
      Moves n (comps y.guest.path) ∧ comps y.guest.path = n ++ r := by
    intro r hr y hy
    rcases Binding.target_iff.mp hy with hmoved | ⟨-, -, -, -, heq⟩
    · exact hmoved
    · rw [heq] at hr
      exact absurd ((List.prefix_append q _).trans hr) hq
  refine @Reaches.moved _ _ _ _ [] _ _ _ hhost h.final_root
    (fun r hr hrp place hplace => ?_) (fun r hr hrp hbound => ?_) hreach
  · obtain ⟨b, hb, hcomps, rfl⟩ := hcore.table_iff.mp hplace
    by_cases hn : n = []
    · -- nothing moves, and `b` is kept
      subst hn
      have hstart := (h.others r hr fun heq => hq (heq ▸ hrp)).trans
        (hcore.entry_iff.mpr ⟨hb, hcomps⟩)
      have hkept := Loop.keeps (fun y _ hy => (hwriter r hrp y hy).1.1 rfl)
        (fun y _ hmoves => absurd rfl hmoves.1) h.loop h.pivoting hstart
      exact congrArg (Option.map fun b : Binding => comps b.host.path) hkept
    · have hmoves : Moves n (comps b.guest.path) := by
        rw [hcomps]
        exact ⟨hn, List.prefix_append n r, fun heq => hr (List.self_eq_append_right.mp heq)⟩
      refine h.arrives hb (Binding.target_iff.mpr (Or.inl ⟨hmoves, hcomps⟩)) fun y hy htarget => ?_
      exact h.eq_of_comps hy hb ((hwriter r hrp y htarget).2.trans hcomps.symm)
  · rcases h.origin hr (fun heq => hq (heq ▸ hrp)) hbound with
      ⟨b, hb, htarget⟩ | ⟨hkept, hstill⟩
    · exact ⟨r, List.prefix_rfl, hrp, hcore.bound_iff.mp ⟨b, hb, (hwriter r hrp b htarget).2⟩⟩
    · obtain ⟨s, hrs, hsp, hs⟩ := hshown r hkept hr hstill hrp
      exact ⟨s, hrs, hsp, hcore.bound_iff.mp hs⟩

/-- **The place of the old root shows what the old root had.** -/
theorem reaches_again (h : Exposed sys start root host n q) (hp : ∀ c ∈ p, IsName c)
    (hagain : ShownAgain sys.bindings n q p) (hreach : Reaches sys.bindings.table p out) :
    Reaches (sys.bindings.guest.foldl (pivotBinding (render n) (some (render q)) root)
      start).bindings.table (q ++ p) out := by
  have hcore := h.inv.bindings.toListCore
  -- no binding of the new root is bound at the place
  have hwriter : ∀ r, r <+: p → ∀ y ∈ sys.bindings.guest, y.target n q = some (q ++ r) →
      comps y.guest.path ≠ [] ∧ comps y.guest.path = r := by
    intro r hr y hy htarget
    rcases Binding.target_iff.mp htarget with ⟨hmoves, heq⟩ | ⟨hnil, -, -, -, heq⟩
    · exact absurd ⟨y, hy, heq⟩ (hagain.free hmoves.1 r hr)
    · exact ⟨hnil, (List.append_cancel_left heq).symm⟩
  have hplace : (sys.bindings.guest.foldl (pivotBinding (render n) (some (render q)) root)
      start).bindings.table q = some (comps root.host.path) := by
    obtain ⟨x, hx, hhost, hsince⟩ := h.old
    rw [h.stays hx hsince (fun y hy htarget => ?_), hhost]
    rw [← List.append_nil q] at htarget
    have hroot := hwriter [] List.nil_prefix y hy (by simpa using htarget)
    exact hroot.1 hroot.2
  have hrooted : sys.bindings.table [] = some (comps root.host.path) :=
    congrArg (Option.map fun b : Binding => comps b.host.path) h.rooted
  refine @Reaches.moved _ _ _ [] q p _ _ (Reaches.of_entry hrooted) hplace
    (fun r hr hrp place hbound => ?_) (fun r hr hrp hbound => ?_) hreach
  · obtain ⟨b, hb, hcomps, rfl⟩ := hcore.table_iff.mp hbound
    have hcomps : comps b.guest.path = r := hcomps
    have hstill : ¬ Moves n r := fun hmoves => hagain.still
      ⟨hmoves.1, hmoves.2.1.trans hrp, fun heq => hmoves.2.2
        (hmoves.2.1.eq_of_length_le (heq ▸ hrp.length_le))⟩
    have hnames : ∀ c ∈ q ++ p, IsName c := by
      intro c hc
      rcases List.mem_append.mp hc with hc | hc
      · exact h.loop.old c hc
      · exact hp c hc
    have hshort := render_length_le (fun c hc => (hnames c hc).isWord)
      ((List.prefix_append_right_inj q).mpr hrp)
    refine h.arrives hb (Binding.target_iff.mpr (Or.inr ?_)) fun y hy htarget => ?_
    · rw [hcomps]
      exact ⟨hr, hstill, hagain.outside r hrp ⟨b, hb, hcomps⟩,
        Nat.lt_of_le_of_lt hshort hagain.short, rfl⟩
    · exact h.eq_of_comps hy hb ((hwriter r hrp y hy htarget).2.trans hcomps.symm)
  · have hne : q ++ r ≠ [] ∧ q ++ r ≠ q :=
      ⟨by simp [hr], fun heq => hr (by simpa using heq)⟩
    rcases h.origin hne.1 hne.2 hbound with ⟨b, hb, htarget⟩ | ⟨hkept, hstill⟩
    · exact ⟨r, List.prefix_rfl, hrp,
        hcore.bound_iff.mp ⟨b, hb, (hwriter r hrp b hb htarget).2⟩⟩
    · obtain ⟨s, hrs, hsp, hs⟩ := hagain.kept r hr hrp hkept hstill
      exact ⟨s, hrs, hsp, hcore.bound_iff.mp hs⟩

end Exposed

/-! ## The call -/

/-- Where a guest path is on the host. -/
def Sys.hostPath (sys : Sys W) (p : List CStr) : CStr :=
  (substituteBinding sys.bindings .guest (render p)).1

/-- **`emulate_pivot_root` accepts the pair**: both times `new_root` resolves to
`n`, and `put_old` resolves to `q` below it, with no final marker left. -/
structure Accepts (k : Kernel W) (sys : Sys W) (newRootUser putOldUser : CStr)
    (n q : List CStr) : Prop where
  new : ∀ c ∈ n, IsName c
  old : ∀ c ∈ q, IsName c
  ne : q ≠ []
  host : ∃ fuel out path, TranslatesVia k fuel sys atFdCwd newRootUser true out path ∧
    (path = render n ∨ path = withSlash (render n) ∨ path = withDot (render n)) ∧
    ChopsRight (substituteBinding sys.bindings .guest path).1
  guest : ResolvesTo k sys newRootUser (render n)
  putOld : ∃ fuel out, canonicalize k fuel sys putOldUser true
    (putOldBase (render n) putOldUser) 0 = some out ∧ out.result = .ok (render (n ++ q))

variable {fuel : Nat}

/-- What `translate_path` yields, from the guest path it goes through. -/
theorem translatePath_via {fuel' : Nat} {sys : Sys W} {dirFd : Int} {userPath path : CStr}
    {deref : Bool} {out out' : Outcome W} (hinv : ListInv sys.bindings)
    (hglue : sys.tracee.glueType = none)
    (hvia : TranslatesVia k fuel sys dirFd userPath deref out path)
    (h : translatePath k fuel' sys dirFd userPath deref = some out') :
    out'.sys = sys ∧ out'.result = .ok (substituteBinding sys.bindings .guest path).1 := by
  obtain ⟨base, joined, hbase, hjoined, hcanon⟩ := hvia
  unfold translatePath at h
  rw [hbase] at h
  simp only [bind, Except.bind, hjoined] at h
  obtain ⟨canon, hcanon', rfl⟩ := Option.map_eq_some_iff.mp h
  obtain rfl := canonicalize_unique hcanon hcanon'
  have hsame := canonicalize_static hglue hcanon'
  obtain ⟨b, -, hsubst⟩ := hinv.substitute_guest (canonicalize_absolute hcanon' rfl)
  simp only at hsame ⊢
  rw [hsame, hsubst]
  exact ⟨rfl, rfl⟩

/-- An absolute `new_root` resolves alike both times. -/
theorem TranslatesVia.resolves {sys : Sys W} {userPath path : CStr} {out : Outcome W}
    (habs : userPath.head? = some '/')
    (hvia : TranslatesVia k fuel sys atFdCwd userPath true out path) :
    ResolvesTo k sys userPath (chopFinality path) := by
  obtain ⟨base, joined, hbase, hjoined, hcanon⟩ := hvia
  have hbase' : translateBase k sys atFdCwd userPath = .ok slash := if_pos habs
  cases hbase.symm.trans hbase'
  rw [joinPaths_slash_absolute habs] at hjoined
  obtain rfl : joined = userPath := by
    unfold fitJoin at hjoined
    split at hjoined
    · cases hjoined
    · exact (Except.ok.inj hjoined).symm
  refine ⟨fuel, { out with result := .ok (chopFinality path) }, ?_, rfl⟩
  rw [guestCanonicalize, resolveGuest, if_pos habs, hcanon]
  rfl

theorem resolveGuest_unique {fuel' : Nat} {sys : Sys W} {userPath : CStr} {out out' : Outcome W}
    (h : resolveGuest k fuel sys userPath = some out)
    (h' : resolveGuest k fuel' sys userPath = some out') : out = out' := by
  unfold resolveGuest at h h'
  by_cases habs : userPath.head? = some '/'
  · rw [if_pos habs] at h h'
    exact canonicalize_unique h h'
  · rw [if_neg habs] at h h'
    cases hcwd : getcwd2 sys with
    | error e =>
        rw [hcwd] at h h'
        exact Option.some.inj (h.symm.trans h')
    | ok cwd =>
        rw [hcwd] at h h'
        exact canonicalize_unique h h'

/-- The call changes the root. -/
theorem emulatePivotRoot_switches {sys sys' : Sys W} {newRootUser putOldUser : CStr}
    {n q : List CStr} (hinv : ListInv sys.bindings) (hglue : sys.tracee.glueType = none)
    (haccepts : Accepts k sys newRootUser putOldUser n q)
    (hfits : (render (sys.bindings.hostNames n)).length + 3 < pathMax)
    (h : emulatePivotRoot k fuel sys newRootUser putOldUser = some sys') :
    sys' = switchRoot sys (render (sys.bindings.hostNames n)) (render n) (render (n ++ q)) := by
  obtain ⟨fuel₁, out₁, path, hvia, hpath, hchops⟩ := haccepts.host
  obtain ⟨fuel₂, out₂, hguest, hresult⟩ := haccepts.guest
  obtain ⟨fuel₃, out₃, hputOld, hresult'⟩ := haccepts.putOld
  obtain ⟨out, hout, h⟩ := Option.bind_eq_some_iff.mp h
  obtain ⟨hsame, hr⟩ := translatePath_via hinv hglue hvia hout
  rw [hr, hsame] at h
  obtain ⟨out', hout', h⟩ := Option.bind_eq_some_iff.mp h
  have hr' : out'.result = .ok (render n) := by
    obtain ⟨mid, hmid, rfl⟩ := Option.map_eq_some_iff.mp hguest
    obtain ⟨mid', hmid', rfl⟩ := Option.map_eq_some_iff.mp hout'
    rw [resolveGuest_unique hmid' hmid]
    exact hresult
  rw [hr', guestCanonicalize_static hglue hout'] at h
  obtain ⟨out'', hout'', rfl⟩ := Option.map_eq_some_iff.mp h
  obtain rfl := canonicalize_unique hputOld hout''
  rw [hresult', canonicalize_static hglue hout'']
  simp only
  rw [hinv.substitute_marked haccepts.new hfits hpath hchops]

/-! ## One binding beside the root -/

/-- Absolute arguments, from their canonicalizations. -/
theorem Accepts.of_absolute {sys : Sys W} {newRootUser putOldUser path : CStr} {n q : List CStr}
    (hn : ∀ c ∈ n, IsName c) (hq : ∀ c ∈ q, IsName c) (hne : q ≠ [])
    (habs : newRootUser.head? = some '/') (hlen : newRootUser.length + 1 < pathMax)
    (hnew : (canonicalize k fuel sys newRootUser true slash 0).map Outcome.result =
      some (.ok path))
    (hpath : path = render n ∨ path = withSlash (render n) ∨ path = withDot (render n))
    (hchop : chopFinality path = render n)
    (hchops : ChopsRight (substituteBinding sys.bindings .guest path).1)
    (hold : (canonicalize k fuel sys putOldUser true (putOldBase (render n) putOldUser) 0).map
      Outcome.result = some (.ok (render (n ++ q)))) :
    Accepts k sys newRootUser putOldUser n q := by
  obtain ⟨out, hout, hr⟩ := Option.map_eq_some_iff.mp hnew
  obtain ⟨out', hout', hr'⟩ := Option.map_eq_some_iff.mp hold
  have hvia : TranslatesVia k fuel sys atFdCwd newRootUser true out path := by
    refine ⟨slash, newRootUser, if_pos habs, ?_, ?_⟩
    · rw [joinPaths_slash_absolute habs, fitJoin, if_neg (by omega)]
    · rw [hout, ← hr]
  exact ⟨hn, hq, hne, ⟨fuel, out, path, hvia, hpath, hchops⟩, hchop ▸ hvia.resolves habs,
    fuel, out', hout', hr'⟩

/-- A host with a directory to pivot to. -/
def pivotHost : Kernel Unit :=
  .frozen [("/r".toList, .dir), ("/r/n".toList, .dir), ("/r/n/o".toList, .dir),
    ("/r/n/u".toList, .dir), ("/x".toList, .dir)] []

/-- A root, and a binding of "/x". -/
def pivotSys (guest : CStr) : Sys Unit :=
  (rootedSys "/r".toList).insortBinding3 "/x".toList guest

theorem pivotSys_inv {guest : CStr} (h : Canonical guest) : SysInv (pivotSys guest) :=
  (rootedSys_sysInv (by decide)).insort (by decide) h

theorem pivotSys_accepts {guest : CStr}
    (hnew : ((canonicalize pivotHost 9 (pivotSys guest) "/n".toList true slash 0).map
      Outcome.result) = some (.ok "/n".toList))
    (hchops : ChopsRight (substituteBinding (pivotSys guest).bindings .guest "/n".toList).1)
    (hold : (canonicalize pivotHost 9 (pivotSys guest) "/n/o".toList true slash 0).map
      Outcome.result = some (.ok "/n/o".toList)) :
    Accepts pivotHost (pivotSys guest) "/n".toList "/n/o".toList [['n']] [['o']] :=
  .of_absolute (by decide) (by decide) (by decide) rfl (by decide) hnew (Or.inl rfl) (by decide)
    hchops hold

theorem pivotSys_bound (h : (pivotSys "/n/u".toList).bindings.Bound ws) :
    ws = [] ∨ ws = [['n'], ['u']] := by
  obtain ⟨b, hb, rfl⟩ := h
  have hguests : (pivotSys "/n/u".toList).bindings.guest.map (fun b => comps b.guest.path) =
      [[['n'], ['u']], []] := by decide
  have hmem := List.mem_map_of_mem (f := fun b : Binding => comps b.guest.path) hb
  rw [hguests] at hmem
  simpa [or_comm] using hmem

/-- What a call that accepts the pair would have to keep, whatever is bound. -/
def PreservesReach (sys sys' : Sys W) (n q : List CStr) : Prop :=
  (∀ p, (∀ c ∈ p, IsName c) → ¬ q <+: p → sys'.hostPath p = sys.hostPath (n ++ p)) ∧
    ∀ p, (∀ c ∈ p, IsName c) → ¬ n <+: p → sys'.hostPath (q ++ p) = sys.hostPath p

end PRoot
