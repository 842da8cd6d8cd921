import PRoot.HostNames
import PRoot.MountInv

/-!
# The turns of pivot_root

What the loop of `emulate_pivot_root` makes of the entries of the guest list.

* `pivotBinding_eq`: a turn, by the names of the paths;
* `Loop.turn_entry`: what one turn does to an entry;
* `Loop.keeps`, `Loop.writes`, `Loop.removes`: what the whole loop does to an entry
  that no two bindings of the snapshot compete for.
-/

namespace PRoot

open SepPath

variable {W : Type}

/-! ## The tests of a turn -/

variable {g : CStr}

theorem Canonical.eq_flat (hg : Canonical g) (hgs : g ≠ slash) :
    g = flat '/' (comps g) := by
  have htrim := hg.trim_eq
  rwa [trim, if_neg hgs] at htrim

theorem render_eq_flat {q : List CStr} (hq : q ≠ []) : render q = flat '/' q :=
  SepPath.render_of_ne_nil '/' hq

/-- The test whether a binding is at a path or under it. -/
theorem at_or_under_iff {q : List CStr} (hq : q ≠ []) (hqn : ∀ c ∈ q, IsName c) (hg : Canonical g)
    (hgs : g ≠ slash) :
    (g.take (render q).length = render q ∧
      (g[(render q).length]? = none ∨ g[(render q).length]? = some '/')) ↔ q <+: comps g := by
  rw [← covers_flat_iff '/' (fun c hc => (hqn c hc).isWord) (comps_words g), ← hg.eq_flat hgs,
    render_eq_flat hq]
  constructor
  · rintro ⟨htake, hend⟩
    refine ⟨g.drop (flat '/' q).length, ?_, by rwa [AtBoundary, List.head?_drop]⟩
    conv_lhs => rw [← List.take_append_drop (flat '/' q).length g, htake]
  · rintro ⟨rest, hrest, hboundary⟩
    rw [AtBoundary, List.head?_eq_getElem?] at hboundary
    rw [hrest, List.take_left, List.getElem?_append_right (Nat.le_refl _), Nat.sub_self]
    exact ⟨rfl, hboundary⟩

/-- The guest paths that move with the root: those strictly under the new one,
unless it is "/". -/
def Moves (n ws : List CStr) : Prop := n ≠ [] ∧ n <+: ws ∧ n ≠ ws

instance (n ws : List CStr) : Decidable (Moves n ws) := inferInstanceAs (Decidable (_ ∧ _))

/-- The test whether a binding moves. -/
theorem moves_iff {n : List CStr} (hnn : ∀ c ∈ n, IsName c) (hg : Canonical g) (hgs : g ≠ slash) :
    ((render n).length > 0 ∧ g.length > (render n).length ∧
      g.take (render n).length = render n ∧ g[(render n).length]? = some '/') ↔
    Moves n (comps g) := by
  by_cases hn : n = []
  · subst hn
    refine iff_of_false (fun h => hg.second_ne h.2.2.2) fun h => h.1 rfl
  · have hends : Moves n (comps g) ↔ EndsInside (render n) g := by
      have hiff := endsInside_flat_iff (fun c hc => (hnn c hc).isWord) (comps_words g)
      rw [← hg.eq_flat hgs, ← render_eq_flat hn] at hiff
      rw [hiff]
      exact and_iff_right hn
    rw [hends]
    constructor
    · rintro ⟨-, -, htake, hend⟩
      exact ⟨List.prefix_iff_eq_take.mpr htake.symm, hend⟩
    · intro h
      exact ⟨List.length_pos_iff.mpr (render_ne_nil n), h.length_lt,
        (List.prefix_iff_eq_take.mp h.1).symm, h.2⟩

/-- Where a binding moves to. -/
theorem drop_of_moves {n : List CStr} (hg : Canonical g) (h : Moves n (comps g)) :
    g.drop (render n).length = render ((comps g).drop n.length) := by
  obtain ⟨hn, ⟨ws, hws⟩, hne⟩ := h
  have hgs : g ≠ slash := by
    rintro rfl
    exact hn (List.append_eq_nil_iff.mp hws).1
  have hwsne : ws ≠ [] := by
    rintro rfl
    exact hne (by rw [← hws, List.append_nil])
  rw [← hws, List.drop_left, render_eq_flat hn, render_eq_flat hwsne]
  conv_lhs => rw [hg.eq_flat hgs, ← hws, flat_append, List.drop_left]

/-- Where a binding is shown again. -/
theorem append_names {q : List CStr} (hq : q ≠ []) (hg : Canonical g) (hgs : g ≠ slash) :
    render q ++ g = render (q ++ comps g) := by
  conv_lhs => rw [hg.eq_flat hgs]
  rw [render_eq_flat hq, render_eq_flat (by simp [hq]), flat_append]

/-- The place a turn binds: under the new root or under the old one. -/
def Binding.target (n q : List CStr) (b : Binding) : Option (List CStr) :=
  let ws := comps b.guest.path
  if ws = [] then none
  else if Moves n ws then some (ws.drop n.length)
  else if q <+: ws ∨ (render (q ++ ws)).length ≥ pathMax then none
  else some (q ++ ws)

variable {b : Binding}

/-- **A turn of the loop**, by the names of the paths. -/
theorem pivotBinding_eq {n q : List CStr} (hnn : ∀ c ∈ n, IsName c) (hqn : ∀ c ∈ q, IsName c)
    (hq : q ≠ []) {root : Binding} (sys : Sys W) (hg : Canonical b.guest.path)
    (hroot : b.addr = root.addr → b.guest.path = slash) :
    pivotBinding (render n) (some (render q)) root sys b =
      match b.target n q with
      | none => sys
      | some ws =>
          if Moves n (comps b.guest.path) then
            (sys.insortBinding3 b.host.path (render ws)).removeBinding b
          else sys.insortBinding3 b.host.path (render ws) := by
  unfold pivotBinding Binding.target
  by_cases hs : b.guest.path = slash
  · have hnil : comps b.guest.path = [] := by rw [hs]; rfl
    rw [if_pos (Or.inr hs), hnil]
    rfl
  · have hne : comps b.guest.path ≠ [] := by
      intro hnil
      refine hs (hg.2.trans ?_)
      rw [hnil]
      rfl
    rw [if_neg (fun h => hs (h.elim hroot id))]
    simp only [if_neg hne, moves_iff hnn hg hs, at_or_under_iff hq hqn hg hs,
      append_names hq hg hs]
    by_cases hmoves : Moves n (comps b.guest.path)
    · rw [if_pos hmoves, if_pos hmoves]
      simp only
      rw [if_pos hmoves, drop_of_moves hg hmoves]
    · rw [if_neg hmoves, if_neg hmoves]
      by_cases hunder : q <+: comps b.guest.path
      · rw [if_pos hunder, if_pos (Or.inl hunder)]
      · rw [if_neg hunder]
        by_cases hlong : (render (q ++ comps b.guest.path)).length ≥ pathMax
        · rw [if_pos hlong, if_pos (Or.inr hlong)]
        · rw [if_neg hlong, if_neg (fun h => h.elim hunder hlong)]
          simp only
          rw [if_neg hmoves]

/-! ## The loop -/

section Turns

variable {n q : List CStr} {root : Binding} {since : Nat}

/-- What the loop is about: the new root `n`, the place `q` of the old one, and
bindings that were made before the address `since`. -/
structure Loop (n q : List CStr) (root : Binding) (since : Nat) (snapshot : List Binding) :
    Prop where
  new : ∀ c ∈ n, IsName c
  old : ∀ c ∈ q, IsName c
  ne : q ≠ []
  good : ∀ b ∈ snapshot, b.guest.Good ∧ b.host.Good
  earlier : ∀ b ∈ snapshot, b.addr < since
  root : ∀ b ∈ snapshot, b.addr = root.addr → b.guest.path = slash

theorem Loop.tail {rest : List Binding} (h : Loop n q root since (b :: rest)) :
    Loop n q root since rest where
  new := h.new
  old := h.old
  ne := h.ne
  good y hy := h.good y (List.mem_cons_of_mem b hy)
  earlier y hy := h.earlier y (List.mem_cons_of_mem b hy)
  root y hy := h.root y (List.mem_cons_of_mem b hy)

variable {ws : List CStr}

theorem Binding.target_names {n q : List CStr} (hqn : ∀ c ∈ q, IsName c)
    (hg : Canonical b.guest.path) (h : b.target n q = some ws) :
    ∀ c ∈ ws, IsName c := by
  unfold Binding.target at h
  simp only at h
  split at h
  · cases h
  · split at h
    · cases h
      exact fun c hc => hg.1 c (List.mem_of_mem_drop hc)
    · split at h
      · cases h
      · cases h
        intro c hc
        rcases List.mem_append.mp hc with hc | hc
        · exact hqn c hc
        · exact hg.1 c hc

/-- One turn keeps the lists in order. -/
theorem Loop.turn_inv {rest : List Binding} (h : Loop n q root since (b :: rest)) {sys : Sys W}
    (hsys : Pivoting since sys) :
    Pivoting since (pivotBinding (render n) (some (render q)) root sys b) := by
  obtain ⟨hg, hh⟩ := h.good b List.mem_cons_self
  refine pivotBinding_inv hsys (canonical_render h.new) (fun after heq => ?_) hg.1 hh.1
    (h.earlier b List.mem_cons_self)
  cases heq
  refine ⟨canonical_render h.old, fun hs => h.ne ?_⟩
  exact (render_eq_slash_iff fun c hc => (h.old c hc).isWord).mp hs

/-- **What one turn does to an entry.** -/
theorem Loop.turn_entry {rest : List Binding} (h : Loop n q root since (b :: rest)) {sys : Sys W}
    (hsys : Pivoting since sys) (ws : List CStr) :
    (pivotBinding (render n) (some (render q)) root sys b).bindings.entry ws =
      if b.target n q = some ws then
        some (Binding.settle ⟨sys.nextAddr, .ofCStr b.host.path, .ofCStr (render ws), false⟩)
      else if Moves n (comps b.guest.path) then
        (sys.bindings.entry ws).filter (·.addr ≠ b.addr)
      else sys.bindings.entry ws := by
  obtain ⟨hg, hh⟩ := h.good b List.mem_cons_self
  rw [pivotBinding_eq h.new h.old h.ne sys hg.1 (h.root b List.mem_cons_self)]
  cases htarget : b.target n q with
  | none =>
      have hstill : ¬ Moves n (comps b.guest.path) := by
        intro hmoves
        unfold Binding.target at htarget
        simp only [if_pos hmoves, ite_eq_left_iff, reduceCtorEq, imp_false, not_not] at htarget
        rw [htarget] at hmoves
        exact hmoves.1 (List.prefix_nil.mp hmoves.2.1)
      simp only
      rw [if_neg (by simp), if_neg hstill]
  | some place =>
      have hnames := Binding.target_names h.old hg.1 htarget
      have hfresh : ∀ y ∈ sys.bindings.guest, y.addr ≠ sys.nextAddr := fun y hy =>
        Nat.ne_of_lt (hsys.inv.bindings_fresh y hy)
      have hinsort : (sys.insortBinding3 b.host.path (render place)).bindings.entry ws =
          if place = ws then
            some (Binding.settle ⟨sys.nextAddr, .ofCStr b.host.path, .ofCStr (render ws), false⟩)
          else sys.bindings.entry ws := by
        rw [Sys.insortBinding3_bindings, insortBinding3, hsys.inv.bindings.toListCore.entry_insort
          (Path.good_ofCStr (canonical_render hnames)) (Path.good_ofCStr hh.1) hfresh]
        show (if comps (render place) = ws then _ else _) = _
        rw [comps_render_names hnames]
        by_cases heq : place = ws
        · rw [if_pos heq, if_pos heq, heq]
        · rw [if_neg heq, if_neg heq]
      simp only [Option.some.injEq]
      by_cases hmoves : Moves n (comps b.guest.path)
      · have hcore := (hsys.inv.insort hh.1 (canonical_render hnames)).bindings.toListCore
        rw [if_pos hmoves, if_pos hmoves, Sys.removeBinding, Sys.setBindings_bindings,
          hcore.entry_remove, hinsort]
        by_cases heq : place = ws
        · -- the new binding is none of the snapshot
          obtain ⟨new, hnew, -, hsince⟩ := hsys.root
          have hlt := hsys.inv.bindings_fresh new hnew
          have hb := h.earlier b List.mem_cons_self
          rw [if_pos heq, if_pos heq, Option.filter_some, if_pos]
          exact decide_eq_true (show sys.nextAddr ≠ b.addr by omega)
        · rw [if_neg heq, if_neg heq]
      · rw [if_neg hmoves, if_neg hmoves, hinsort]

/-- **An entry nothing is bound over and nothing removes.** -/
theorem Loop.keeps {l : List Binding} {e : Option Binding}
    (hwriters : ∀ b ∈ l, b.target n q ≠ some ws)
    (hmovers : ∀ b ∈ l, Moves n (comps b.guest.path) → ∀ x, e = some x → x.addr ≠ b.addr) :
    Loop n q root since l → ∀ {sys : Sys W}, Pivoting since sys → sys.bindings.entry ws = e →
      (l.foldl (pivotBinding (render n) (some (render q)) root) sys).bindings.entry ws = e := by
  induction l with
  | nil => exact fun _ sys _ hentry => hentry
  | cons b rest ih =>
      intro h sys hsys hentry
      refine ih (fun y hy => hwriters y (List.mem_cons_of_mem b hy))
        (fun y hy => hmovers y (List.mem_cons_of_mem b hy)) h.tail (h.turn_inv hsys) ?_
      rw [h.turn_entry hsys, if_neg (hwriters b List.mem_cons_self), hentry]
      by_cases hmoves : Moves n (comps b.guest.path)
      · rw [if_pos hmoves]
        cases e with
        | none => rfl
        | some x =>
            rw [Option.filter_some, if_pos]
            exact decide_eq_true (hmovers b List.mem_cons_self hmoves x rfl)
      · rw [if_neg hmoves]

/-- **An entry that one binding of the snapshot is bound over.** -/
theorem Loop.writes {l : List Binding} (hb : b ∈ l) (htarget : b.target n q = some ws)
    (hunique : ∀ y ∈ l, y.target n q = some ws → y = b) :
    Loop n q root since l → ∀ {sys : Sys W}, Pivoting since sys → ∃ x,
      (l.foldl (pivotBinding (render n) (some (render q)) root) sys).bindings.entry ws = some x ∧
        x.host.path = b.host.path := by
  induction l with
  | nil => cases hb
  | cons y rest ih =>
      intro h sys hsys
      by_cases hrest : b ∈ rest
      · exact ih hrest (fun z hz => hunique z (List.mem_cons_of_mem y hz)) h.tail
          (h.turn_inv hsys)
      · obtain rfl := (List.mem_cons.mp hb).resolve_right hrest
        have hwritten := h.turn_entry hsys ws
        rw [if_pos htarget] at hwritten
        refine ⟨_, Loop.keeps (fun z hz heq => hrest ?_) (fun z hz _ x hx => ?_) h.tail
          (h.turn_inv hsys) hwritten, rfl⟩
        · rw [← hunique z (List.mem_cons_of_mem b hz) heq]
          exact hz
        · obtain ⟨new, hnew, -, hsince⟩ := hsys.root
          have hlt := hsys.inv.bindings_fresh new hnew
          have hz' := h.tail.earlier z hz
          cases hx
          show sys.nextAddr ≠ z.addr
          omega

/-- **An entry that moves away.** -/
theorem Loop.removes {l : List Binding} (hb : b ∈ l) (hmoves : Moves n (comps b.guest.path))
    (hwriters : ∀ y ∈ l, y.target n q ≠ some ws) :
    Loop n q root since l → ∀ {sys : Sys W}, Pivoting since sys →
      (∀ x, sys.bindings.entry ws = some x → x.addr = b.addr) →
      (l.foldl (pivotBinding (render n) (some (render q)) root) sys).bindings.entry ws = none := by
  induction l with
  | nil => cases hb
  | cons y rest ih =>
      intro h sys hsys hentry
      have hturn := h.turn_entry hsys ws
      rw [if_neg (hwriters y List.mem_cons_self)] at hturn
      have hwriters' : ∀ z ∈ rest, z.target n q ≠ some ws := fun z hz =>
        hwriters z (List.mem_cons_of_mem y hz)
      rcases List.mem_cons.mp hb with rfl | hrest
      · refine Loop.keeps hwriters' (fun z _ _ x hx => ?_) h.tail (h.turn_inv hsys) ?_
        · exact absurd hx (Option.some_ne_none x).symm
        · rw [hturn, if_pos hmoves, Option.filter_eq_none_iff]
          intro x hx
          simp [hentry x hx]
      · refine ih hrest hwriters' h.tail (h.turn_inv hsys) fun x hx => ?_
        rw [hturn] at hx
        split at hx
        · exact hentry x (Option.filter_eq_some_iff.mp hx).1
        · exact hentry x hx

end Turns

end PRoot
