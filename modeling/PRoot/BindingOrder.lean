import Mathlib.Data.List.Find
import Mathlib.Data.List.Nodup
import PRoot.Binding
import PRoot.DeepestFirst
import PRoot.PathOrder

/-!
# What the binding lists decide

The binding lists are kept by `insort_binding`, which scans the whole list for
a place, and they are read by `get_binding`, which stops at the first binding
that contains the path.

* `getBinding_eq`: a lookup is the first containing binding, or nothing for a
  path of the root on the host side;
* `insortBinding_place`, `insortBinding_cases`: an insertion replaces a binding
  of the same guest path, or puts the new binding right behind the last one it
  contains;
* `insortAll_guest`: however the bindings are inserted, the guest list holds
  them all, deepest first;
* `getBinding_longest`: a lookup therefore finds the longest guest path that
  contains the path, whatever the order of insertion.
-/

namespace PRoot

open SepPath

/-- A canonical path with its length recorded. -/
def Path.Good (p : Path) : Prop := Canonical p.path ∧ p.length = p.path.length

instance (p : Path) : Decidable p.Good := inferInstanceAs (Decidable (_ ∧ _))

theorem Path.good_ofCStr {p : CStr} (h : Canonical p) : (Path.ofCStr p).Good := ⟨h, rfl⟩

variable {path : CStr} {b a : Binding}

namespace Binding

/-- The words of the path a binding is ordered by. -/
def words (side : Side) (binding : Binding) : List CStr := comps (binding.ref side).path

/-- The binding contains the path. -/
def contains (side : Side) (path : CStr) (binding : Binding) : Bool :=
  (comparePaths (binding.ref side).path path).contains

@[simp] theorem settle_ref (b : Binding) (side : Side) : b.settle.ref side = b.ref side := by
  cases side <;> rfl
@[simp] theorem settle_words (b : Binding) (side : Side) :
    b.settle.words side = b.words side := by
  simp [words]

theorem contains_iff (side : Side) (hb : (b.ref side).Good) (hp : path ≠ []) :
    b.contains side path = true ↔ Covers '/' (b.words side) path :=
  comparePaths_contains_iff hb.1 hp

/-- The bindings that contain one path form a chain. -/
theorem contains_chain (side : Side) (ha : (a.ref side).Good) (hb : (b.ref side).Good)
    (hp : path ≠ []) (hap : a.contains side path) (hbp : b.contains side path) :
    a.words side <+: b.words side ∨ b.words side <+: a.words side :=
  Covers.chain '/' (comps_words _) (comps_words _) ((contains_iff side ha hp).mp hap)
    ((contains_iff side hb hp).mp hbp)

/-- Bindings of the same words have the same path. -/
theorem ref_eq_of_words {side : Side} (ha : (a.ref side).Good) (hb : (b.ref side).Good)
    (h : a.words side = b.words side) :
    a.ref side = b.ref side := by
  have hpath : (a.ref side).path = (b.ref side).path := (ha.1.eq_iff hb.1).mpr h
  have hlen : (a.ref side).length = (b.ref side).length := by rw [ha.2, hb.2, hpath]
  cases hra : a.ref side
  cases hrb : b.ref side
  simp_all

end Binding

/-! ## Looking up -/

/-- The paths that a lookup on the host side never answers: those of a root
other than "/". -/
def hiddenHost (bindings : Bindings) (path : CStr) : Bool :=
  decide (comparePaths (getRoot bindings) slash ≠ .pathsAreEqual) &&
    belongsToGuestfs bindings path

variable {bindings : Bindings}

/-- **A lookup is the first binding that contains the path.** -/
theorem getBinding_eq (side : Side) (hgood : ∀ b ∈ bindings.head side, (b.ref side).Good) :
    getBinding bindings side path =
      if side = .host ∧ hiddenHost bindings path = true then none
      else (bindings.head side).find? (Binding.contains side path) := by
  have hcongr : ∀ b ∈ bindings.head side,
      (comparePaths2 (b.ref side).path (b.ref side).length path path.length).contains =
        b.contains side path := by
    intro b hb
    rw [(hgood b hb).2]
    rfl
  unfold getBinding
  split
  · rename_i h
    obtain ⟨rfl, hh⟩ := h
    rw [List.find?_eq_none]
    intro b hb
    have hh' : (decide (comparePaths (getRoot bindings) slash ≠ .pathsAreEqual) &&
        belongsToGuestfs bindings path) = true := hh
    simp only [decide_true, Bool.true_and, hh', Bool.not_true, Bool.and_false]
    simp
  · rename_i h
    refine List.find?_congr fun b hb => ?_
    simp only [hcongr b hb]
    by_cases hs : side = .host
    · subst hs
      have hh : (decide (comparePaths (getRoot bindings) slash ≠ .pathsAreEqual) &&
          belongsToGuestfs bindings path) = false := by
        simpa [hiddenHost] using h
      simp only [decide_true, Bool.true_and, hh, Bool.not_false, Bool.and_true]
    · simp [hs]

theorem getBinding_guest (hgood : ∀ b ∈ bindings.guest, b.guest.Good) :
    getBinding bindings .guest path = bindings.guest.find? (Binding.contains .guest path) := by
  rw [getBinding_eq .guest hgood, if_neg (by simp)]
  rfl

/-! ## Inserting -/

/-- Addresses tell the bindings of a list apart. -/
def AddrsDistinct (l : List Binding) : Prop := (l.map Binding.addr).Nodup

variable {l : List Binding}

theorem AddrsDistinct.inj (h : AddrsDistinct l) (ha : a ∈ l) (hb : b ∈ l) (hab : a.addr = b.addr) :
    a = b :=
  List.inj_on_of_nodup_map h ha hb hab

/-- No two bindings of a list have the same guest path. -/
def GuestsDistinct (l : List Binding) : Prop := (l.map fun b => b.guest.path).Nodup

theorem GuestsDistinct.inj (h : GuestsDistinct l) (ha : a ∈ l) (hb : b ∈ l)
    (hab : a.guest.path = b.guest.path) : a = b :=
  List.inj_on_of_nodup_map h ha hb hab

variable {l₁ l₂ : List Binding}

theorem insertAfter_split {p x : Binding} (h : AddrsDistinct (l₁ ++ p :: l₂)) :
    insertAfter p x (l₁ ++ p :: l₂) = l₁ ++ p :: x :: l₂ := by
  induction l₁ with
  | nil => simp [insertAfter]
  | cons b bs ih =>
      have hne : b.addr ≠ p.addr := by
        intro heq
        have := (List.nodup_cons.mp h).1
        exact this (by simp [heq])
      rw [List.cons_append, insertAfter, if_neg hne, ih (List.nodup_cons.mp h).2]
      rfl

/-- The other bindings have other addresses. -/
theorem AddrsDistinct.others {p : Binding} (h : AddrsDistinct (l₁ ++ p :: l₂)) :
    ∀ b ∈ l₁ ++ l₂, b.addr ≠ p.addr := by
  intro b hb heq
  have hperm : (l₁ ++ p :: l₂).Perm (p :: (l₁ ++ l₂)) := List.perm_middle
  have hnodup := (hperm.map Binding.addr).nodup_iff.mp h
  exact (List.nodup_cons.mp hnodup).1 (heq ▸ List.mem_map_of_mem hb)

theorem unlink_of_fresh (h : ∀ y ∈ l, y.addr ≠ b.addr) :
    unlink b l = l :=
  List.filter_eq_self.mpr fun y hy => by simpa using h y hy

theorem unlink_split {p : Binding} (h : AddrsDistinct (l₁ ++ p :: l₂)) :
    unlink p (l₁ ++ p :: l₂) = l₁ ++ l₂ := by
  have hothers := unlink_of_fresh h.others
  rw [unlink, List.filter_append] at hothers ⊢
  rw [List.filter_cons_of_neg (by simp), hothers]

/-- The old binding is unlinked, the new one stays in its place. -/
theorem unlink_replaced {old x : Binding} (h : AddrsDistinct (l₁ ++ old :: l₂))
    (hne : x.addr ≠ old.addr) :
    unlink old (l₁ ++ old :: x :: l₂) = l₁ ++ x :: l₂ := by
  have hsplit : l₁ ++ old :: x :: l₂ = (l₁ ++ [old]) ++ x :: l₂ := by simp
  have hfirst : unlink old (l₁ ++ [old]) = l₁ := by
    have h₁ : AddrsDistinct (l₁ ++ old :: []) :=
      (((List.Sublist.refl l₁).append (List.singleton_sublist.mpr List.mem_cons_self)).map _).nodup h
    rw [unlink_split h₁, List.append_nil]
  have hlast : unlink old (x :: l₂) = x :: l₂ := by
    refine unlink_of_fresh fun b hb => ?_
    rcases List.mem_cons.mp hb with rfl | hb
    · exact hne
    · exact h.others b (List.mem_append_right l₁ hb)
  rw [hsplit, unlink, List.filter_append]
  exact congrArg₂ _ hfirst hlast

/-- A binding in the middle that has nothing in common with the others. -/
theorem nodup_middle {β : Type} {f : Binding → β} {x : Binding} (h : ((l₁ ++ l₂).map f).Nodup)
    (hx : ∀ b ∈ l₁ ++ l₂, f b ≠ f x) :
    ((l₁ ++ x :: l₂).map f).Nodup := by
  have hperm : (l₁ ++ x :: l₂).Perm (x :: (l₁ ++ l₂)) := List.perm_middle
  refine (hperm.map f).nodup_iff.mpr (List.nodup_cons.mpr ⟨fun hmem => ?_, h⟩)
  obtain ⟨b, hb, heq⟩ := List.mem_map.mp hmem
  exact hx b hb heq

/-- How `insort_binding` compares two bindings. -/
def Binding.compare (side : Side) (a b : Binding) : Comparison :=
  comparePaths2 (a.ref side).path (a.ref side).length (b.ref side).path (b.ref side).length

/-- A place for a binding in a list: right behind one it contains, or at the
head, and with nothing it contains behind. -/
def IsPlace (side : Side) (x : Binding) (l₁ l₂ : List Binding) : Prop :=
  (∀ z, l₁.getLast? = some z → (x.compare side z).contains = true) ∧
    ∀ y ∈ l₂, (x.compare side y).contains = false

/-- How the scan of `insort_binding` over a part of a list ends. -/
def InsortSpec (side : Side) (x : Binding) (l : List Binding) (previous next : Option Binding) :
    Insort → Prop
  | .replace iterator => side ≠ .host ∧ x.compare side iterator = .pathsAreEqual ∧
      ∃ l₁ l₂, l = l₁ ++ iterator :: l₂
  | .insert previous' next' =>
      (side ≠ .host → ∀ y ∈ l, x.compare side y ≠ .pathsAreEqual) ∧
      (next ≠ none → next' = next) ∧
      ((previous' = previous ∧ ∀ y ∈ l, (x.compare side y).contains = false) ∨
        ∃ l₁ z l₂, l = l₁ ++ z :: l₂ ∧ previous' = some z ∧ (x.compare side z).contains = true ∧
          ∀ y ∈ l₂, (x.compare side y).contains = false)

/-- Going over one more iterator that is not to be replaced. -/
theorem InsortSpec.cons {side : Side} {x iterator : Binding} {rest : List Binding}
    {previous previous₁ next next₁ : Option Binding} {result : Insort}
    (h : InsortSpec side x rest previous₁ next₁ result)
    (hne : side ≠ .host → x.compare side iterator ≠ .pathsAreEqual)
    (hnext : next ≠ none → next₁ = next)
    (hprev : (previous₁ = some iterator ∧ (x.compare side iterator).contains = true) ∨
      (previous₁ = previous ∧ (x.compare side iterator).contains = false)) :
    InsortSpec side x (iterator :: rest) previous next result := by
  cases result with
  | replace it =>
      obtain ⟨hside, hequal, l₁, l₂, hsplit⟩ := h
      exact ⟨hside, hequal, iterator :: l₁, l₂, by rw [hsplit]; rfl⟩
  | insert previous' next' =>
      obtain ⟨hdiff, hn, hp⟩ := h
      refine ⟨?_, fun hsome => ?_, ?_⟩
      · intro hside y hy
        rcases List.mem_cons.mp hy with rfl | hy
        · exact hne hside
        · exact hdiff hside y hy
      · rw [hn (by rw [hnext hsome]; exact hsome), hnext hsome]
      · rcases hp with ⟨heq, hnone⟩ | ⟨l₁, z, l₂, hsplit, heq, hz, hnone⟩
        · rcases hprev with ⟨hit, hpre⟩ | ⟨hsame, hnot⟩
          · exact Or.inr ⟨[], iterator, rest, rfl, heq.trans hit, hpre, hnone⟩
          · refine Or.inl ⟨heq.trans hsame, fun y hy => ?_⟩
            rcases List.mem_cons.mp hy with rfl | hy
            · exact hnot
            · exact hnone y hy
        · exact Or.inr ⟨iterator :: l₁, z, l₂, by rw [hsplit]; rfl, heq, hz, hnone⟩

theorem insortLoop_spec (side : Side) (x : Binding) (l : List Binding)
    (previous next : Option Binding) :
    InsortSpec side x l previous next (insortLoop side x l previous next) := by
  induction l generalizing previous next with
  | nil => exact ⟨by simp, fun _ => rfl, Or.inl ⟨rfl, by simp⟩⟩
  | cons iterator rest ih =>
      have hcmp : comparePaths2 (x.ref side).path (x.ref side).length
          (iterator.ref side).path (iterator.ref side).length = x.compare side iterator := rfl
      rw [insortLoop, hcmp]
      cases hc : x.compare side iterator with
      | pathsAreEqual =>
          by_cases hside : side = .host
          · simp only [if_pos hside]
            exact (ih (some iterator) next).cons (fun h => absurd hside h) (fun _ => rfl)
              (Or.inl ⟨rfl, by rw [hc]; rfl⟩)
          · simp only [if_neg hside]
            exact ⟨hside, hc, [], rest, rfl⟩
      | path1IsPrefix =>
          exact (ih (some iterator) next).cons (fun _ => by rw [hc]; decide) (fun _ => rfl)
            (Or.inl ⟨rfl, by rw [hc]; rfl⟩)
      | path2IsPrefix =>
          refine (ih previous (next.or (some iterator))).cons (fun _ => by rw [hc]; decide) ?_
            (Or.inr ⟨rfl, by rw [hc]; rfl⟩)
          intro hsome
          cases next with
          | none => exact absurd rfl hsome
          | some n => rfl
      | pathsAreNotComparable =>
          exact (ih previous next).cons (fun _ => by rw [hc]; decide) (fun _ => rfl)
            (Or.inr ⟨rfl, by rw [hc]; rfl⟩)

theorem Bindings.modify_congr {side : Side} {f g : List Binding → List Binding}
    (h : f (bindings.head side) = g (bindings.head side)) :
    bindings.modify side f = bindings.modify side g := by
  cases side <;> simp_all [Bindings.modify, Bindings.head]

/-- **What an insertion does to a list**: it replaces a binding that compares
equal, or it puts the new binding into its place. -/
theorem insortBinding_place (side : Side) (x : Binding) (haddr : AddrsDistinct (bindings.head side)) :
    (side ≠ .host ∧ ∃ l₁ old l₂, bindings.head side = l₁ ++ old :: l₂ ∧
      x.compare side old = .pathsAreEqual ∧
      insortBinding bindings side x =
        removeBindingFromAllLists (bindings.modify side fun _ => l₁ ++ old :: x :: l₂) old) ∨
    (∃ l₁ l₂, bindings.head side = l₁ ++ l₂ ∧ IsPlace side x l₁ l₂ ∧
      (side ≠ .host → ∀ y ∈ bindings.head side, x.compare side y ≠ .pathsAreEqual) ∧
      insortBinding bindings side x = bindings.modify side fun _ => l₁ ++ x :: l₂) := by
  have hspec := insortLoop_spec side x (bindings.head side) none (bindings.head side).head?
  cases hloop : insortLoop side x (bindings.head side) none (bindings.head side).head? with
  | replace old =>
      rw [hloop] at hspec
      obtain ⟨hside, hequal, l₁, l₂, hsplit⟩ := hspec
      refine Or.inl ⟨hside, l₁, old, l₂, hsplit, hequal, ?_⟩
      rw [hsplit] at haddr
      have hafter : insertAfter old x (bindings.head side) = l₁ ++ old :: x :: l₂ := by
        rw [hsplit, insertAfter_split haddr]
      unfold insortBinding
      simp only [hloop]
      rw [Bindings.modify_congr (g := fun _ => l₁ ++ old :: x :: l₂) hafter]
  | insert previous next =>
      rw [hloop] at hspec
      obtain ⟨hdiff, hnext, hprev⟩ := hspec
      right
      rcases hprev with ⟨rfl, hnone⟩ | ⟨l₁, z, l₂, hsplit, rfl, hz, hnone⟩
      · refine ⟨[], bindings.head side, rfl, ⟨by simp, hnone⟩, hdiff, ?_⟩
        unfold insortBinding
        simp only [hloop]
        cases hl : bindings.head side with
        | nil =>
            cases next with
            | none => exact Bindings.modify_congr (by simp [hl])
            | some n =>
                rw [hl] at hloop
                cases hloop
        | cons b bs =>
            have hn : next = some b := by
              have hhead := hnext (by simp [hl])
              simpa [hl] using hhead
            subst hn
            exact Bindings.modify_congr (by simp [hl, insertBefore])
      · refine ⟨l₁ ++ [z], l₂, by simp [hsplit], ⟨by simpa using hz, hnone⟩, hdiff, ?_⟩
        rw [hsplit] at haddr
        unfold insortBinding
        simp only [hloop]
        refine Bindings.modify_congr ?_
        rw [hsplit, insertAfter_split haddr]
        simp

/-! ## Canonical paths -/

/-- Such a place, by the words of the paths. -/
def IsSlot (side : Side) (x : Binding) (l₁ l₂ : List Binding) : Prop :=
  (∀ z, l₁.getLast? = some z → x.words side <+: z.words side) ∧
    ∀ y ∈ l₂, ¬ x.words side <+: y.words side

section

variable {side : Side} {x y : Binding} (hx : (x.ref side).Good) (hy : (y.ref side).Good)

include hx hy

theorem compare_eq : x.compare side y =
    if x.words side = y.words side then .pathsAreEqual
    else if x.words side <+: y.words side then .path1IsPrefix
    else if y.words side <+: x.words side then .path2IsPrefix
    else .pathsAreNotComparable := by
  rw [Binding.compare, hx.2, hy.2]
  exact comparePaths_canonical hx.1 hy.1

theorem compare_equal_iff : x.compare side y = .pathsAreEqual ↔ x.words side = y.words side := by
  rw [compare_eq hx hy]
  split
  · simp_all
  · split
    · simp_all
    · split <;> simp_all

theorem compare_contains_iff :
    (x.compare side y).contains = true ↔ x.words side <+: y.words side := by
  rw [compare_eq hx hy]
  split
  · rename_i heq
    simp [heq, Comparison.contains]
  · split
    · simp_all [Comparison.contains]
    · split <;> simp_all [Comparison.contains]

end

/-- **What an insertion does to a list of canonical paths**: it replaces the
binding of the same guest path, or it puts the new binding into a slot. -/
theorem insortBinding_cases (side : Side) {x : Binding} (hx : (x.ref side).Good)
    (hgood : ∀ y ∈ bindings.head side, (y.ref side).Good)
    (haddr : AddrsDistinct (bindings.head side)) :
    (side ≠ .host ∧ ∃ l₁ old l₂, bindings.head side = l₁ ++ old :: l₂ ∧
      old.words side = x.words side ∧
      insortBinding bindings side x =
        removeBindingFromAllLists (bindings.modify side fun _ => l₁ ++ old :: x :: l₂) old) ∨
    (∃ l₁ l₂, bindings.head side = l₁ ++ l₂ ∧ IsSlot side x l₁ l₂ ∧
      (side ≠ .host → ∀ y ∈ bindings.head side, y.words side ≠ x.words side) ∧
      insortBinding bindings side x = bindings.modify side fun _ => l₁ ++ x :: l₂) := by
  rcases insortBinding_place side x haddr with
    ⟨hside, l₁, old, l₂, hsplit, hequal, hres⟩ | ⟨l₁, l₂, hsplit, ⟨hlast, hbehind⟩, hdiff, hres⟩
  · have hold := hgood old (by rw [hsplit]; simp)
    exact Or.inl ⟨hside, l₁, old, l₂, hsplit, ((compare_equal_iff hx hold).mp hequal).symm, hres⟩
  · have hin : ∀ y, y ∈ l₁ ++ l₂ → (y.ref side).Good := fun y hy => hgood y (by rw [hsplit]; exact hy)
    refine Or.inr ⟨l₁, l₂, hsplit, ⟨fun z hz => ?_, fun y hy => ?_⟩, fun hside y hy => ?_, hres⟩
    · have hz' := hin z (List.mem_append_left _ (List.mem_of_getLast? hz))
      exact (compare_contains_iff hx hz').mp (hlast z hz)
    · have hy' := hin y (List.mem_append_right _ hy)
      rw [← compare_contains_iff hx hy', hbehind y hy]
      exact Bool.false_ne_true
    · exact fun heq => hdiff hside y hy ((compare_equal_iff hx (hgood y hy)).mpr heq.symm)

theorem IsSlot.deepestFirst {side : Side} {x : Binding} (h : IsSlot side x l₁ l₂)
    (hl : DeepestFirst (Binding.words side) (l₁ ++ l₂)) :
    DeepestFirst (Binding.words side) (l₁ ++ x :: l₂) :=
  hl.insert h.1 fun y hy hpre => absurd hpre (h.2 y hy)

/-! ## Any order of insertion -/

/-- Insert bindings one after the other into empty lists. -/
def insortAll (bs : List Binding) : Bindings := bs.foldl insortBinding2 ⟨[], [], []⟩

/-- The insertion by host path leaves the guest list alone. -/
theorem insortBinding_host_guest (bindings : Bindings) (x : Binding) :
    (insortBinding bindings .host x).guest = bindings.guest := by
  have hloop : ∀ (l : List Binding) (previous next : Option Binding),
      ∃ p n, insortLoop .host x l previous next = .insert p n := by
    intro l
    induction l with
    | nil => exact fun previous next => ⟨previous, next, rfl⟩
    | cons iterator rest ih =>
        intro previous next
        rw [insortLoop]
        split
        · exact ih _ _
        · exact ih _ _
        · exact ih _ _
        · exact ih _ _
  obtain ⟨p, n, hpn⟩ := hloop (bindings.head .host) none (bindings.head .host).head?
  unfold insortBinding
  simp only [hpn]
  cases p with
  | some previous => rfl
  | none => cases n <;> rfl

/-- **However they are inserted, the guest list holds all of them, deepest first.** -/
theorem insortAll_guest {bs : List Binding} (hgood : ∀ b ∈ bs, b.guest.Good)
    (hdiff : GuestsDistinct bs) (haddr : AddrsDistinct bs) :
    (insortAll bs).guest.Perm (bs.map Binding.settle) ∧
      DeepestFirst (Binding.words .guest) (insortAll bs).guest := by
  induction bs using List.reverseRecOn with
  | nil => exact ⟨List.Perm.refl _, DeepestFirst.nil⟩
  | append_singleton bs x ih =>
      have hgood' : ∀ b ∈ bs, b.guest.Good := fun b hb => hgood b (by simp [hb])
      have hd₁ : GuestsDistinct bs := ((List.sublist_append_left bs [x]).map _).nodup hdiff
      have ha₁ : AddrsDistinct bs := ((List.sublist_append_left bs [x]).map _).nodup haddr
      have hd₂ : ∀ b ∈ bs, b.guest.path ≠ x.guest.path := by
        intro b hb heq
        rw [GuestsDistinct, List.map_append, List.nodup_append] at hdiff
        exact hdiff.2.2 _ (List.mem_map_of_mem hb) _ (by simp) heq
      obtain ⟨hperm, hdeep⟩ := ih hgood' hd₁ ha₁
      have hmem : ∀ y ∈ (insortAll bs).guest, ∃ b ∈ bs, y = b.settle := by
        intro y hy
        obtain ⟨b, hb, rfl⟩ := List.mem_map.mp (hperm.mem_iff.mp hy)
        exact ⟨b, hb, rfl⟩
      have hygood : ∀ y ∈ (insortAll bs).guest, y.guest.Good := by
        intro y hy
        obtain ⟨b, hb, rfl⟩ := hmem y hy
        exact hgood' b hb
      have hxgood : x.guest.Good := hgood x (by simp)
      have haddr' : AddrsDistinct (insortAll bs).guest := by
        refine (hperm.map Binding.addr).nodup_iff.mpr ?_
        rw [List.map_map]
        exact ha₁
      have hstep : (insortAll (bs ++ [x])).guest =
          (insortBinding (insortAll bs) .guest x.settle).guest := by
        rw [insortAll, List.foldl_append]
        exact insortBinding_host_guest _ _
      rw [hstep]
      rcases insortBinding_cases .guest (x := x.settle) hxgood hygood haddr' with
        ⟨-, l₁, old, l₂, hsplit, hwords, -⟩ | ⟨l₁, l₂, hsplit, hslot, -, hres⟩
      · -- a binding of the same guest path: excluded
        have hold : old ∈ (insortAll bs).guest := by
          have : old ∈ (insortAll bs).head .guest := by rw [hsplit]; simp
          exact this
        obtain ⟨b, hb, rfl⟩ := hmem old hold
        have heq : b.guest.path = x.guest.path :=
          ((hgood' b hb).1.eq_iff hxgood.1).mpr hwords
        exact absurd heq (hd₂ b hb)
      · have hguest : (insortAll bs).guest = l₁ ++ l₂ := hsplit
        rw [hres]
        refine ⟨?_, ?_⟩
        · show (l₁ ++ x.settle :: l₂).Perm _
          rw [List.map_append]
          have h₁ : (l₁ ++ x.settle :: l₂).Perm (x.settle :: (l₁ ++ l₂)) := List.perm_middle
          have h₂ : (x.settle :: (l₁ ++ l₂)).Perm (x.settle :: bs.map Binding.settle) :=
            (hguest ▸ hperm).cons _
          exact (h₁.trans h₂).trans (List.perm_append_singleton _ _).symm
        · exact hslot.deepestFirst (hguest ▸ hdeep)

/-- A proper leading part of a list of words makes a shorter path. -/
theorem render_length_lt {a b : List CStr} (hb : ∀ c ∈ b, IsWord '/' c) (hpre : a <+: b)
    (hne : a ≠ b) : (render a).length < (render b).length := by
  obtain ⟨t, rfl⟩ := hpre
  obtain ⟨c, cs, rfl⟩ : ∃ c cs, t = c :: cs := by
    cases t with
    | nil => exact absurd (List.append_nil a).symm hne
    | cons c cs => exact ⟨c, cs, rfl⟩
  have hc : 0 < c.length := List.length_pos_iff.mpr (hb c (by simp)).1
  cases a with
  | nil =>
      simp only [render, SepPath.render_nil, List.nil_append, SepPath.render_cons,
        List.length_cons, List.length_append, List.length_nil]
      omega
  | cons d ds =>
      simp only [render, SepPath.render_cons, List.cons_append, flat_append, flat_cons,
        List.length_cons, List.length_append]
      omega

theorem render_length_le {a b : List CStr} (hb : ∀ c ∈ b, IsWord '/' c) (hpre : a <+: b) :
    (render a).length ≤ (render b).length := by
  by_cases heq : a = b
  · rw [heq]
  · exact Nat.le_of_lt (render_length_lt hb hpre heq)

/-- **First match is longest match**: any other containing binding is shorter,
unless it has the very same path. -/
theorem find?_longest (side : Side) (hgood : ∀ y ∈ l, (y.ref side).Good) (hp : path ≠ [])
    (hdeep : DeepestFirst (Binding.words side) l)
    (hb : l.find? (Binding.contains side path) = some b) {y : Binding} (hy : y ∈ l)
    (hyc : y.contains side path) :
    y.ref side = b.ref side ∨ (y.ref side).path.length < (b.ref side).path.length := by
  have hbl := List.mem_of_find?_eq_some hb
  have hpre : y.words side <+: b.words side := hdeep.find?_deepest
    (fun u hu v hv => Binding.contains_chain side (hgood u hu) (hgood v hv) hp) hb y hy hyc
  by_cases heq : y.words side = b.words side
  · exact Or.inl (Binding.ref_eq_of_words (hgood y hy) (hgood b hbl) heq)
  · right
    have hyw : (y.ref side).path = render (y.words side) := (hgood y hy).1.2
    have hbw : (b.ref side).path = render (b.words side) := (hgood b hbl).1.2
    rw [hyw, hbw]
    exact render_length_lt (comps_words _) hpre heq

/-- The binding of "/" contains every absolute path. -/
theorem contains_of_slash (side : Side) (hb : (b.ref side).path = slash) {p : CStr}
    (hp : p.head? = some '/') : b.contains side p = true := by
  have hne : p ≠ [] := by
    rintro rfl
    cases hp
  rw [Binding.contains, hb, comparePaths_contains_iff canonical_slash hne]
  exact covers_nil '/' (Or.inr hp)

/-- Two orders of insertion answer every lookup by guest path alike. -/
theorem getBinding_insortAll_perm {bs bs' : List Binding} (hgood : ∀ b ∈ bs, b.guest.Good)
    (hdiff : GuestsDistinct bs) (haddr : AddrsDistinct bs)
    (horder : bs'.Perm bs) {p : CStr} (hp : p ≠ []) :
    getBinding (insortAll bs') .guest p = getBinding (insortAll bs) .guest p := by
  have hgood' : ∀ b ∈ bs', b.guest.Good := fun b hb => hgood b (horder.mem_iff.mp hb)
  have hdiff' : GuestsDistinct bs' := (horder.map _).nodup_iff.mpr hdiff
  have haddr' : AddrsDistinct bs' := (horder.map Binding.addr).nodup_iff.mpr haddr
  obtain ⟨hperm, hdeep⟩ := insortAll_guest hgood hdiff haddr
  obtain ⟨hperm', hdeep'⟩ := insortAll_guest hgood' hdiff' haddr'
  have hlists : (insortAll bs').guest.Perm (insortAll bs).guest :=
    (hperm'.trans (horder.map _)).trans hperm.symm
  have hmem : ∀ y ∈ (insortAll bs).guest, ∃ b ∈ bs, y = b.settle := by
    intro y hy
    obtain ⟨b, hb, rfl⟩ := List.mem_map.mp (hperm.mem_iff.mp hy)
    exact ⟨b, hb, rfl⟩
  have hlgood : ∀ y ∈ (insortAll bs).guest, y.guest.Good := by
    intro y hy
    obtain ⟨b, hb, rfl⟩ := hmem y hy
    exact hgood b hb
  rw [getBinding_guest (fun b hb => hlgood b (hlists.mem_iff.mp hb)), getBinding_guest hlgood]
  refine (hdeep.find?_perm hdeep' hlists.symm ?_ ?_).symm
  · intro x hx y hy hwords
    obtain ⟨a, ha, rfl⟩ := hmem x hx
    obtain ⟨b, hb, rfl⟩ := hmem y hy
    have hpath : a.guest.path = b.guest.path := ((hgood a ha).1.eq_iff (hgood b hb).1).mpr hwords
    rw [hdiff.inj ha hb hpath]
  · intro x hx y hy
    exact Binding.contains_chain .guest (hlgood x hx) (hlgood y hy) hp

end PRoot
