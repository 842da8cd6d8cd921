import Mathlib.Data.List.Basic
import Mathlib.Data.List.Infix
import Mathlib.Data.List.Pairwise
import Mathlib.Data.List.Perm.Basic

/-!
# Lists with the deepest keys first

Entries carry keys that are words of a tree, ordered by the prefix relation.
A list is *deepest first* when no entry stands before an entry whose key
strictly extends its own.  The order is only partial: unrelated keys may stand
either way round, and equal keys too.

* `DeepestFirst.insert` is the insertion rule: a new entry may be put at any
  place that has nothing below the entry behind it, provided the entry right
  before that place (if any) is below the new one;
* `DeepestFirst.find?_deepest` says that the first entry that covers a point is
  the deepest one that does;
* `DeepestFirst.find?_perm` concludes that the order of insertion is irrelevant
  when keys are distinct, and `DeepestFirst.find?_key` that otherwise only the
  first entry of each key counts.
-/

variable {α β : Type*} (key : α → List β)

/-- No entry stands before one whose key strictly extends its own. -/
def DeepestFirst (l : List α) : Prop :=
  l.Pairwise (fun x y => key x <+: key y → key x = key y)

namespace DeepestFirst

variable {key}

theorem nil : DeepestFirst key [] := List.Pairwise.nil

theorem sublist {l l' : List α} (h : DeepestFirst key l) (hsub : l'.Sublist l) :
    DeepestFirst key l' :=
  List.Pairwise.sublist hsub h

/-- **The insertion rule.** -/
theorem insert {l₁ l₂ : List α} {x : α} (h : DeepestFirst key (l₁ ++ l₂))
    (hbefore : ∀ z, l₁.getLast? = some z → key x <+: key z)
    (hafter : ∀ y ∈ l₂, key x <+: key y → key x = key y) :
    DeepestFirst key (l₁ ++ x :: l₂) := by
  obtain ⟨h₁, h₂, h₁₂⟩ := List.pairwise_append.mp h
  refine List.pairwise_append.mpr ⟨h₁, List.pairwise_cons.mpr ⟨hafter, h₂⟩, ?_⟩
  intro y hy z hz hyz
  rcases List.mem_cons.mp hz with rfl | hz
  · -- `y` covers the new entry, which covers the last entry before it
    obtain ⟨init, last, rfl⟩ : ∃ init last, l₁ = init ++ [last] :=
      ⟨_, _, (List.dropLast_append_getLast (List.ne_nil_of_mem hy)).symm⟩
    have hlast : key z <+: key last := hbefore last (by simp)
    rcases List.mem_append.mp hy with hy | hy
    · have heq : key y = key last :=
        (List.pairwise_append.mp h₁).2.2 y hy last (by simp) (hyz.trans hlast)
      exact hyz.eq_of_length_le (heq ▸ hlast.length_le)
    · obtain rfl := List.mem_singleton.mp hy
      exact hyz.eq_of_length_le hlast.length_le
  · exact h₁₂ y hy z hz hyz

/-- An entry may be replaced by one with the same key. -/
theorem replace {l₁ l₂ : List α} {x y : α} (h : DeepestFirst key (l₁ ++ x :: l₂))
    (hkey : key y = key x) : DeepestFirst key (l₁ ++ y :: l₂) := by
  obtain ⟨h₁, h₂, h₁₂⟩ := List.pairwise_append.mp h
  obtain ⟨hx, h₂⟩ := List.pairwise_cons.mp h₂
  refine List.pairwise_append.mpr ⟨h₁, List.pairwise_cons.mpr ⟨by simpa [hkey] using hx, h₂⟩, ?_⟩
  intro a ha b hb
  rcases List.mem_cons.mp hb with rfl | hb
  · simpa [hkey] using h₁₂ a ha x List.mem_cons_self
  · exact h₁₂ a ha b (List.mem_cons_of_mem _ hb)

/-! ## Looking up the first entry that covers -/

section Lookup

variable {covers : α → Bool} {l l' : List α}

/-- **First is deepest.** -/
theorem find?_deepest (h : DeepestFirst key l)
    (hchain : ∀ x ∈ l, ∀ y ∈ l, covers x → covers y → key x <+: key y ∨ key y <+: key x)
    {b : α} (hb : l.find? covers = some b) :
    ∀ x ∈ l, covers x → key x <+: key b := by
  obtain ⟨hcov, l₁, l₂, rfl, hl₁⟩ := List.find?_eq_some_iff_append.mp hb
  intro x hx hxc
  rcases List.mem_append.mp hx with hx | hx
  · exact absurd hxc (by simpa using hl₁ x hx)
  · rcases List.mem_cons.mp hx with rfl | hx
    · exact List.prefix_rfl
    · rcases hchain x (by simp [hx]) b (by simp) hxc hcov with hpre | hpre
      · exact hpre
      · have hpair := (List.pairwise_cons.mp (List.pairwise_append.mp h).2.1).1 x hx
        exact (hpair hpre) ▸ List.prefix_rfl

/-- With distinct keys, two deepest-first arrangements of the same entries
answer every lookup alike. -/
theorem find?_perm (h : DeepestFirst key l) (h' : DeepestFirst key l') (hperm : l.Perm l')
    (hinj : ∀ x ∈ l, ∀ y ∈ l, key x = key y → x = y)
    (hchain : ∀ x ∈ l, ∀ y ∈ l, covers x → covers y → key x <+: key y ∨ key y <+: key x) :
    l.find? covers = l'.find? covers := by
  have hchain' : ∀ x ∈ l', ∀ y ∈ l', covers x → covers y →
      key x <+: key y ∨ key y <+: key x := fun x hx y hy =>
    hchain x (hperm.mem_iff.mpr hx) y (hperm.mem_iff.mpr hy)
  cases hb : l.find? covers with
  | none =>
      symm
      rw [List.find?_eq_none] at hb ⊢
      exact fun x hx => hb x (hperm.mem_iff.mpr hx)
  | some b =>
      have hbmem := List.mem_of_find?_eq_some hb
      have hbcov := List.find?_some hb
      cases hc : l'.find? covers with
      | none =>
          exact absurd hbcov (List.find?_eq_none.mp hc b (hperm.mem_iff.mp hbmem))
      | some c =>
          have hcmem := hperm.mem_iff.mpr (List.mem_of_find?_eq_some hc)
          have hccov := List.find?_some hc
          have h₁ := find?_deepest h hchain hb c hcmem hccov
          have h₂ := find?_deepest h' hchain' hc b (hperm.mem_iff.mp hbmem) hbcov
          rw [hinj b hbmem c hcmem (h₂.eq_of_length_le h₁.length_le)]

/-- The first entry that covers is the first entry of its key. -/
theorem find?_key [DecidableEq β] {b : α}
    (hkey : ∀ x ∈ l, ∀ y ∈ l, key x = key y → covers x = covers y)
    (hb : l.find? covers = some b) : l.find? (fun x => key x = key b) = some b := by
  obtain ⟨hcov, l₁, l₂, rfl, hl₁⟩ := List.find?_eq_some_iff_append.mp hb
  refine List.find?_eq_some_iff_append.mpr ⟨by simp, l₁, l₂, rfl, ?_⟩
  intro x hx
  have hx' := hl₁ x hx
  simp only [Bool.not_eq_true', decide_eq_false_iff_not] at hx' ⊢
  intro heq
  rw [hkey x (by simp [hx]) b (by simp) heq, hcov] at hx'
  cases hx'

end Lookup

end DeepestFirst
