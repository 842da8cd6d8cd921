import Mathlib.Data.Set.Card
import Mathlib.Logic.Equiv.Basic

/-!
# Hard links

A directory of names for numbered files, each of which counts its names.  Whatever is
linked, unlinked or moved, a file's count is the number of its names, and a file is there,
with its data, as long as it has a name.
-/

/-- Names, the files they are names of, and the count and the data of each file. -/
@[ext] structure HardLinks (Name Ino α : Type*) where
  names : Name → Option Ino
  inode : Ino → Option (Nat × α)

namespace HardLinks

variable {Name Ino α : Type*}

/-- The names of a file. -/
def namesOf (s : HardLinks Name Ino α) (i : Ino) : Set Name := {p | s.names p = some i}

/-- The files that stay keep their data. -/
def SameData (s s' : HardLinks Name Ino α) : Prop := ∀ i n d m e,
  s.inode i = some (n, d) → s'.inode i = some (m, e) → e = d

/-- **The counts are kept**: a file is there exactly if it has a name, and it counts its
names. -/
structure CountsKept (s : HardLinks Name Ino α) : Prop where
  count : ∀ {i n d}, s.inode i = some (n, d) → (s.namesOf i).encard = n
  pos : ∀ {i n d}, s.inode i = some (n, d) → 0 < n
  named : ∀ {p i}, s.names p = some i → ∃ n d, s.inode i = some (n, d)

section Operations

variable [DecidableEq Name] [DecidableEq Ino]

/-- A new file with one name. -/
def create (s : HardLinks Name Ino α) (p : Name) (i : Ino) (d : α) : HardLinks Name Ino α where
  names := Function.update s.names p (some i)
  inode := Function.update s.inode i (some (1, d))

/-- One more name for a file. -/
def link (s : HardLinks Name Ino α) (p : Name) (i : Ino) : HardLinks Name Ino α where
  names := Function.update s.names p (some i)
  inode := Function.update s.inode i ((s.inode i).map fun file => (file.1 + 1, file.2))

/-- One name less for a file, which goes with its last one. -/
def unlink (s : HardLinks Name Ino α) (p : Name) (i : Ino) : HardLinks Name Ino α where
  names := Function.update s.names p none
  inode := Function.update s.inode i ((s.inode i).bind fun file =>
    if file.1 - 1 = 0 then none else some (file.1 - 1, file.2))

end Operations

/-- The names change places. -/
def permute (s : HardLinks Name Ino α) (σ : Equiv.Perm Name) : HardLinks Name Ino α where
  names := s.names ∘ σ
  inode := s.inode

variable {s : HardLinks Name Ino α} {p : Name} {i : Ino}

/-- A new name is one more name of its file, and of no other. -/
theorem namesOf_name [DecidableEq Name] [DecidableEq Ino] (hp : s.names p = none)
    (inode : Ino → Option (Nat × α)) (j : Ino) :
    namesOf ⟨Function.update s.names p (some i), inode⟩ j =
      if j = i then insert p (s.namesOf i) else s.namesOf j := by
  ext q
  unfold namesOf
  by_cases hq : q = p
  · rw [hq]
    split
    · rename_i hj
      simp [hj]
    · rename_i hj
      simp [hp, Ne.symm hj]
  · split
    · rename_i hj
      simp [hq, hj]
    · simp [hq]

theorem namesOf_unname [DecidableEq Name] (inode : Ino → Option (Nat × α)) (j : Ino) :
    namesOf ⟨Function.update s.names p none, inode⟩ j = s.namesOf j \ {p} := by
  ext q
  unfold namesOf
  by_cases hq : q = p
  · simp [hq]
  · simp [hq]

theorem SameData.refl (s : HardLinks Name Ino α) : s.SameData s := fun _ _ _ _ _ hi hi' =>
  (Prod.mk.inj (Option.some.inj (hi.symm.trans hi'))).2.symm

section SameData

variable [DecidableEq Ino]

theorem sameData_of_update {file : Option (Nat × α)} {names : Name → Option Ino}
    (h : ∀ n d m e, s.inode i = some (n, d) → file = some (m, e) → e = d) :
    s.SameData ⟨names, Function.update s.inode i file⟩ := by
  intro j n d m e hj hj'
  simp only at hj'
  by_cases hji : j = i
  · subst hji
    rw [Function.update_self] at hj'
    exact h n d m e hj hj'
  · rw [Function.update_of_ne hji, hj] at hj'
    exact (Prod.mk.inj (Option.some.inj hj')).2.symm

variable [DecidableEq Name]

theorem sameData_link : s.SameData (s.link p i) := by
  refine sameData_of_update fun n d m e hi hfile => ?_
  rw [hi] at hfile
  exact (Prod.mk.inj (Option.some.inj hfile)).2.symm

theorem sameData_create (hi : s.inode i = none) (d : α) : s.SameData (s.create p i d) := by
  refine sameData_of_update fun n d' m e hi' _ => ?_
  rw [hi] at hi'
  cases hi'

theorem sameData_unlink : s.SameData (s.unlink p i) := by
  refine sameData_of_update fun n d m e hi hfile => ?_
  rw [hi, Option.bind_some] at hfile
  split at hfile
  · cases hfile
  · exact (Prod.mk.inj (Option.some.inj hfile)).2.symm

end SameData

namespace CountsKept

theorem no_names (h : s.CountsKept) (hi : s.inode i = none) : s.namesOf i = ∅ := by
  refine Set.eq_empty_of_forall_notMem fun p hp => ?_
  obtain ⟨n, d, hfile⟩ := h.named hp
  rw [hi] at hfile
  cases hfile

theorem permute (h : s.CountsKept) (σ : Equiv.Perm Name) : (s.permute σ).CountsKept := by
  refine ⟨?_, h.pos, h.named⟩
  intro i n d hi
  have himage : (s.permute σ).namesOf i = σ.symm '' s.namesOf i := by
    ext q
    rw [Equiv.image_symm_eq_preimage]
    rfl
  rw [himage, σ.symm.injective.encard_image]
  exact h.count hi

variable [DecidableEq Name] [DecidableEq Ino]

/-- A name more, and a count more. -/
theorem name (h : s.CountsKept) (hp : s.names p = none) {n : Nat} {d : α}
    (hcount : (s.namesOf i).encard = n) :
    CountsKept ⟨Function.update s.names p (some i),
      Function.update s.inode i (some (n + 1, d))⟩ := by
  have hnot : p ∉ s.namesOf i := fun hmem => by
    have hmem : s.names p = some i := hmem
    rw [hp] at hmem
    cases hmem
  refine ⟨?_, ?_, ?_⟩
  · intro j m e hj
    rw [namesOf_name hp]
    simp only at hj
    by_cases hji : j = i
    · subst hji
      rw [Function.update_self] at hj
      obtain ⟨rfl, rfl⟩ := Prod.mk.inj (Option.some.inj hj)
      rw [if_pos rfl, Set.encard_insert_of_notMem hnot, hcount]
      rfl
    · rw [Function.update_of_ne hji] at hj
      rw [if_neg hji]
      exact h.count hj
  · intro j m e hj
    simp only at hj
    by_cases hji : j = i
    · subst hji
      rw [Function.update_self] at hj
      obtain ⟨rfl, rfl⟩ := Prod.mk.inj (Option.some.inj hj)
      exact Nat.succ_pos n
    · rw [Function.update_of_ne hji] at hj
      exact h.pos hj
  · intro q j hq
    simp only at hq ⊢
    by_cases hji : j = i
    · exact ⟨n + 1, d, by rw [hji, Function.update_self]⟩
    · rw [Function.update_of_ne hji]
      by_cases hqp : q = p
      · rw [hqp, Function.update_self] at hq
        exact absurd (Option.some.inj hq).symm hji
      · rw [Function.update_of_ne hqp] at hq
        exact h.named hq

theorem create (h : s.CountsKept) (hp : s.names p = none) (hi : s.inode i = none) (d : α) :
    (s.create p i d).CountsKept := by
  refine h.name hp ?_
  rw [h.no_names hi, Set.encard_empty]
  rfl

theorem link (h : s.CountsKept) (hp : s.names p = none) {n : Nat} {d : α}
    (hi : s.inode i = some (n, d)) : (s.link p i).CountsKept := by
  unfold HardLinks.link
  rw [hi]
  exact h.name hp (h.count hi)

theorem unlink (h : s.CountsKept) (hp : s.names p = some i) : (s.unlink p i).CountsKept := by
  obtain ⟨n, d, hi⟩ := h.named hp
  have hcount : (s.namesOf i \ {p}).encard + 1 = n :=
    (Set.encard_sdiff_singleton_add_one (show p ∈ s.namesOf i from hp)).trans (h.count hi)
  have hpos := h.pos hi
  unfold HardLinks.unlink
  rw [hi, Option.bind_some]
  refine ⟨?_, ?_, ?_⟩
  · intro j m e hj
    rw [namesOf_unname]
    simp only at hj
    by_cases hji : j = i
    · subst hji
      rw [Function.update_self] at hj
      split at hj
      · cases hj
      · obtain ⟨rfl, rfl⟩ := Prod.mk.inj (Option.some.inj hj)
        have hsucc : ((n - 1 : Nat) : ENat) + 1 = n := by
          rw [← Nat.cast_succ, Nat.succ_eq_add_one, Nat.sub_add_cancel hpos]
        exact WithTop.add_right_cancel WithTop.one_ne_top (hcount.trans hsucc.symm)
    · rw [Function.update_of_ne hji] at hj
      rw [Set.sdiff_singleton_eq_self]
      · exact h.count hj
      · intro hmem
        exact hji (Option.some.inj (Eq.trans (Eq.symm hmem) hp))
  · intro j m e hj
    simp only at hj
    by_cases hji : j = i
    · subst hji
      rw [Function.update_self] at hj
      split at hj
      · cases hj
      · obtain ⟨rfl, rfl⟩ := Prod.mk.inj (Option.some.inj hj)
        omega
    · rw [Function.update_of_ne hji] at hj
      exact h.pos hj
  · intro q j hq
    simp only at hq ⊢
    by_cases hqp : q = p
    · rw [hqp, Function.update_self] at hq
      cases hq
    · rw [Function.update_of_ne hqp] at hq
      by_cases hji : j = i
      · subst hji
        have hmem : q ∈ s.namesOf j \ {p} := ⟨hq, hqp⟩
        have hne : n - 1 ≠ 0 := fun hzero => by
          have hn : n = 1 := by omega
          rw [hn] at hcount
          have hempty : (s.namesOf j \ {p}).encard = 0 :=
            WithTop.add_right_cancel WithTop.one_ne_top (hcount.trans (zero_add 1).symm)
          rw [Set.encard_eq_zero.mp hempty] at hmem
          cases hmem
        exact ⟨n - 1, d, by rw [Function.update_self, if_neg hne]⟩
      · rw [Function.update_of_ne hji]
        exact h.named hq

end CountsKept

end HardLinks
