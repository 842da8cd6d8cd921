import PRoot.ListInv

/-!
# Editing the binding lists

`insort_binding2` and `remove_binding_from_all_lists` keep the lists in order.

* `ListCore.insort`: a new binding replaces the one of its guest path and joins
  all others;
* `ListCore.remove`: a removed binding is gone from both lists, and nothing else;
* `ListInv.insort`: "/" stays bound.
-/

namespace PRoot

variable {bindings : Bindings}

theorem unlink_sublist (b : Binding) (l : List Binding) : (unlink b l).Sublist l :=
  List.filter_sublist

variable {l : List Binding} {y : Binding}

theorem mem_unlink_iff (haddrs : AddrsDistinct l) {b : Binding} (hb : b ∈ l) :
    y ∈ unlink b l ↔ y ∈ l ∧ y ≠ b := by
  rw [unlink, List.mem_filter, decide_eq_true_iff]
  refine and_congr_right fun hy => ⟨fun h heq => h (by rw [heq]), fun h heq => ?_⟩
  exact h (haddrs.inj hy hb heq)

variable {x : Binding}

theorem mem_insertAfter {p : Binding} (h : y ∈ insertAfter p x l) :
    y = x ∨ y ∈ l := by
  induction l with
  | nil => exact Or.inr h
  | cons b bs ih =>
      rw [insertAfter] at h
      split at h
      · simp only [List.mem_cons] at h ⊢
        tauto
      · rcases List.mem_cons.mp h with rfl | h
        · exact Or.inr List.mem_cons_self
        · exact (ih h).imp_right (List.mem_cons_of_mem _)

theorem mem_insertBefore {n : Binding} (h : y ∈ insertBefore n x l) :
    y = x ∨ y ∈ l := by
  induction l with
  | nil => exact Or.inr h
  | cons b bs ih =>
      rw [insertBefore] at h
      split at h
      · exact List.mem_cons.mp h
      · rcases List.mem_cons.mp h with rfl | h
        · exact Or.inr List.mem_cons_self
        · exact (ih h).imp_right (List.mem_cons_of_mem _)

theorem unlink_subset {b : Binding} (h : y ∈ unlink b l) : y ∈ l :=
  (unlink_sublist b l).subset h

/-- What an insertion puts into a list. -/
theorem mem_insortBinding {bindings : Bindings} (side : Side)
    (h : y ∈ (insortBinding bindings side x).head side) : y = x ∨ y ∈ bindings.head side := by
  unfold insortBinding at h
  simp only at h
  split at h
  · rename_i iterator _
    cases side with
    | pending => exact mem_insertAfter (unlink_subset h)
    | guest => exact mem_insertAfter (unlink_subset h)
    | host => exact mem_insertAfter (unlink_subset h)
  · cases side <;> exact mem_insertAfter h
  · cases side <;> exact mem_insertBefore h
  · cases side <;> exact List.mem_cons.mp h

/-- The state of the lists between the two insertions of `insort_binding2`: the
new binding stands in the guest list only, in front of nothing it contains. -/
structure HalfInserted (bindings : Bindings) (x : Binding) (half : Bindings) : Prop where
  split : ∃ l₁ l₂, half.guest = l₁ ++ x :: l₂ ∧ half.host.Perm (l₁ ++ l₂) ∧
    ∀ b, b ∈ l₁ ++ l₂ ↔ b ∈ bindings.guest ∧ b.guest.path ≠ x.guest.path
  distinct : GuestsDistinct half.guest
  deepest : DeepestFirst (Binding.words .guest) half.guest
  hostDeepest : DeepestFirst (Binding.words .host) half.host
  addrs : AddrsDistinct half.guest

/-- **The insertion by guest path.** -/
theorem ListCore.insort_guest (h : ListCore bindings) (hx : x.guest.Good)
    (hfresh : ∀ b ∈ bindings.guest, b.addr ≠ x.addr) :
    HalfInserted bindings x (insortBinding bindings .guest x) := by
  have hgood : ∀ b ∈ bindings.head .guest, (b.ref .guest).Good := fun b hb => (h.good b hb).1
  have hsame : ∀ b ∈ bindings.guest, b.words .guest = x.words .guest ↔
      b.guest.path = x.guest.path := fun b hb => ((h.good b hb).1.1.eq_iff hx.1).symm
  rcases insortBinding_cases .guest (x := x) hx hgood h.addrs with
    ⟨-, l₁, old, l₂, hsplit, hwords, hres⟩ | ⟨l₁, l₂, hsplit, hslot, hdiff, hres⟩
  · -- the binding of the same guest path gives way
    have hsplit : bindings.guest = l₁ ++ old :: l₂ := hsplit
    have hold : old ∈ bindings.guest := by rw [hsplit]; simp
    have hpath : old.guest.path = x.guest.path := (hsame old hold).mp hwords
    have hne : x.addr ≠ old.addr := Ne.symm (hfresh old hold)
    have hunlink := h.addrs
    rw [hsplit] at hunlink
    have hguest : (insortBinding bindings .guest x).guest = l₁ ++ x :: l₂ := by
      rw [hres]
      exact unlink_replaced hunlink hne
    have hhost : (insortBinding bindings .guest x).host = unlink old bindings.host := by
      rw [hres]
      rfl
    have hmem : ∀ b, b ∈ l₁ ++ l₂ ↔ b ∈ bindings.guest ∧ b.guest.path ≠ x.guest.path := by
      intro b
      rw [← unlink_split hunlink, ← hsplit, mem_unlink_iff h.addrs hold]
      refine and_congr_right fun hb => ?_
      rw [← hpath]
      exact not_congr ⟨fun heq => by rw [heq], fun heq => h.distinct.inj hb hold heq⟩
    refine ⟨⟨l₁, l₂, hguest, ?_, hmem⟩, ?_, ?_, ?_, ?_⟩
    · rw [hhost, ← unlink_split hunlink, ← hsplit]
      exact h.perm.filter _
    · have hd := h.distinct
      rw [GuestsDistinct, hsplit] at hd
      rw [GuestsDistinct, hguest]
      simpa [hpath] using hd
    · have hd := h.deepest
      rw [hsplit] at hd
      rw [hguest]
      exact hd.replace hwords.symm
    · rw [hhost]
      exact h.hostDeepest.sublist (unlink_sublist _ _)
    · rw [AddrsDistinct, hguest]
      have hsub : (l₁ ++ l₂).Sublist (l₁ ++ old :: l₂) :=
        (List.Sublist.refl l₁).append (List.sublist_cons_self old l₂)
      exact nodup_middle ((hsub.map _).nodup hunlink) fun b hb =>
        hfresh b ((hmem b).mp hb).1
  · have hsplit : bindings.guest = l₁ ++ l₂ := hsplit
    have hguest : (insortBinding bindings .guest x).guest = l₁ ++ x :: l₂ := by
      rw [hres]
      rfl
    have hhost : (insortBinding bindings .guest x).host = bindings.host := by
      rw [hres]
      rfl
    have hother : ∀ b ∈ bindings.guest, b.guest.path ≠ x.guest.path := fun b hb heq =>
      hdiff (by simp) b hb ((hsame b hb).mpr heq)
    refine ⟨⟨l₁, l₂, hguest, ?_, ?_⟩, ?_, ?_, ?_, ?_⟩
    · rw [hhost, ← hsplit]
      exact h.perm
    · intro b
      rw [← hsplit]
      exact ⟨fun hb => ⟨hb, hother b hb⟩, fun hb => hb.1⟩
    · rw [GuestsDistinct, hguest]
      exact nodup_middle (hsplit ▸ h.distinct) fun b hb => hother b (hsplit ▸ hb)
    · rw [hguest]
      exact hslot.deepestFirst (hsplit ▸ h.deepest)
    · rw [hhost]
      exact h.hostDeepest
    · rw [AddrsDistinct, hguest]
      exact nodup_middle (hsplit ▸ h.addrs) fun b hb => hfresh b (hsplit ▸ hb)

/-- **Inserting keeps the lists in order**: the new binding takes the place of
the one of its guest path, if any, and joins all others. -/
theorem ListCore.insort (h : ListCore bindings) (hg : x.guest.Good) (hh : x.host.Good)
    (hfresh : ∀ b ∈ bindings.guest, b.addr ≠ x.addr) :
    ListCore (insortBinding2 bindings x) ∧ ∀ b, b ∈ (insortBinding2 bindings x).guest ↔
      b = x.settle ∨ (b ∈ bindings.guest ∧ b.guest.path ≠ x.guest.path) := by
  have hhalf := h.insort_guest (x := x.settle) hg hfresh
  obtain ⟨l₁, l₂, hguest, hperm, hmem⟩ := hhalf.split
  set half := insortBinding bindings .guest x.settle with hdef
  have hold : ∀ b ∈ l₁ ++ l₂, b ∈ bindings.guest := fun b hb => ((hmem b).mp hb).1
  have hhostgood : ∀ b ∈ half.head .host, (b.ref .host).Good := fun b hb =>
    (h.good b (hold b (hperm.mem_iff.mp hb))).2
  have hmiddle : (l₁ ++ x.settle :: l₂).Perm (x.settle :: (l₁ ++ l₂)) := List.perm_middle
  have hhostaddrs : AddrsDistinct half.host := by
    have hall := hhalf.addrs
    rw [AddrsDistinct, hguest] at hall
    refine (hperm.map _).nodup_iff.mpr ?_
    exact (List.nodup_cons.mp ((hmiddle.map _).nodup_iff.mp hall)).2
  have hguest₂ : (insortBinding2 bindings x).guest = half.guest := insortBinding_host_guest half _
  have hmem₂ : ∀ b, b ∈ half.guest ↔
      b = x.settle ∨ (b ∈ bindings.guest ∧ b.guest.path ≠ x.guest.path) := by
    intro b
    rw [hguest, hmiddle.mem_iff, List.mem_cons, hmem b]
    rfl
  rcases insortBinding_cases .host (x := x.settle) hh hhostgood hhostaddrs with
    ⟨hside, -⟩ | ⟨m₁, m₂, hsplit, hslot, -, hres⟩
  · exact absurd rfl hside
  have hsplit : half.host = m₁ ++ m₂ := hsplit
  have hhost₂ : (insortBinding2 bindings x).host = m₁ ++ x.settle :: m₂ := by
    show (insortBinding half .host x.settle).host = _
    rw [hres]
    rfl
  refine ⟨⟨?_, ?_, ?_, ?_, ?_, ?_, ?_⟩, fun b => by rw [hguest₂]; exact hmem₂ b⟩
  · intro b hb
    rw [hguest₂] at hb
    rcases (hmem₂ b).mp hb with rfl | ⟨hb, -⟩
    · exact ⟨hg, hh⟩
    · exact h.good b hb
  · intro b hb
    rw [hguest₂] at hb
    rcases (hmem₂ b).mp hb with rfl | ⟨hb, -⟩
    · rfl
    · exact h.settled b hb
  · rw [hguest₂]
    exact hhalf.distinct
  · rw [hguest₂]
    exact hhalf.deepest
  · rw [hguest₂, hhost₂, hguest]
    have h₁ : (m₁ ++ x.settle :: m₂).Perm (x.settle :: (m₁ ++ m₂)) := List.perm_middle
    exact (h₁.trans ((hsplit ▸ hperm).cons _)).trans hmiddle.symm
  · rw [hhost₂]
    exact hslot.deepestFirst (hsplit ▸ hhalf.hostDeepest)
  · rw [hguest₂]
    exact hhalf.addrs

/-- **Removing keeps the lists in order.** -/
theorem ListCore.remove (h : ListCore bindings) (x : Binding) :
    ListCore (removeBindingFromAllLists bindings x) where
  good b hb := h.good b ((unlink_sublist x _).subset hb)
  settled b hb := h.settled b ((unlink_sublist x _).subset hb)
  distinct := ((unlink_sublist x _).map _).nodup h.distinct
  deepest := h.deepest.sublist (unlink_sublist x _)
  perm := h.perm.filter _
  hostDeepest := h.hostDeepest.sublist (unlink_sublist x _)
  addrs := ((unlink_sublist x _).map _).nodup h.addrs

/-- Inserting keeps "/" bound, or binds it. -/
theorem ListInv.insort (h : ListInv bindings) (hg : x.guest.Good) (hh : x.host.Good)
    (hfresh : ∀ b ∈ bindings.guest, b.addr ≠ x.addr) :
    ListInv (insortBinding2 bindings x) := by
  obtain ⟨hcore, hmem⟩ := h.toListCore.insort hg hh hfresh
  obtain ⟨init, root, hlist, hroot⟩ := h.root
  by_cases hx : x.guest.path = slash
  · exact hcore.withRoot ((hmem x.settle).mpr (Or.inl rfl)) hx
  · refine hcore.withRoot ((hmem root).mpr (Or.inr ⟨by rw [hlist]; simp, ?_⟩)) hroot
    rw [hroot]
    exact Ne.symm hx

end PRoot
