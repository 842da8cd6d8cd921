import Mathlib.Algebra.Group.Nat.Defs
import Mathlib.Data.List.Chain
import Mathlib.Data.List.Nodup

/-!
# Reused slots with a generation counter

An array of slots that hold objects.  A slot is occupied, released and occupied
again; each release counts up its generation, so that a handle made of the place
and the generation of a slot outlives the object it was made for without naming
the next one.

* `Evolves`: what one operation may do to the slots;
* `generationAt_history`: over any history the generation counts the releases;
* `live_history`: an object that is not released stays;
* `generationAt_ne`: the counter does not repeat before it has gone through all
  its values.
-/

/-- A slot: its generation, whether it is occupied, and what it holds. -/
structure Slot (w : Nat) (α : Type*) where
  generation : BitVec w
  valid : Bool
  content : α
  deriving DecidableEq, Repr

namespace Slot

variable {w : Nat} {α : Type*}

/-- Whether the slot at some place is occupied. -/
def live (slots : List (Slot w α)) (i : Nat) : Bool := (slots[i]?).any Slot.valid

/-- The generation of the slot at some place; slots to come start from 0. -/
def generationAt (slots : List (Slot w α)) (i : Nat) : BitVec w :=
  (slots[i]?).elim 0 Slot.generation

/-- Put a free slot behind the others. -/
def grow (slots : List (Slot w α)) (zero : α) : List (Slot w α) := slots ++ [⟨0, false, zero⟩]

/-- Occupy a slot. -/
def occupy (slots : List (Slot w α)) (i : Nat) (content : α → α) : List (Slot w α) :=
  slots.modify i fun slot => { slot with valid := true, content := content slot.content }

/-- Release a slot, and count it. -/
def release (slots : List (Slot w α)) (i : Nat) (content : α → α) : List (Slot w α) :=
  slots.modify i fun slot => ⟨slot.generation + 1, false, content slot.content⟩

/-- Change what a slot holds. -/
def update (slots : List (Slot w α)) (i : Nat) (content : α → α) : List (Slot w α) :=
  slots.modify i fun slot => { slot with content := content slot.content }

section

variable (slots : List (Slot w α)) (i j : Nat)

theorem live_lt {slots : List (Slot w α)} {i : Nat} (h : live slots i = true) :
    i < slots.length := by
  by_contra hle
  rw [live, List.getElem?_eq_none (Nat.le_of_not_lt hle)] at h
  cases h

theorem live_iff : live slots i = true ↔ ∃ slot, slots[i]? = some slot ∧ slot.valid = true := by
  rw [live]
  cases slots[i]? <;> simp

@[simp] theorem live_grow (zero : α) : live (grow slots zero) i = live slots i := by
  rw [live, live, grow, List.getElem?_append]
  split
  · rfl
  · rename_i hle
    rw [List.getElem?_eq_none (Nat.le_of_not_lt hle)]
    cases i - slots.length <;> rfl

@[simp] theorem generationAt_grow (zero : α) :
    generationAt (grow slots zero) i = generationAt slots i := by
  rw [generationAt, generationAt, grow, List.getElem?_append]
  split
  · rfl
  · rename_i hle
    rw [List.getElem?_eq_none (Nat.le_of_not_lt hle)]
    cases i - slots.length <;> rfl

/-- Occupying the new slot. -/
theorem occupy_grow (zero : α) (content : α → α) :
    occupy (grow slots zero) slots.length content = slots ++ [⟨0, true, content zero⟩] := by
  unfold occupy grow
  induction slots with
  | nil => rfl
  | cons slot slots ih =>
      rw [List.cons_append, List.length_cons, List.modify_succ_cons, ih]
      rfl

theorem live_occupy (content : α → α) (hi : i < slots.length) :
    live (occupy slots i content) j = (decide (j = i) || live slots j) := by
  rw [live, live, occupy, List.getElem?_modify]
  by_cases h : i = j
  · subst h
    rw [List.getElem?_eq_getElem hi]
    simp
  · simp [h, Ne.symm h]

@[simp] theorem generationAt_occupy (content : α → α) :
    generationAt (occupy slots i content) j = generationAt slots j := by
  rw [generationAt, generationAt, occupy, List.getElem?_modify]
  cases slots[j]? with
  | none => rfl
  | some slot =>
      by_cases h : i = j <;> simp [h]

@[simp] theorem live_update (content : α → α) : live (update slots i content) j = live slots j := by
  rw [live, live, update, List.getElem?_modify]
  cases slots[j]? with
  | none => rfl
  | some slot => by_cases h : i = j <;> simp [h]

@[simp] theorem generationAt_update (content : α → α) :
    generationAt (update slots i content) j = generationAt slots j := by
  rw [generationAt, generationAt, update, List.getElem?_modify]
  cases slots[j]? with
  | none => rfl
  | some slot => by_cases h : i = j <;> simp [h]

@[simp] theorem live_release (content : α → α) :
    live (release slots i content) j = (!decide (j = i) && live slots j) := by
  rw [live, live, release, List.getElem?_modify]
  by_cases h : i = j
  · subst h
    cases slots[i]? <;> simp
  · simp [h, Ne.symm h]

theorem generationAt_release (content : α → α) (hi : i < slots.length) :
    generationAt (release slots i content) j =
      if j = i then generationAt slots j + 1 else generationAt slots j := by
  rw [generationAt, generationAt, release, List.getElem?_modify]
  by_cases h : i = j
  · subst h
    rw [List.getElem?_eq_getElem hi]
    simp
  · simp [h, Ne.symm h]

end

/-- **What an operation may do to the slots**: an object stays or is released, and
only a release changes a generation, by one. -/
structure Evolves (before after : List (Slot w α)) : Prop where
  stay : ∀ i, live before i = true → live after i = true →
    generationAt after i = generationAt before i
  leave : ∀ i, live before i = true → live after i = false →
    generationAt after i = generationAt before i + 1
  free : ∀ i, live before i = false → generationAt after i = generationAt before i

theorem Evolves.refl (slots : List (Slot w α)) : Evolves slots slots :=
  ⟨fun _ _ _ => rfl, fun _ h h' => absurd (h.symm.trans h') (by decide), fun _ _ => rfl⟩

/-- Only what is occupied and the generations count. -/
theorem Evolves.congr {β : Type*} {before after : List (Slot w α)}
    {before' after' : List (Slot w β)} (h : Evolves before after)
    (hbefore : ∀ i, live before' i = live before i ∧ generationAt before' i = generationAt before i)
    (hafter : ∀ i, live after' i = live after i ∧ generationAt after' i = generationAt after i) :
    Evolves before' after' := by
  refine ⟨fun i h₁ h₂ => ?_, fun i h₁ h₂ => ?_, fun i h₁ => ?_⟩
  · rw [(hafter i).2, (hbefore i).2]
    exact h.stay i ((hbefore i).1 ▸ h₁) ((hafter i).1 ▸ h₂)
  · rw [(hafter i).2, (hbefore i).2]
    exact h.leave i ((hbefore i).1 ▸ h₁) ((hafter i).1 ▸ h₂)
  · rw [(hafter i).2, (hbefore i).2]
    exact h.free i ((hbefore i).1 ▸ h₁)

/-! ## Histories -/

/-- How often a slot is released in a history. -/
def releases (i : Nat) : List (Slot w α) → List (List (Slot w α)) → Nat
  | _, [] => 0
  | before, after :: history =>
      (if live before i = true ∧ live after i = false then 1 else 0) + releases i after history

/-- The slots at the end of a history. -/
def latest : List (Slot w α) → List (List (Slot w α)) → List (Slot w α)
  | slots, [] => slots
  | _, slots :: history => latest slots history

/-- Each operation of a history does no more than it may. -/
def EvolvesAlong : List (Slot w α) → List (List (Slot w α)) → Prop
  | _, [] => True
  | before, after :: history => Evolves before after ∧ EvolvesAlong after history

/-- **The generation counts the releases.** -/
theorem generationAt_history {slots : List (Slot w α)} {history : List (List (Slot w α))}
    (h : EvolvesAlong slots history) (i : Nat) :
    generationAt (latest slots history) i =
      generationAt slots i + BitVec.ofNat w (releases i slots history) := by
  induction history generalizing slots with
  | nil => simp [latest, releases]
  | cons after history ih =>
      obtain ⟨hstep, hrest⟩ := h
      rw [latest, ih hrest, releases]
      cases hlive : live slots i with
      | false =>
          rw [hstep.free i hlive, if_neg (by simp), Nat.zero_add]
      | true =>
          cases hafter : live after i with
          | true => rw [hstep.stay i hlive hafter, if_neg (by simp), Nat.zero_add]
          | false =>
              rw [hstep.leave i hlive hafter, if_pos ⟨rfl, rfl⟩, BitVec.ofNat_add,
                BitVec.add_assoc]
              rfl

/-- **An object that is not released stays.** -/
theorem live_history {slots : List (Slot w α)} {history : List (List (Slot w α))} {i : Nat}
    (hlive : live slots i = true) (hkept : releases i slots history = 0) :
    live (latest slots history) i = true := by
  induction history generalizing slots with
  | nil => exact hlive
  | cons after history ih =>
      rw [releases, Nat.add_eq_zero_iff] at hkept
      cases hafter : live after i with
      | true => exact ih hafter hkept.2
      | false => simp [hlive, hafter] at hkept

/-- **The counter does not repeat** before it has gone through all its values. -/
theorem generationAt_ne {slots : List (Slot w α)} {history : List (List (Slot w α))}
    (h : EvolvesAlong slots history) {i : Nat} (hsome : releases i slots history ≠ 0)
    (hfew : releases i slots history < 2 ^ w) :
    generationAt (latest slots history) i ≠ generationAt slots i := by
  intro heq
  rw [generationAt_history h] at heq
  have hzero : BitVec.ofNat w (releases i slots history) = 0#w :=
    BitVec.add_right_eq_self.mp heq
  have hnat := congrArg BitVec.toNat hzero
  rw [BitVec.toNat_ofNat, BitVec.toNat_zero, Nat.mod_eq_of_lt hfew] at hnat
  exact hsome hnat

end Slot
