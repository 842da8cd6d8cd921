import Mathlib.Data.List.Basic

/-!
# Heaps of linked cells

Cells that are allocated and freed, and that refer to each other by their addresses.  An address is
never used again.  The cells are a list, the newest first.

* `get_alloc`, `get_update`, `get_free`, `get_map`: what is at an address afterwards;
* `Linked`: each address in a cell is one of a cell that is related to it;
* `Linked.update`, `Linked.free_map`, `Linked.alloc`: when this is kept;
* `OkOr`, `OkOr.bind`: what a computation comes to, where only some faults are possible.
-/

/-- A heap: the next address, and the cells below it. -/
structure LinkedHeap (α : Type) where
  next : Nat
  cells : List (Nat × α)
  below : ∀ c ∈ cells, c.1 < next
  newest : cells.Pairwise fun c d => d.1 < c.1

namespace LinkedHeap

variable {α : Type} (h : LinkedHeap α)

/-- The cell at an address. -/
def get (i : Nat) : Option α := h.cells.lookup i

/-- A new cell. -/
def alloc (a : α) : LinkedHeap α where
  next := h.next + 1
  cells := (h.next, a) :: h.cells
  below := by
    intro c hc
    rcases List.mem_cons.mp hc with rfl | hold
    · exact Nat.lt_succ_self _
    · exact Nat.lt_succ_of_lt (h.below c hold)
  newest := List.pairwise_cons.mpr ⟨h.below, h.newest⟩

/-- Every cell is replaced. -/
def map (f : Nat → α → α) : LinkedHeap α where
  next := h.next
  cells := h.cells.map fun c => (c.1, f c.1 c.2)
  below := by
    intro c hc
    obtain ⟨old, hold, rfl⟩ := List.mem_map.mp hc
    exact h.below old hold
  newest := List.pairwise_map.mpr h.newest

/-- The cell at an address is replaced. -/
def update (i : Nat) (f : α → α) : LinkedHeap α := h.map fun j a => if j = i then f a else a

/-- The cell at an address is gone. -/
def free (i : Nat) : LinkedHeap α where
  next := h.next
  cells := h.cells.filter (·.1 ≠ i)
  below := fun c hc => h.below c (List.mem_filter.mp hc).1
  newest := h.newest.filter _

variable {h}

theorem lookup_cons_if (i j : Nat) (a : α) (cells : List (Nat × α)) :
    ((i, a) :: cells).lookup j = if j = i then some a else cells.lookup j := by
  rw [List.lookup_cons]
  split_ifs with hj
  · rw [beq_iff_eq.mpr hj]
  · rw [beq_eq_false_iff_ne.mpr hj]

/-- Each cell is the one at its address. -/
theorem get_of_mem {i : Nat} {a : α} (hc : (i, a) ∈ h.cells) : h.get i = some a := by
  have hnewest := h.newest
  unfold get
  generalize h.cells = cells at hc hnewest
  induction cells with
  | nil => cases hc
  | cons first cells ih =>
      obtain ⟨j, b⟩ := first
      obtain ⟨hfirst, hrest⟩ := List.pairwise_cons.mp hnewest
      rw [lookup_cons_if]
      rcases List.mem_cons.mp hc with hsame | hc
      · cases hsame
        rw [if_pos rfl]
      · have hlt := hfirst (i, a) hc
        dsimp only at hlt
        rw [if_neg (by omega)]
        exact ih hc hrest

theorem get_next : h.get h.next = none := by
  unfold get
  rw [List.lookup_eq_none_iff]
  intro c hc
  have hbelow := h.below c hc
  simp only [bne_iff_ne, ne_eq]
  omega

theorem get_alloc (a : α) (i : Nat) :
    (h.alloc a).get i = if i = h.next then some a else h.get i := by
  exact lookup_cons_if h.next i a h.cells

theorem get_map (f : Nat → α → α) (i : Nat) : (h.map f).get i = (h.get i).map (f i) := by
  unfold get map
  dsimp only
  generalize h.cells = cells
  induction cells with
  | nil => rfl
  | cons first cells ih =>
      obtain ⟨j, a⟩ := first
      rw [List.map_cons, lookup_cons_if, lookup_cons_if, ih]
      split_ifs with hi
      · rw [hi]
        rfl
      · rfl

theorem get_update (i j : Nat) (f : α → α) :
    (h.update i f).get j = if j = i then (h.get j).map f else h.get j := by
  unfold update
  rw [get_map]
  split_ifs with hj
  · rfl
  · simp

theorem get_free (i j : Nat) : (h.free i).get j = if j = i then none else h.get j := by
  unfold get free
  dsimp only
  generalize h.cells = cells
  induction cells with
  | nil => simp
  | cons first cells ih =>
      obtain ⟨k, a⟩ := first
      by_cases hk : k = i
      · rw [List.filter_cons_of_neg (by simp [hk]), ih, lookup_cons_if, hk]
        split_ifs with hj
        · rfl
        · rfl
      · rw [List.filter_cons_of_pos (by simp [hk]), lookup_cons_if, lookup_cons_if, ih]
        by_cases hj : j = k
        · rw [if_pos hj, if_pos hj, if_neg (hj ▸ hk)]
        · rw [if_neg hj, if_neg hj]

/-! ## Links -/

variable {link : α → Option Nat} {rel : Nat → α → Nat → α → Prop}

/-- Each cell that has a link has it to a cell that there is, and that is related to it. -/
def Linked (link : α → Option Nat) (rel : Nat → α → Nat → α → Prop) (h : LinkedHeap α) : Prop :=
  ∀ i a j, h.get i = some a → link a = some j → ∃ b, h.get j = some b ∧ rel i a j b

theorem Linked.map (hlinked : h.Linked link rel) {f : Nat → α → α}
    (hlink : ∀ i a j, link (f i a) = some j → link a = some j)
    (hrel : ∀ i a j b, rel i a j b → rel i (f i a) j (f j b)) : (h.map f).Linked link rel := by
  intro i a j ha hj
  rw [get_map] at ha
  obtain ⟨a₀, ha₀, rfl⟩ := Option.map_eq_some_iff.mp ha
  obtain ⟨b, hb, hab⟩ := hlinked i a₀ j ha₀ (hlink i a₀ j hj)
  exact ⟨f j b, by rw [get_map, hb]; rfl, hrel i a₀ j b hab⟩

/-- A cell is replaced, with its links. -/
theorem Linked.update (hlinked : h.Linked link rel) {k : Nat} {f : α → α}
    (hsource : ∀ a j, h.get k = some a → link (f a) = some j →
      ∃ b, (h.update k f).get j = some b ∧ rel k (f a) j b)
    (htarget : ∀ i a b, h.get k = some b → rel i a k b → rel i a k (f b)) :
    (h.update k f).Linked link rel := by
  intro i a j ha hj
  rw [get_update] at ha
  split_ifs at ha with hi
  · obtain ⟨a₀, ha₀, rfl⟩ := Option.map_eq_some_iff.mp ha
    subst hi
    exact hsource a₀ j ha₀ hj
  · obtain ⟨b, hb, hab⟩ := hlinked i a j ha hj
    rw [get_update]
    split_ifs with hjk
    · subst hjk
      exact ⟨f b, by rw [hb]; rfl, htarget i a b hb hab⟩
    · exact ⟨b, hb, hab⟩

/-- A cell is replaced by one with the same links. -/
theorem Linked.update_same (hlinked : h.Linked link rel) {k : Nat} {f : α → α}
    (hlink : ∀ a, link (f a) = link a) (hrel : ∀ i a j b, rel i a j b →
      rel i (f a) j b ∧ rel i a j (f b)) : (h.update k f).Linked link rel := by
  refine hlinked.map (fun i a j hj => ?_) fun i a j b hab => ?_
  · split_ifs at hj
    · rwa [hlink] at hj
    · exact hj
  · have htarget : rel i a j (if j = k then f b else b) := by
      split_ifs
      · exact (hrel i a j b hab).2
      · exact hab
    generalize (if j = k then f b else b) = b' at htarget ⊢
    split_ifs
    · exact (hrel i a j b' htarget).1
    · exact htarget

theorem Linked.alloc (hlinked : h.Linked link rel) {a : α} (hnone : link a = none) :
    (h.alloc a).Linked link rel := by
  intro i a' j ha hj
  rw [get_alloc] at ha
  split_ifs at ha with hi
  · cases ha
    rw [hnone] at hj
    cases hj
  · obtain ⟨b, hb, hab⟩ := hlinked i a' j ha hj
    refine ⟨b, ?_, hab⟩
    rw [get_alloc, if_neg]
    · exact hb
    · rintro rfl
      rw [get_next] at hb
      cases hb

/-- A cell is freed, and the links to it are cut. -/
theorem Linked.free_map (hlinked : h.Linked link rel) {k : Nat} {f : Nat → α → α}
    (hlink : ∀ i a j, link (f i a) = some j → link a = some j ∧ j ≠ k)
    (hrel : ∀ i a j b, rel i a j b → rel i (f i a) j (f j b)) :
    ((h.free k).map f).Linked link rel := by
  intro i a j ha hj
  rw [get_map, get_free] at ha
  split_ifs at ha with hi
  · cases ha
  · obtain ⟨a₀, ha₀, rfl⟩ := Option.map_eq_some_iff.mp ha
    obtain ⟨hj₀, hne⟩ := hlink i a₀ j hj
    obtain ⟨b, hb, hab⟩ := hlinked i a₀ j ha₀ hj₀
    refine ⟨f j b, ?_, hrel i a₀ j b hab⟩
    rw [get_map, get_free, if_neg hne, hb]
    rfl

end LinkedHeap

/-! ## Faults -/

/-- A computation that has a good result, or one of some faults. -/
def OkOr {ε α : Type} (fault : ε → Prop) (good : α → Prop) : Except ε α → Prop
  | .ok a => good a
  | .error e => fault e

section

variable {ε α β : Type} {fault : ε → Prop} {good : α → Prop} {good' : β → Prop}

theorem OkOr.bind {x : Except ε α} {f : α → Except ε β} (hx : OkOr fault good x)
    (hf : ∀ a, good a → OkOr fault good' (f a)) : OkOr fault good' (x >>= f) := by
  cases x with
  | error e => exact hx
  | ok a => exact hf a hx

/-- There is no fault. -/
theorem OkOr.ok {x : Except ε α} (hx : OkOr (fun _ => False) good x) :
    ∃ a, x = .ok a ∧ good a := by
  cases x with
  | error e => exact hx.elim
  | ok a => exact ⟨a, rfl, hx⟩

theorem OkOr.mono {x : Except ε α} (hx : OkOr fault good x) {better : α → Prop}
    (himp : ∀ a, good a → better a) : OkOr fault better x := by
  cases x with
  | error e => exact hx
  | ok a => exact himp a hx

/-- What each step of a loop keeps. -/
theorem OkOr.foldlM {f : α → β → Except ε α} {l : List β}
    (hf : ∀ a b, good a → OkOr fault good (f a b)) {a : α} (ha : good a) :
    OkOr fault good (l.foldlM f a) := by
  induction l generalizing a with
  | nil => exact ha
  | cons b l ih =>
      rw [List.foldlM_cons]
      exact (hf a b ha).bind fun a' ha' => ih ha'

end
