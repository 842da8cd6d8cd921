import Mathlib.Algebra.Group.Nat.Defs
import Mathlib.Data.List.Basic

/-!
# Address spaces

Bytes at the addresses of `n` bits that are mapped, and ranges of them that are read and
written as a whole.  Addresses wrap around.

* `load_eq_some_iff`: a range is read when each of its bytes is there;
* `load_add`: a range is read in two parts;
* `load_store`: what is read back from a range that was written;
* `load_store_apart`: what is read from the rest.
-/

/-- What is at each address that is mapped. -/
abbrev AddressSpace (n : Nat) := BitVec n → Option (BitVec 8)

namespace AddressSpace

variable {n : Nat}

/-- The `k` bytes from an address on, if they are all mapped. -/
def load (m : AddressSpace n) (a : BitVec n) : Nat → Option (List (BitVec 8))
  | 0 => some []
  | k + 1 =>
      match m a with
      | none => none
      | some byte => (load m (a + 1) k).map (byte :: ·)

/-- Put bytes from an address on, if there is room for all of them. -/
def store (m : AddressSpace n) (a : BitVec n) (bytes : List (BitVec 8)) :
    Option (AddressSpace n) :=
  if (load m a bytes.length).isSome then
    some fun x => if (x - a).toNat < bytes.length then bytes[(x - a).toNat]? else m x
  else none

@[simp] theorem load_zero (m : AddressSpace n) (a : BitVec n) : load m a 0 = some [] := rfl

theorem load_succ (m : AddressSpace n) (a : BitVec n) (k : Nat) :
    load m a (k + 1) = match m a with
      | none => none
      | some byte => (load m (a + 1) k).map (byte :: ·) := rfl

/-- Addresses are counted from any address on. -/
theorem add_offset (a : BitVec n) (i j : Nat) :
    a + BitVec.ofNat n i + BitVec.ofNat n j = a + BitVec.ofNat n (i + j) := by
  rw [BitVec.add_assoc, BitVec.ofNat_add]

theorem offset_toNat (a : BitVec n) {i : Nat} (hi : i < 2 ^ n) :
    (a + BitVec.ofNat n i - a).toNat = i := by
  rw [BitVec.add_comm, BitVec.add_sub_cancel, BitVec.toNat_ofNat, Nat.mod_eq_of_lt hi]

theorem add_next (a : BitVec n) (i : Nat) :
    a + 1 + BitVec.ofNat n i = a + BitVec.ofNat n (i + 1) := by
  have h := add_offset a 1 i
  rwa [Nat.add_comm 1 i] at h

variable {m : AddressSpace n} {a : BitVec n} {k : Nat} {bytes : List (BitVec 8)}

theorem load_eq_some_iff :
    load m a k = some bytes ↔
      bytes.length = k ∧ ∀ i < k, m (a + BitVec.ofNat n i) = bytes[i]? := by
  induction k generalizing a bytes with
  | zero =>
      simp only [load_zero, Option.some.injEq, List.length_eq_zero_iff, Nat.not_lt_zero, false_implies,
        implies_true, and_true]
      exact eq_comm
  | succ k ih =>
      have hzero : a + BitVec.ofNat n 0 = a := by simp
      constructor
      · intro h
        rw [load_succ] at h
        split at h
        · cases h
        · rename_i byte hbyte
          obtain ⟨rest, hrest, rfl⟩ := Option.map_eq_some_iff.mp h
          obtain ⟨hlength, heach⟩ := ih.mp hrest
          refine ⟨by simp [hlength], ?_⟩
          intro i hi
          cases i with
          | zero => rw [hzero, hbyte]; rfl
          | succ i =>
              rw [← add_next, heach i (by omega)]
              rfl
      · intro ⟨hlength, heach⟩
        cases bytes with
        | nil => simp at hlength
        | cons byte rest =>
            have hbyte : m a = some byte := by
              have := heach 0 (by omega)
              rwa [hzero] at this
            have hrest : load m (a + 1) k = some rest := by
              apply ih.mpr
              refine ⟨by simpa using hlength, ?_⟩
              intro i hi
              rw [add_next, heach (i + 1) (by omega)]
              rfl
            rw [load_succ, hbyte]
            simp only [hrest, Option.map_some]

theorem load_length (h : load m a k = some bytes) : bytes.length = k :=
  (load_eq_some_iff.1 h).1

theorem load_isSome_iff :
    (load m a k).isSome ↔ ∀ i < k, (m (a + BitVec.ofNat n i)).isSome := by
  constructor
  · intro h i hi
    obtain ⟨bytes, hbytes⟩ := Option.isSome_iff_exists.mp h
    obtain ⟨hlength, heach⟩ := load_eq_some_iff.1 hbytes
    rw [heach i hi, List.getElem?_eq_getElem (by omega)]
    rfl
  · intro h
    induction k generalizing a with
    | zero => rfl
    | succ k ih =>
        have hhead : (m a).isSome := by
          have := h 0 (by omega)
          simpa using this
        have htail : (load m (a + 1) k).isSome := by
          apply ih
          intro i hi
          rw [add_next]
          exact h (i + 1) (by omega)
        obtain ⟨byte, hbyte⟩ := Option.isSome_iff_exists.mp hhead
        rw [load_succ, hbyte]
        simpa using htail

/-- A range is read in two parts. -/
theorem load_add (m : AddressSpace n) (a : BitVec n) (j k : Nat) :
    load m a (j + k) =
      (load m a j).bind fun first =>
        (load m (a + BitVec.ofNat n j) k).map (first ++ ·) := by
  induction j generalizing a with
  | zero => simp
  | succ j ih =>
      rw [Nat.add_right_comm, load_succ, load_succ]
      cases m a with
      | none => rfl
      | some byte =>
          simp only [ih, add_next]
          cases load m (a + 1) j with
          | none => rfl
          | some first =>
              cases load m (a + BitVec.ofNat n (j + 1)) k with
              | none => rfl
              | some rest => rfl

/-- The start of a range, -/
theorem load_take (h : load m a k = some bytes) {j : Nat} (hj : j ≤ k) :
    load m a j = some (bytes.take j) := by
  obtain ⟨hlength, heach⟩ := load_eq_some_iff.1 h
  apply load_eq_some_iff.2
  refine ⟨by simp; omega, ?_⟩
  intro i hi
  rw [heach i (by omega), List.getElem?_take_of_lt hi]

/-- and its end. -/
theorem load_drop (h : load m a k = some bytes) {j : Nat} (hj : j ≤ k) :
    load m (a + BitVec.ofNat n j) (k - j) = some (bytes.drop j) := by
  obtain ⟨hlength, heach⟩ := load_eq_some_iff.1 h
  apply load_eq_some_iff.2
  refine ⟨by simp; omega, ?_⟩
  intro i hi
  rw [add_offset, heach (j + i) (by omega), List.getElem?_drop]

theorem load_append {j : Nat} {first rest : List (BitVec 8)} (hfirst : load m a j = some first)
    (hrest : load m (a + BitVec.ofNat n j) k = some rest) :
    load m a (j + k) = some (first ++ rest) := by
  rw [load_add, hfirst, Option.bind_some, hrest, Option.map_some]

variable {m' : AddressSpace n}

theorem store_eq_some_iff :
    store m a bytes = some m' ↔
      (load m a bytes.length).isSome ∧
        m' = fun x => if (x - a).toNat < bytes.length then bytes[(x - a).toNat]? else m x := by
  refine Option.ite_none_right_eq_some.trans (and_congr_right fun _ => ?_)
  rw [Option.some.injEq, eq_comm]

theorem store_isSome_iff :
    (store m a bytes).isSome ↔ (load m a bytes.length).isSome :=
  Option.isSome_ite

/-- A store maps and unmaps nothing. -/
theorem store_mapped (h : store m a bytes = some m') (x : BitVec n) :
    (m' x).isSome = (m x).isSome := by
  obtain ⟨hroom, rfl⟩ := store_eq_some_iff.1 h
  by_cases hin : (x - a).toNat < bytes.length
  · have hx : a + BitVec.ofNat n (x - a).toNat = x := by
      rw [BitVec.ofNat_toNat, BitVec.setWidth_eq, BitVec.add_comm, BitVec.sub_add_cancel]
    have hmapped := load_isSome_iff.1 hroom _ hin
    rw [hx] at hmapped
    simp only [hin, if_true, hmapped]
    rw [List.getElem?_eq_getElem hin]
    rfl
  · simp only [hin, if_false]

/-- **What was written is read back.** -/
theorem load_store (h : store m a bytes = some m') (hlength : bytes.length ≤ 2 ^ n) :
    load m' a bytes.length = some bytes := by
  obtain ⟨hroom, rfl⟩ := store_eq_some_iff.1 h
  apply load_eq_some_iff.2
  refine ⟨rfl, ?_⟩
  intro i hi
  simp only [offset_toNat a (show i < 2 ^ n by omega), hi, if_true]

/-- Other bytes stay. -/
theorem load_store_apart {b : BitVec n} (h : store m a bytes = some m')
    (hapart : ∀ i < k, bytes.length ≤ (b + BitVec.ofNat n i - a).toNat) :
    load m' b k = load m b k := by
  obtain ⟨hroom, rfl⟩ := store_eq_some_iff.1 h
  induction k generalizing b with
  | zero => rfl
  | succ k ih =>
      have hhead := hapart 0 (by omega)
      have htail : ∀ i < k, bytes.length ≤ (b + 1 + BitVec.ofNat n i - a).toNat := by
        intro i hi
        rw [add_next]
        exact hapart (i + 1) (by omega)
      simp only [BitVec.add_zero] at hhead
      simp only [load_succ, Nat.not_lt.mpr hhead, if_false, ih htail]

/-- A range is written in two parts. -/
theorem store_append {m₁ m₂ : AddressSpace n} {first rest : List (BitVec 8)}
    (hfirst : store m a first = some m₁)
    (hrest : store m₁ (a + BitVec.ofNat n first.length) rest = some m₂)
    (hlength : (first ++ rest).length ≤ 2 ^ n) : store m a (first ++ rest) = some m₂ := by
  obtain ⟨hroom₁, hm₁⟩ := store_eq_some_iff.1 hfirst
  obtain ⟨hroom₂, hm₂⟩ := store_eq_some_iff.1 hrest
  rw [List.length_append] at hlength
  apply store_eq_some_iff.2
  constructor
  · rw [List.length_append, load_isSome_iff]
    intro i hi
    by_cases hlt : i < first.length
    · exact load_isSome_iff.1 hroom₁ i hlt
    · have hmapped := load_isSome_iff.1 hroom₂ (i - first.length) (by omega)
      rw [add_offset, store_mapped hfirst] at hmapped
      rwa [show first.length + (i - first.length) = i by omega] at hmapped
  · rw [hm₂, hm₁]
    funext x
    -- Where `x` is, counted from the start of either part.
    have hx : (x - (a + BitVec.ofNat n first.length)).toNat
        = (2 ^ n - first.length % 2 ^ n + (x - a).toNat) % 2 ^ n := by
      rw [← BitVec.sub_sub, BitVec.toNat_sub, BitVec.toNat_ofNat]
    simp only [hx, List.length_append]
    rcases Nat.lt_or_ge (x - a).toNat first.length with hin | hout
    · have hfar : ¬ (2 ^ n - first.length % 2 ^ n + (x - a).toNat) % 2 ^ n < rest.length := by
        by_cases hfull : first.length = 2 ^ n
        · omega
        · rw [Nat.mod_eq_of_lt (show first.length < 2 ^ n by omega), Nat.mod_eq_of_lt (by omega)]
          omega
      simp only [hfar, hin, if_false, if_true, show (x - a).toNat < first.length + rest.length by
        omega, List.getElem?_append_left hin]
    · have hmod : first.length % 2 ^ n = first.length := Nat.mod_eq_of_lt (by omega)
      have hnear : (2 ^ n - first.length % 2 ^ n + (x - a).toNat) % 2 ^ n
          = (x - a).toNat - first.length := by
        rw [hmod, show 2 ^ n - first.length + (x - a).toNat
          = (x - a).toNat - first.length + 2 ^ n by omega, Nat.add_mod_right,
          Nat.mod_eq_of_lt (by omega)]
      simp only [hnear, Nat.not_lt.mpr hout, if_false, List.getElem?_append_right hout]
      by_cases hrange : (x - a).toNat < first.length + rest.length
      · simp only [hrange, if_true, show (x - a).toNat - first.length < rest.length by omega]
      · simp only [hrange, if_false, show ¬ (x - a).toNat - first.length < rest.length by omega]

/-- What is written over itself stays. -/
theorem store_refill {old : List (BitVec 8)} (hold : load m a k = some old)
    (hlength : bytes.length ≤ k) :
    store m a (bytes ++ old.drop bytes.length) = store m a bytes := by
  have hk := load_length hold
  have htotal : (bytes ++ old.drop bytes.length).length = k := by
    rw [List.length_append, List.length_drop]
    omega
  have hroom : (load m a k).isSome := by rw [hold]; rfl
  have hpart : (load m a bytes.length).isSome := by rw [load_take hold hlength]; rfl
  unfold store
  rw [htotal, if_pos hroom, if_pos hpart]
  congr 1
  funext x
  by_cases hin : (x - a).toNat < bytes.length
  · simp only [hin, show (x - a).toNat < k by omega, if_true, List.getElem?_append_left hin]
  · by_cases hrange : (x - a).toNat < k
    · have hx : a + BitVec.ofNat n (x - a).toNat = x := by
        rw [BitVec.ofNat_toNat, BitVec.setWidth_eq, BitVec.add_comm, BitVec.sub_add_cancel]
      have heach := (load_eq_some_iff.1 hold).2 _ hrange
      rw [hx] at heach
      simp only [hrange, hin, if_true, if_false, heach,
        List.getElem?_append_right (Nat.not_lt.mp hin), List.getElem?_drop]
      congr 1
      omega
    · simp only [hrange, hin, if_false]

/-- Where only some bytes are new, only these are written. -/
theorem store_within {old : List (BitVec 8)} {i : Nat} (hold : load m a k = some old)
    (hi : i + bytes.length ≤ k) (hk : k ≤ 2 ^ n) :
    store m a (old.take i ++ bytes ++ old.drop (i + bytes.length)) =
      store m (a + BitVec.ofNat n i) bytes := by
  have hlength := load_length hold
  have htotal : (old.take i ++ bytes ++ old.drop (i + bytes.length)).length = k := by
    rw [List.length_append, List.length_append, List.length_take, List.length_drop]
    omega
  have hpart : (load m (a + BitVec.ofNat n i) bytes.length).isSome := by
    have hdrop := load_drop hold (show i ≤ k by omega)
    rw [load_take hdrop (by omega)]
    rfl
  unfold store
  rw [htotal, if_pos (by rw [hold]; rfl), if_pos hpart]
  congr 1
  funext x
  -- Where `x` is, counted from the start of the new bytes.
  have hx : (x - (a + BitVec.ofNat n i)).toNat = (2 ^ n - i % 2 ^ n + (x - a).toNat) % 2 ^ n := by
    rw [← BitVec.sub_sub, BitVec.toNat_sub, BitVec.toNat_ofNat]
  have heach : (x - a).toNat < k → old[(x - a).toNat]? = m x := by
    intro hrange
    have hat := (load_eq_some_iff.1 hold).2 _ hrange
    rw [← hat, BitVec.ofNat_toNat, BitVec.setWidth_eq, BitVec.add_comm, BitVec.sub_add_cancel]
  rcases Nat.eq_zero_or_pos bytes.length with hnone | hsome
  · have hnil := List.eq_nil_of_length_eq_zero hnone
    subst hnil
    simp only [List.append_nil, List.length_nil, Nat.add_zero, List.take_append_drop,
      Nat.not_lt_zero, if_false]
    split
    case isTrue hrange => exact heach hrange
    case isFalse => rfl
  have hmod : i % 2 ^ n = i := Nat.mod_eq_of_lt (by omega)
  rw [hx, hmod]
  rcases Nat.lt_or_ge (x - a).toNat i with hbefore | hafter
  · have hfar : ¬ (2 ^ n - i + (x - a).toNat) % 2 ^ n < bytes.length := by
      rw [Nat.mod_eq_of_lt (by omega)]
      omega
    rw [if_pos (by omega), if_neg hfar, List.append_assoc,
      List.getElem?_append_left (by rw [List.length_take]; omega), List.getElem?_take_of_lt hbefore,
      heach (by omega)]
  · have hnear : (2 ^ n - i + (x - a).toNat) % 2 ^ n = (x - a).toNat - i := by
      rw [show 2 ^ n - i + (x - a).toNat = (x - a).toNat - i + 2 ^ n by omega, Nat.add_mod_right,
        Nat.mod_eq_of_lt (by omega)]
    rw [hnear]
    have htake : (old.take i).length = i := by rw [List.length_take]; omega
    by_cases hin : (x - a).toNat - i < bytes.length
    · rw [if_pos (by omega), if_pos hin, List.append_assoc,
        List.getElem?_append_right (by omega), htake, List.getElem?_append_left hin]
    · rw [if_neg hin]
      split
      case isTrue hrange =>
        rw [List.getElem?_append_right (by rw [List.length_append]; omega), List.length_append,
          htake, List.getElem?_drop, ← heach hrange]
        congr 1
        omega
      case isFalse => rfl

/-- What is not written stays. -/
theorem store_frame {x : BitVec n} (h : store m a bytes = some m')
    (hx : ∀ i < bytes.length, x ≠ a + BitVec.ofNat n i) :
    m' x = m x := by
  obtain ⟨-, rfl⟩ := store_eq_some_iff.1 h
  refine if_neg fun hin => hx _ hin ?_
  rw [BitVec.ofNat_toNat, BitVec.setWidth_eq, BitVec.add_comm, BitVec.sub_add_cancel]

/-- What is read depends on the bytes that are read only. -/
theorem load_congr (h : ∀ i < k, m' (a + BitVec.ofNat n i) = m (a + BitVec.ofNat n i)) :
    load m' a k = load m a k := by
  induction k generalizing a with
  | zero => rfl
  | succ k ih =>
      have hhead := h 0 (Nat.succ_pos _)
      rw [BitVec.add_zero] at hhead
      rw [load_succ, load_succ, hhead, ih]
      intro i hi
      rw [add_next]
      exact h (i + 1) (Nat.succ_lt_succ hi)

/-- What was there is put back. -/
theorem store_restore {old : List (BitVec 8)} (hold : load m a old.length = some old)
    (hlength : bytes.length = old.length) (h : store m a bytes = some m') :
    store m' a old = some m := by
  refine store_eq_some_iff.2 ⟨?_, funext fun x => ?_⟩
  · rw [load_isSome_iff]
    intro i hi
    rw [store_mapped h]
    exact load_isSome_iff.1 (by rw [hold]; rfl) i hi
  · by_cases hin : (x - a).toNat < old.length
    · have hbyte := (load_eq_some_iff.1 hold).2 _ hin
      rw [BitVec.ofNat_toNat, BitVec.setWidth_eq, BitVec.add_comm, BitVec.sub_add_cancel] at hbyte
      rw [if_pos hin, hbyte]
    · obtain ⟨-, rfl⟩ := store_eq_some_iff.1 h
      rw [if_neg hin]
      exact (if_neg (by rwa [hlength])).symm

/-- What is mapped is written over itself. -/
theorem store_self (h : load m a bytes.length = some bytes) : store m a bytes = some m := by
  refine store_eq_some_iff.2 ⟨by rw [h]; rfl, funext fun x => ?_⟩
  by_cases hin : (x - a).toNat < bytes.length
  · have hbyte := (load_eq_some_iff.1 h).2 _ hin
    rw [BitVec.ofNat_toNat, BitVec.setWidth_eq, BitVec.add_comm, BitVec.sub_add_cancel] at hbyte
    rw [if_pos hin, hbyte]
  · rw [if_neg hin]

/-- A range is overwritten. -/
theorem store_again {other : List (BitVec 8)} (h : store m a bytes = some m')
    (hlength : other.length = bytes.length) :
    store m' a other = store m a other := by
  have hroom := (store_eq_some_iff.mp h).1
  have hroom' : (load m' a other.length).isSome := by
    rw [load_isSome_iff, hlength]
    intro i hi
    rw [store_mapped h]
    exact load_isSome_iff.mp hroom i hi
  obtain ⟨-, rfl⟩ := store_eq_some_iff.mp h
  unfold store
  rw [if_pos hroom', if_pos (by rwa [hlength])]
  congr 1
  funext x
  by_cases hx : (x - a).toNat < other.length
  · rw [if_pos hx, if_pos hx]
  · rw [if_neg hx, if_neg hx]
    exact if_neg (by rwa [← hlength])

end AddressSpace
