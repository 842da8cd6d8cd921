import Mathlib.Algebra.Group.Nat.Defs
import Mathlib.Algebra.Group.Int.Defs
import Mathlib.Tactic.Ring

/-!
# Memory of bytes

Little-endian numbers in a memory where some addresses are mapped, and structures of
signed fields of one width.

* `read_write`: what is read back from a number that was written;
* `read_start`: the start of a number that can be read;
* `field_pack`, `field_mod`: the fields of a structure, and of its start;
* `field_low`, `field_high`: the halves of a field.
-/

/-- What is at each address that is mapped. -/
abbrev ByteMemory := BitVec 64 → Option (BitVec 8)

namespace ByteMemory

/-- The number in `n` bytes from `a` on. -/
def read (m : ByteMemory) (a : BitVec 64) : Nat → Option Nat
  | 0 => some 0
  | n + 1 => do
      let byte ← m a
      let rest ← read m (a + 1) n
      some (byte.toNat + 256 * rest)

/-- Put a number into `n` bytes from `a` on. -/
def write (m : ByteMemory) (a : BitVec 64) (n v : Nat) : Option ByteMemory :=
  if (read m a n).isSome then
    some fun x => if (x - a).toNat < n then some (BitVec.ofNat 8 (v / 256 ^ (x - a).toNat)) else m x
  else none

/-- The field at place `i` of a structure of fields of `w` bytes. -/
def field (w v i : Nat) : Int := Int.bmod (v / 256 ^ (w * i) : Nat) (256 ^ w)

/-- A structure of fields of `w` bytes. -/
def pack (w : Nat) : List Int → Nat
  | [] => 0
  | x :: l => (x % (256 ^ w : Nat)).toNat + 256 ^ w * pack w l

variable {n v : Nat}

theorem read_write {m m' : ByteMemory} {a : BitVec 64} (h : write m a n v = some m')
    (hn : n ≤ 2 ^ 64) {k j : Nat} (hkj : k + j ≤ n) :
    read m' (a + BitVec.ofNat 64 k) j = some (v / 256 ^ k % 256 ^ j) := by
  unfold write at h
  split at h
  case isFalse => cases h
  obtain rfl := Option.some.inj h
  induction j generalizing k with
  | zero => simp [read, Nat.mod_one]
  | succ j ih =>
      have hoffset : (a + BitVec.ofNat 64 k - a).toNat = k := by
        rw [BitVec.add_comm, BitVec.add_sub_cancel, BitVec.toNat_ofNat]
        exact Nat.mod_eq_of_lt (by omega)
      have hnext : a + BitVec.ofNat 64 k + 1 = a + BitVec.ofNat 64 (k + 1) := by
        rw [BitVec.add_assoc, BitVec.ofNat_add]
        rfl
      rw [read, hnext, ih (by omega)]
      simp only [hoffset, if_pos (show k < n by omega), Option.bind_eq_bind, Option.bind_some,
        BitVec.toNat_ofNat]
      rw [Nat.pow_succ 256 j, Nat.mul_comm (256 ^ j) 256, Nat.mod_mul, Nat.pow_succ 256 k,
        Nat.div_div_eq_div_mul]

theorem read_start {m : ByteMemory} {a : BitVec 64} {k : Nat} (h : read m a n = some v) (hk : k ≤ n)
    : read m a k = some (v % 256 ^ k) := by
  induction k generalizing a n v with
  | zero => simp [read, Nat.mod_one]
  | succ k ih =>
      obtain ⟨n, rfl⟩ : ∃ n', n = n' + 1 := ⟨n - 1, by omega⟩
      rw [read] at h ⊢
      simp only [Option.bind_eq_bind, Option.bind_eq_some_iff] at h ⊢
      obtain ⟨byte, hbyte, rest, hrest, hv⟩ := h
      refine ⟨byte, hbyte, rest % 256 ^ k, ih hrest (by omega), ?_⟩
      have hlt := byte.isLt
      obtain rfl := Option.some.inj hv
      rw [Nat.pow_succ, Nat.mul_comm (256 ^ k), Nat.mod_mul, Option.some.injEq]
      rw [Nat.add_mul_mod_self_left, Nat.add_mul_div_left _ _ (by decide : 0 < 256),
        Nat.div_eq_of_lt hlt, Nat.mod_eq_of_lt hlt, Nat.zero_add]

variable {l : List Int} {i : Nat} {x : Int}

/-- What stands at a place of a structure. -/
theorem pack_at (w : Nat) (hx : l[i]? = some x) :
    pack w l / 256 ^ (w * i) % 256 ^ w = (x % (256 ^ w : Nat)).toNat := by
  induction l generalizing i with
  | nil => cases hx
  | cons y l ih =>
      have hpos : 0 < 256 ^ w := Nat.pow_pos (by decide)
      have hlow : (y % (256 ^ w : Nat)).toNat < 256 ^ w := by
        omega
      cases i with
      | zero =>
          obtain rfl := Option.some.inj hx
          rw [pack, Nat.mul_zero, Nat.pow_zero, Nat.div_one, Nat.add_mul_mod_self_left,
            Nat.mod_eq_of_lt hlow]
      | succ i =>
          rw [← ih hx, pack, Nat.mul_succ, Nat.pow_add, Nat.mul_comm (256 ^ (w * i)),
            ← Nat.div_div_eq_div_mul, Nat.add_mul_div_left _ _ hpos, Nat.div_eq_of_lt hlow,
            Nat.zero_add]

/-- What stands at a place of the start of a structure. -/
theorem mod_at {w : Nat} (hn : w * (i + 1) ≤ n) :
    v % 256 ^ n / 256 ^ (w * i) % 256 ^ w = v / 256 ^ (w * i) % 256 ^ w := by
  have hle : w * i + w ≤ n := by rwa [Nat.mul_succ] at hn
  have hsplit : 256 ^ n = 256 ^ (w * i) * 256 ^ (n - w * i) := by
    rw [← Nat.pow_add, Nat.add_sub_cancel' (by omega)]
  have hdvd : 256 ^ w ∣ 256 ^ (n - w * i) := Nat.pow_dvd_pow 256 (by omega)
  rw [hsplit, Nat.mod_mul_right_div_self, Nat.mod_mod_of_dvd _ hdvd]

theorem field_eq (w v i : Nat) :
    field w v i = Int.bmod (v / 256 ^ (w * i) % 256 ^ w : Nat) (256 ^ w) := by
  rw [Int.natCast_emod, Int.emod_bmod, field]

theorem field_pack (w : Nat) (hx : l[i]? = some x) :
    field w (pack w l) i = Int.bmod x (256 ^ w) := by
  have hne : ((256 ^ w : Nat) : Int) ≠ 0 :=
    Int.natCast_ne_zero.mpr (Nat.pos_iff_ne_zero.mp (Nat.pow_pos (by decide)))
  rw [field_eq, pack_at w hx, Int.toNat_of_nonneg (Int.emod_nonneg x hne), Int.emod_bmod]

theorem field_mod {w : Nat} (hn : w * (i + 1) ≤ n) :
    field w (v % 256 ^ n) i = field w v i := by
  rw [field_eq, field_eq, mod_at hn]

theorem bmod_ediv (x : Int) {a b : Nat} (ha : 0 < a) :
    Int.bmod (Int.bmod x (a * b) / a) b = Int.bmod (x / a) b := by
  have hne : (a : Int) ≠ 0 := Int.natCast_ne_zero.mpr (Nat.pos_iff_ne_zero.mp ha)
  obtain ⟨k, hk⟩ := Int.dvd_bmod_sub_self (x := x) (m := a * b)
  have hx : Int.bmod x (a * b) = x + a * (b * k) := by
    rw [← Int.mul_assoc, ← Int.natCast_mul, ← hk]
    omega
  rw [hx, Int.add_mul_ediv_left _ _ hne, Int.add_mul_bmod_self_left]

theorem bmod_bmod_of_dvd (x : Int) {a b : Nat} : Int.bmod (Int.bmod x (a * b)) a = Int.bmod x a := by
  obtain ⟨k, hk⟩ := Int.dvd_bmod_sub_self (x := x) (m := a * b)
  have hx : Int.bmod x (a * b) = x + a * (b * k) := by
    rw [← Int.mul_assoc, ← Int.natCast_mul, ← hk]
    omega
  rw [hx, Int.add_mul_bmod_self_left]

/-- The lower half of a field, -/
theorem field_low (w v i : Nat) :
    Int.bmod (field (2 * w) v i) (256 ^ w) = field w v (2 * i) := by
  rw [field, field, Nat.two_mul, Nat.pow_add, bmod_bmod_of_dvd]
  congr 4
  ring

/-- and the upper half. -/
theorem field_high (w v i : Nat) :
    Int.bmod (field (2 * w) v i / (256 ^ w : Nat)) (256 ^ w) = field w v (2 * i + 1) := by
  rw [field, field, Nat.two_mul, Nat.pow_add, bmod_ediv _ (Nat.pow_pos (by decide)),
    ← Int.natCast_ediv, Nat.div_div_eq_div_mul, ← Nat.pow_add]
  congr 4
  ring

/-- Fields of half the width, -/
theorem field_pack_low (w : Nat) (hx : l[i]? = some x) :
    field w (pack (2 * w) l) (2 * i) = Int.bmod x (256 ^ w) := by
  rw [← field_low, field_pack (2 * w) hx, Nat.two_mul, Nat.pow_add, bmod_bmod_of_dvd]

/-- and the upper ones. -/
theorem field_pack_high (w : Nat) (hx : l[i]? = some x) :
    field w (pack (2 * w) l) (2 * i + 1) = Int.bmod (x / (256 ^ w : Nat)) (256 ^ w) := by
  rw [← field_high, field_pack (2 * w) hx, Nat.two_mul, Nat.pow_add,
    bmod_ediv _ (Nat.pow_pos (by decide))]

end ByteMemory
