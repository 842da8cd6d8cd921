import PRoot.AddressSpace
import PRoot.Elf

/-!
# Words as bytes

Little-endian words of any size, alone and in a row.

* `wordBytes`: the bytes of a word;
* `littleEndian_wordBytes`, `wordBytes_littleEndian`: the value and the bytes say the same;
* `load_word`: a word of a row that was written.
-/

namespace PRoot

/-- The bytes of a value, as many as a word of that size has. -/
def wordBytes : Nat → Nat → List (BitVec 8)
  | 0, _ => []
  | size + 1, value => BitVec.ofNat 8 value :: wordBytes size (value / 256)

@[simp] theorem wordBytes_length (size value : Nat) : (wordBytes size value).length = size := by
  induction size generalizing value with
  | zero => rfl
  | succ size ih => rw [wordBytes, List.length_cons, ih]

theorem littleEndian_cons (byte : BitVec 8) (bytes : List (BitVec 8)) :
    littleEndian (byte :: bytes) = byte.toNat + 256 * littleEndian bytes := rfl

theorem littleEndian_lt (bytes : List (BitVec 8)) : littleEndian bytes < 256 ^ bytes.length := by
  induction bytes with
  | nil => exact Nat.one_pos
  | cons byte bytes ih =>
      rw [littleEndian_cons, List.length_cons, Nat.pow_succ]
      omega

theorem littleEndian_append (bytes rest : List (BitVec 8)) :
    littleEndian (bytes ++ rest) = littleEndian bytes + 256 ^ bytes.length * littleEndian rest := by
  induction bytes with
  | nil => rw [List.nil_append, List.length_nil, Nat.pow_zero, Nat.one_mul]; exact (Nat.zero_add _).symm
  | cons byte bytes ih =>
      rw [List.cons_append, littleEndian_cons, littleEndian_cons, ih, List.length_cons,
        Nat.pow_succ', Nat.mul_add, Nat.mul_assoc, Nat.add_assoc]

/-- The value of a word is read back from its bytes. -/
theorem littleEndian_wordBytes (size value : Nat) :
    littleEndian (wordBytes size value) = value % 256 ^ size := by
  induction size generalizing value with
  | zero => exact (Nat.mod_one value).symm
  | succ size ih =>
      have hbyte : (BitVec.ofNat 8 value).toNat = value % 256 := BitVec.toNat_ofNat value 8
      rw [wordBytes, littleEndian_cons, ih, hbyte, Nat.pow_succ', Nat.mod_mul]

/-- The bytes of the value of some bytes. -/
theorem wordBytes_littleEndian (bytes : List (BitVec 8)) :
    wordBytes bytes.length (littleEndian bytes) = bytes := by
  induction bytes with
  | nil => rfl
  | cons byte bytes ih =>
      have hhead : BitVec.ofNat 8 (byte.toNat + 256 * littleEndian bytes) = byte := by
        apply BitVec.eq_of_toNat_eq
        rw [BitVec.toNat_ofNat]
        omega
      rw [List.length_cons, littleEndian_cons, wordBytes, hhead,
        show (byte.toNat + 256 * littleEndian bytes) / 256 = littleEndian bytes by omega, ih]

theorem rowBytes_length (size : Nat) (values : List Nat) :
    (values.flatMap (wordBytes size)).length = values.length * size := by
  induction values with
  | nil => exact (Nat.zero_mul size).symm
  | cons value values ih =>
      rw [List.flatMap_cons, List.length_append, ih, wordBytes_length, List.length_cons,
        Nat.succ_mul, Nat.add_comm]

/-- The bytes of a word in a row. -/
theorem rowBytes_word {size : Nat} {values : List Nat} {rest : List (BitVec 8)} {i value : Nat}
    (h : values[i]? = some value) :
    ((values.flatMap (wordBytes size) ++ rest).drop (i * size)).take size = wordBytes size value := by
  induction values generalizing i with
  | nil => cases h
  | cons first values ih =>
      cases i with
      | zero =>
          obtain rfl := Option.some.inj h
          rw [Nat.zero_mul, List.drop_zero, List.flatMap_cons, List.append_assoc,
            List.take_append_of_le_length (by rw [wordBytes_length]),
            List.take_of_length_le (by rw [wordBytes_length])]
      | succ i =>
          rw [List.flatMap_cons, List.append_assoc, Nat.succ_mul, Nat.add_comm,
            ← List.drop_drop, List.drop_left' (wordBytes_length size first)]
          exact ih h

variable {n : Nat}

/-- A word of a row that is there, whatever comes after it. -/
theorem load_word {m : AddressSpace n} {a : BitVec n} {size : Nat} {values : List Nat}
    {rest : List (BitVec 8)} {i value k : Nat}
    (h : m.load a k = some (values.flatMap (wordBytes size) ++ rest))
    (hi : values[i]? = some value) :
    m.load (a + BitVec.ofNat n (i * size)) size = some (wordBytes size value) := by
  have hlength := AddressSpace.load_length h
  rw [List.length_append, rowBytes_length] at hlength
  have hlt := (List.getElem?_eq_some_iff.mp hi).1
  have hle : i * size + size ≤ values.length * size := by
    rw [← Nat.succ_mul]
    exact Nat.mul_le_mul_right size hlt
  have hdrop := AddressSpace.load_drop h (show i * size ≤ k by omega)
  rw [AddressSpace.load_take hdrop (show size ≤ k - i * size by omega), rowBytes_word hi]

end PRoot
