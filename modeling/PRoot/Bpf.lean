import Mathlib.Data.List.Basic

/-!
# Filter programs

The part of the classic packet filter machine that dispatches on words of its
input: loads, forward jumps and returns.  Jumps only go forward, so a program is
run by dropping statements.

* `run_append`: statements that are jumped over do not matter;
* `run_switch`: a sequence of tests returns the value of the first one that
  holds.
-/

namespace Bpf

/-- What a statement does: load the word at the absolute offset `k`, jump by `jt`
if the accumulator is `k` and by `jf` if not, jump by `k`, return `k`. -/
inductive Code
  | ldAbs | jeq | ja | ret
  deriving DecidableEq, Repr

/-- One statement. -/
structure Insn where
  code : Code
  jt : BitVec 8
  jf : BitVec 8
  k : BitVec 32
  deriving DecidableEq, Repr

/-- A statement without jump offsets. -/
def stmt (code : Code) (k : BitVec 32) : Insn := ⟨code, 0, 0, k⟩

/-- A statement with jump offsets. -/
def jump (code : Code) (k : BitVec 32) (jt jf : BitVec 8) : Insn := ⟨code, jt, jf, k⟩

/-- How many statements may be skipped after this one. -/
def Insn.offsets (i : Insn) : List Nat :=
  match i.code with
  | .ldAbs => [0]
  | .jeq => [i.jt.toNat, i.jf.toNat]
  | .ja => [i.k.toNat]
  | .ret => []

/-- **Run a program** on some input, from the statement after the next `skip`
ones.  The result is `none` where it runs out of statements. -/
def run (data : Nat → BitVec 32) : List Insn → Nat → BitVec 32 → Option (BitVec 32)
  | [], _, _ => none
  | _ :: rest, skip + 1, acc => run data rest skip acc
  | i :: rest, 0, acc =>
      match i.code with
      | .ldAbs => run data rest 0 (data i.k.toNat)
      | .jeq => run data rest (if acc = i.k then i.jt.toNat else i.jf.toNat) acc
      | .ja => run data rest i.k.toNat acc
      | .ret => some i.k

/-- Every jump of a program lands inside the program, or in the `more`
statements that follow it. -/
def JumpsWithin (more : Nat) : List Insn → Prop
  | [] => True
  | i :: rest => (∀ offset ∈ i.offsets, offset < rest.length + more) ∧ JumpsWithin more rest

section

variable {data : Nat → BitVec 32} {p q : List Insn} {acc : BitVec 32}

/-- **Statements that are jumped over do not matter.** -/
theorem run_append (skip : Nat) : run data (p ++ q) (p.length + skip) acc = run data q skip acc := by
  induction p with
  | nil => rw [List.nil_append, List.length_nil, Nat.zero_add]
  | cons i rest ih =>
      rw [List.cons_append, List.length_cons, Nat.add_right_comm, run]
      exact ih

/-- A program may be followed by another one. -/
theorem JumpsWithin.append {n m : Nat} (hp : JumpsWithin n p) (hn : n ≤ q.length + m)
    (hq : JumpsWithin m q) : JumpsWithin m (p ++ q) := by
  induction p with
  | nil => exact hq
  | cons i rest ih =>
      obtain ⟨hi, hrest⟩ := hp
      refine ⟨fun offset hoffset => ?_, ih hrest⟩
      have hlt := hi offset hoffset
      show offset < (rest ++ q).length + m
      rw [List.length_append]
      omega

end

/-! ## Tests one after the other -/

/-- The accumulator is compared with the first word of each pair, and the second
one is returned where it is equal. -/
def switch : List (BitVec 32 × BitVec 32) → List Insn
  | [] => []
  | (word, value) :: cases => jump .jeq word 0 1 :: stmt .ret value :: switch cases

theorem switch_length (cases : List (BitVec 32 × BitVec 32)) :
    (switch cases).length = cases.length * 2 := by
  induction cases with
  | nil => rfl
  | cons head cases ih =>
      rw [switch, List.length_cons, List.length_cons, List.length_cons, ih]
      omega

theorem switch_append (cases₁ cases₂ : List (BitVec 32 × BitVec 32)) :
    switch (cases₁ ++ cases₂) = switch cases₁ ++ switch cases₂ := by
  induction cases₁ with
  | nil => rfl
  | cons head cases₁ ih =>
      rw [List.cons_append, switch, switch, ih]
      rfl

/-- **A sequence of tests** returns the value of the first one that holds, and
goes on if none does. -/
theorem run_switch {data : Nat → BitVec 32} {acc : BitVec 32}
    (cases : List (BitVec 32 × BitVec 32)) (rest : List Insn) :
    run data (switch cases ++ rest) 0 acc =
      match cases.lookup acc with
      | some value => some value
      | none => run data rest 0 acc := by
  induction cases with
  | nil => rfl
  | cons head cases ih =>
      obtain ⟨word, value⟩ := head
      have hunfold : run data (switch ((word, value) :: cases) ++ rest) 0 acc =
          run data (stmt .ret value :: (switch cases ++ rest)) (if acc = word then 0 else 1) acc := by
        by_cases h : acc = word <;> simp [switch, run, jump, h]
      rw [hunfold]
      by_cases h : acc = word
      · subst h
        rw [if_pos rfl, List.lookup_cons_self]
        rfl
      · rw [if_neg h, List.lookup_cons, beq_false_of_ne h, run]
        exact ih

theorem switch_jumps (cases : List (BitVec 32 × BitVec 32)) {more : Nat} (hmore : 1 ≤ more) :
    JumpsWithin more (switch cases) := by
  induction cases with
  | nil => exact True.intro
  | cons head cases ih =>
      obtain ⟨word, value⟩ := head
      refine ⟨fun offset hoffset => ?_, fun offset hoffset => absurd hoffset List.not_mem_nil, ih⟩
      show offset < (switch cases).length + 1 + more
      simp only [Insn.offsets, jump, List.mem_cons, List.not_mem_nil, or_false] at hoffset
      rcases hoffset with rfl | rfl
      · exact Nat.lt_of_lt_of_le hmore (Nat.le_add_left _ _)
      · show 1 < (switch cases).length + 1 + more
        omega

end Bpf
