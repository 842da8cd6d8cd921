import PRoot.LoaderSteps

/-!
# The name that the loader sets

`basename` of `loader/loader.c`, which finds the name of the process in the path of the program.

* `lastName`: the name of a path;
* `findEnd_eq`, `findSlash_eq`: the two scans;
* `basename_eq`: what `basename` returns;
* `basename_right_iff`: when that is the name.
-/

namespace PRoot

namespace Loader

/-- What is behind the last `/` of a path. -/
def lastName (path : Bytes) : Bytes := (path.reverse.takeWhile (· ≠ 0x2F)).reverse

/-- The string that stands at an address, with its end. -/
def HoldsString {size : Nat} (memory : LoaderMemory size) (a : Word size) (string : Bytes) : Prop :=
  0 ∉ string ∧ (memory.accessible 1).load a (string.length + 1) = some (string ++ [0])

instance {size : Nat} (memory : LoaderMemory size) (a : Word size) (string : Bytes) :
    Decidable (HoldsString memory a string) :=
  inferInstanceAs (Decidable (_ ∧ _))

section

variable {size : Nat} {s : LoaderState size} {string : Word size} {path before name : Bytes}

/-! ## The name of a path -/

/-- An absolute path has a last `/`. -/
theorem exists_lastName (h : path.head? = some 0x2F) :
    ∃ before, path = before ++ 0x2F :: lastName path ∧ 0x2F ∉ lastName path := by
  have hnot : 0x2F ∉ lastName path := by
    intro hmem
    have hmem := List.mem_takeWhile_imp (List.mem_reverse.mp hmem)
    exact absurd hmem (by decide)
  have hsplit := List.takeWhile_append_dropWhile (p := (· ≠ 0x2F)) (l := path.reverse)
  have hpath : path = (path.reverse.dropWhile (· ≠ 0x2F)).reverse ++ lastName path := by
    rw [lastName, ← List.reverse_append, hsplit, List.reverse_reverse]
  cases hrest : path.reverse.dropWhile (· ≠ 0x2F) with
  | nil =>
      rw [hrest, List.reverse_nil, List.nil_append] at hpath
      rw [← hpath] at hnot
      exact absurd (List.mem_of_head? h) hnot
  | cons byte rest =>
      have hbyte : byte = 0x2F := by
        have hhead := List.head?_dropWhile_not (· ≠ 0x2F) path.reverse
        rw [hrest] at hhead
        simpa using hhead
      rw [hrest, hbyte, List.reverse_cons, List.append_assoc] at hpath
      exact ⟨rest.reverse, hpath, hnot⟩

/-- The first `/` is the last one only where there is no other. -/
theorem mem_tail_iff (hpath : path = before ++ 0x2F :: name) (hname : 0x2F ∉ name)
    (habsolute : path.head? = some 0x2F) : 0x2F ∈ path.tail ↔ before ≠ [] := by
  subst hpath
  cases before with
  | nil => simpa using hname
  | cons byte before => simp

/-! ## The scans -/

/-- A byte that can be read. -/
theorem readBytes_one {a : Word size} {byte : BitVec 8}
    (h : s.memory.accessible 1 a = some byte) : readBytes a 1 s = .ok [byte] s := by
  unfold readBytes
  rw [AddressSpace.load_succ, h]
  rfl

theorem HoldsString.byte (h : HoldsString s.memory string path) {i : Nat} {byte : BitVec 8}
    (hbyte : (path ++ [0])[i]? = some byte) :
    s.memory.accessible 1 (string + BitVec.ofNat _ i) = some byte := by
  have hlt := (List.getElem?_eq_some_iff.mp hbyte).1
  rw [List.length_append, List.length_singleton] at hlt
  rw [(AddressSpace.load_eq_some_iff.mp h.2).2 i hlt, hbyte]

theorem HoldsString.first (h : HoldsString s.memory string path) {byte : BitVec 8}
    (hbyte : (path ++ [0]).head? = some byte) : s.memory.accessible 1 string = some byte := by
  have hzero : string + BitVec.ofNat _ 0 = string := BitVec.add_zero string
  rw [← h.byte (List.head?_eq_getElem?.symm.trans hbyte), hzero]

/-- The string behind some of its bytes. -/
theorem HoldsString.drop (h : HoldsString s.memory string (before ++ name)) :
    HoldsString s.memory (string + BitVec.ofNat _ before.length) name := by
  obtain ⟨hzero, hload⟩ := h
  refine ⟨fun hmem => hzero (List.mem_append_right _ hmem), ?_⟩
  obtain ⟨-, heach⟩ := AddressSpace.load_eq_some_iff.mp hload
  refine AddressSpace.load_eq_some_iff.mpr ⟨by simp, fun i hi => ?_⟩
  rw [AddressSpace.add_offset, heach _ (by rw [List.length_append]; omega), List.append_assoc,
    List.getElem?_append_right (Nat.le_add_right _ _), Nat.add_sub_cancel_left]

/-- The kernel reads that string. -/
theorem HoldsString.stringAt (h : HoldsString s.memory string path) {rounds : Nat}
    (hrounds : path.length < rounds) :
    stringAt (s.memory.accessible 1) rounds string = some path := by
  induction path generalizing string rounds with
  | nil =>
      obtain ⟨rounds, rfl⟩ := Nat.exists_eq_succ_of_ne_zero (Nat.ne_zero_of_lt hrounds)
      have hbyte := h.first rfl
      rw [Loader.stringAt, hbyte]
      rfl
  | cons byte path ih =>
      obtain ⟨rounds, rfl⟩ := Nat.exists_eq_succ_of_ne_zero (Nat.ne_zero_of_lt hrounds)
      have hbyte := h.first rfl
      have hne : byte ≠ 0 := by
        rintro rfl
        exact h.1 List.mem_cons_self
      have hrest := ih (@HoldsString.drop _ _ _ [byte] path h) (Nat.lt_of_succ_lt_succ hrounds)
      rw [Loader.stringAt, hbyte]
      simp only [hne, if_false]
      rw [show string + 1 = string + BitVec.ofNat _ [byte].length from rfl, hrest]
      rfl

/-- The first scan ends at the end. -/
theorem findEnd_eq (h : HoldsString s.memory string path) {fuel : Nat}
    (hfuel : path.length < fuel) :
    findEnd fuel string s = .ok (string + BitVec.ofNat _ path.length) s := by
  induction path generalizing string fuel with
  | nil =>
      obtain ⟨fuel, rfl⟩ := Nat.exists_eq_succ_of_ne_zero (Nat.ne_zero_of_lt hfuel)
      have hbyte := h.first rfl
      rw [findEnd, run_bind (readBytes_one hbyte), if_neg (not_not.mpr rfl)]
      exact congrArg (EStateM.Result.ok · s) (BitVec.add_zero string).symm
  | cons byte path ih =>
      obtain ⟨fuel, rfl⟩ := Nat.exists_eq_succ_of_ne_zero (Nat.ne_zero_of_lt hfuel)
      have hbyte := h.first rfl
      have hne : [byte] ≠ [0] := by
        intro heq
        obtain rfl := (List.cons.inj heq).1
        exact h.1 List.mem_cons_self
      have hrest := ih (@HoldsString.drop _ _ _ [byte] path h) (Nat.lt_of_succ_lt_succ hfuel)
      rw [findEnd, run_bind (readBytes_one hbyte), if_pos hne]
      rw [AddressSpace.add_offset] at hrest
      rw [List.length_cons, Nat.add_comm]
      exact hrest

/-- The second one ends at the last `/`, wherever behind it it starts. -/
theorem findSlash_eq (h : HoldsString s.memory string (before ++ 0x2F :: name))
    (hname : 0x2F ∉ name)
    (hroom : string.toNat + (before.length + 1 + name.length) < 2 ^ (8 * size))
    {m fuel : Nat} (hm : m ≤ name.length + 1) (hfuel : m < fuel) :
    findSlash string fuel (string + BitVec.ofNat _ (before.length + m)) s =
      .ok (string + BitVec.ofNat _ before.length) s := by
  induction m generalizing fuel with
  | zero =>
      obtain ⟨fuel, rfl⟩ := Nat.exists_eq_succ_of_ne_zero (Nat.ne_zero_of_lt hfuel)
      have hbyte := @HoldsString.byte _ _ _ _ h before.length 0x2F (by simp)
      rw [Nat.add_zero, findSlash, run_bind (readBytes_one hbyte),
        if_neg (fun hand => hand.1 rfl)]
      rfl
  | succ m ih =>
      obtain ⟨fuel, rfl⟩ := Nat.exists_eq_succ_of_ne_zero (Nat.ne_zero_of_lt hfuel)
      obtain ⟨byte, hget⟩ : ∃ byte, (name ++ [0])[m]? = some byte := by
        refine ⟨_, List.getElem?_eq_getElem ?_⟩
        rw [List.length_append, List.length_singleton]
        omega
      have hne : byte ≠ 0x2F := by
        rintro rfl
        rcases List.mem_append.mp (List.mem_of_getElem? hget) with hmem | hmem
        · exact hname hmem
        · exact absurd (List.mem_singleton.mp hmem) (by decide)
      have hbyte : (before ++ 0x2F :: name ++ [0])[before.length + (m + 1)]? = some byte := by
        rw [List.append_assoc, List.getElem?_append_right (Nat.le_add_right _ _),
          Nat.add_sub_cancel_left]
        exact hget
      have hbehind : string + BitVec.ofNat _ (before.length + (m + 1)) > string := by
        refine BitVec.lt_def.mpr ?_
        rw [plus_toNat (by omega)]
        omega
      have hback : string + BitVec.ofNat _ (before.length + (m + 1)) - 1 =
          string + BitVec.ofNat _ (before.length + m) := by
        have hnext := AddressSpace.add_offset string (before.length + m) 1
        rw [Nat.add_assoc] at hnext
        rw [← hnext]
        exact BitVec.add_sub_cancel _ _
      rw [findSlash, run_bind (readBytes_one (h.byte hbyte)),
        if_pos ⟨fun heq => hne (List.cons.inj heq).1, hbehind⟩, hback]
      exact ih (Nat.le_of_succ_le hm) (Nat.lt_of_succ_lt_succ hfuel)

/-- **What `basename` returns**: the address behind the last `/`, unless that is the first
character. -/
theorem basename_eq (h : HoldsString s.memory string (before ++ 0x2F :: name))
    (hname : 0x2F ∉ name)
    (hroom : string.toNat + (before.length + 1 + name.length) < 2 ^ (8 * size))
    {fuel : Nat} (hfuel : before.length + name.length + 1 < fuel) :
    basename fuel string s =
      .ok (if before = [] then string else string + BitVec.ofNat _ (before.length + 1)) s := by
  have hlength : (before ++ 0x2F :: name).length = before.length + (name.length + 1) := by
    rw [List.length_append, List.length_cons]
  have hend : findEnd fuel string s = _ := findEnd_eq h (by omega)
  have hslash : findSlash string fuel _ s = _ :=
    findSlash_eq h hname hroom (Nat.le_refl _) (by omega)
  rw [hlength] at hend
  unfold basename
  rw [run_bind hend, run_bind hslash]
  by_cases hbefore : before = []
  · subst hbefore
    have hzero : string + BitVec.ofNat _ ([] : Bytes).length = string := BitVec.add_zero string
    rw [if_pos rfl, hzero, if_neg (not_not.mpr rfl)]
    rfl
  · have hlen : before.length ≠ 0 := fun hzero => hbefore (List.length_eq_zero_iff.mp hzero)
    have hne : string + BitVec.ofNat _ before.length ≠ string := by
      intro heq
      have heq := congrArg BitVec.toNat heq
      rw [plus_toNat (by omega)] at heq
      omega
    rw [if_neg hbefore, if_pos hne]
    exact congrArg (EStateM.Result.ok · s) (AddressSpace.add_offset string before.length 1)

/-- **`basename` returns the name of an absolute path**, which the kernel reads there, where the
path has a `/` that is not its first character. -/
theorem basename_right_iff (h : HoldsString s.memory string path)
    (habsolute : path.head? = some 0x2F)
    (hroom : string.toNat + path.length < 2 ^ (8 * size)) {fuel : Nat}
    (hfuel : path.length < fuel) :
    (∃ a, basename fuel string s = .ok a s ∧ s.memory.string a = some (lastName path)) ↔
      0x2F ∈ path.tail := by
  obtain ⟨before, hpath, hname⟩ := exists_lastName habsolute
  rw [mem_tail_iff hpath hname habsolute]
  have hlength : path.length = before.length + ((lastName path).length + 1) := by
    conv_lhs => rw [hpath]
    rw [List.length_append, List.length_cons]
  have hholds : HoldsString s.memory string (before ++ 0x2F :: lastName path) := hpath ▸ h
  have hbase : basename fuel string s = _ := basename_eq hholds hname (by omega) (by omega)
  constructor
  · rintro ⟨a, hrun, hstring⟩ rfl
    rw [hbase, if_pos rfl] at hrun
    obtain rfl := (EStateM.Result.ok.inj hrun).1
    rw [LoaderMemory.string, h.stringAt (by omega)] at hstring
    have heq := congrArg List.length (Option.some.inj hstring)
    omega
  · intro hbefore
    refine ⟨_, hbase, ?_⟩
    have hsplit : before ++ 0x2F :: lastName path = (before ++ [0x2F]) ++ lastName path := by
      rw [List.append_assoc, List.singleton_append]
    rw [hsplit] at hholds
    have hrest := hholds.drop
    rw [List.length_append, List.length_singleton] at hrest
    rw [if_neg hbefore, LoaderMemory.string]
    exact hrest.stringAt (by omega)

/-- A loader with a string at address 0x1000. -/
def withString (string : Bytes) : LoaderState 8 :=
  .initial ⟨fun a => if 0x1000 ≤ a.toNat then (string ++ [0])[a.toNat - 0x1000]? else none,
    fun _ => 1⟩

/-- `/b/sh`. -/
def deepPath : Bytes := [0x2F, 0x62, 0x2F, 0x73, 0x68]

/-- `/sh`. -/
def rootPath : Bytes := [0x2F, 0x73, 0x68]

theorem basename_of_deepPath : ∃ a,
    basename 6 0x1000 (withString deepPath) = .ok a (withString deepPath) ∧
      (withString deepPath).memory.string a = some (lastName deepPath) :=
  (@basename_right_iff 8 (withString deepPath) 0x1000 deepPath (by decide) (by decide) (by decide)
    6 (by decide)).mpr (by decide)

/-- The name of `/sh` is said to be `/sh`. -/
theorem basename_of_rootPath : ¬ ∀ (s : LoaderState 8) (string : Word 8) (path : Bytes)
    (fuel : Nat),
    HoldsString s.memory string path → path.head? = some 0x2F →
      string.toNat + path.length < 2 ^ (8 * 8) → path.length < fuel →
        ∃ a, basename fuel string s = .ok a s ∧ s.memory.string a = some (lastName path) := by
  intro h
  obtain ⟨a, hrun, hname⟩ :=
    h (withString rootPath) 0x1000 rootPath 4 (by decide) (by decide) (by decide) (by decide)
  have hbase : basename 4 0x1000 (withString rootPath) = .ok 0x1000 (withString rootPath) :=
    @basename_eq 8 (withString rootPath) 0x1000 [] [0x73, 0x68] (by decide) (by decide) (by decide)
      4 (by decide)
  rw [hbase] at hrun
  obtain rfl := (EStateM.Result.ok.inj hrun).1
  have hholds : HoldsString (withString rootPath).memory 0x1000 rootPath := by decide
  rw [LoaderMemory.string, hholds.stringAt (by decide)] at hname
  exact absurd hname (by decide)

end

end Loader

end PRoot
