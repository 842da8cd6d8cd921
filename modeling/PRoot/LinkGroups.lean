import PRoot.HardLinks
import PRoot.LinkNames

/-!
# The files behind emulated hard links

The files of the host, read as names and inodes: an intermediate link is an inode, whose
count is in the name of the final file, and a name of it is a symbolic link to it.

* `Tidy`: the emulation's own files are intermediate links and final files, in pairs;
* `tidy_change`: what a change of one pair changes.
-/

namespace PRoot

variable {α : Type}

/-- **The hard links that are emulated.** -/
def hardLinks (fs : Files α) : HardLinks CStr CStr α where
  names path :=
    match fs.get path with
    | some (.link target) => if isL2s path = false ∧ isL2s target = true then some target else none
    | _ => none
  inode i :=
    if isL2s i then
      match fs.get i with
      | some (.link final) =>
          match fs.get final with
          | some (.file data) => some ((linkCount final).toNat, data)
          | _ => none
      | _ => none
    else none

/-- An intermediate link, its final file with a count, and the data of that. -/
structure Group (fs : Files α) (i : CStr) (n : Nat) (d : α) : Prop where
  isL2s : isL2s i = true
  link : fs.get i = some (.link (finalOf i n))
  file : fs.get (finalOf i n) = some (.file d)
  pos : 1 ≤ n
  le : n ≤ 9999
  fits : fits (finalOf i n) = true

/-- **The emulation's own files are in order**: each is an intermediate link or its final
file. -/
def Tidy (fs : Files α) : Prop := ∀ q node, isL2s q = true → fs.get q = some node →
  ∃ i n d, Group fs i n d ∧ (q = i ∨ q = finalOf i n)

/-- **The hard links are sound**: their files are in order, and the counts are kept. -/
structure LinksSound (fs : Files α) : Prop where
  tidy : Tidy fs
  counts : (hardLinks fs).CountsKept

section

variable {fs : Files α} {i : CStr} {n : Nat} {d : α}

theorem names_eq_some_iff {path : CStr} : (hardLinks fs).names path = some i ↔
    isL2s path = false ∧ isL2s i = true ∧ fs.get path = some (.link i) := by
  unfold hardLinks
  simp only
  split
  · rename_i target htarget
    rw [htarget]
    split
    · rename_i h
      constructor
      · intro heq
        obtain rfl := Option.some.inj heq
        exact ⟨h.1, h.2, rfl⟩
      · rintro ⟨-, -, heq⟩
        exact congrArg some (FileNode.link.inj (Option.some.inj heq))
    · rename_i h
      constructor
      · intro heq
        cases heq
      · rintro ⟨hguest, hl2s, heq⟩
        obtain rfl := FileNode.link.inj (Option.some.inj heq)
        exact absurd ⟨hguest, hl2s⟩ h
  · rename_i hno
    constructor
    · intro heq
      cases heq
    · rintro ⟨-, -, heq⟩
      exact absurd heq (hno i)

/-- Only what is found at a path decides what it is a name of. -/
theorem names_congr {fs' : Files α} {path path' : CStr} (hget : fs'.get path' = fs.get path)
    (hl2s : isL2s path' = isL2s path) : (hardLinks fs').names path' = (hardLinks fs).names path := by
  unfold hardLinks
  simp only
  rw [hget, hl2s]

theorem names_of_isL2s {path : CStr} (h : isL2s path = true) :
    (hardLinks fs).names path = none := by
  refine Option.eq_none_iff_forall_ne_some.mpr fun i hi => ?_
  rw [(names_eq_some_iff.mp hi).1] at h
  cases h

theorem Group.inode (h : Group fs i n d) : (hardLinks fs).inode i = some (n, d) := by
  unfold hardLinks
  simp only
  rw [if_pos h.isL2s, h.link]
  simp only
  rw [h.file]
  simp only
  rw [linkCount_finalOf h.le, Int.toNat_natCast]

/-- An inode is an intermediate link with its final file. -/
theorem Tidy.group (hT : Tidy fs) (h : (hardLinks fs).inode i = some (n, d)) : Group fs i n d := by
  have hi : isL2s i = true ∧ ∃ node, fs.get i = some node := by
    unfold hardLinks at h
    simp only at h
    split at h
    · rename_i hl2s
      cases hget : fs.get i with
      | none =>
          rw [hget] at h
          cases h
      | some node => exact ⟨hl2s, node, rfl⟩
    · cases h
  obtain ⟨hl2s, node, hget⟩ := hi
  obtain ⟨j, m, e, hgroup, rfl | rfl⟩ := hT i node hl2s hget
  · obtain ⟨rfl, rfl⟩ := Prod.mk.inj (Option.some.inj (hgroup.inode.symm.trans h))
    exact hgroup
  · unfold hardLinks at h
    simp only at h
    rw [if_pos hl2s, hgroup.file] at h
    cases h

/-- A name has a pair of files behind it. -/
theorem LinksSound.group (h : LinksSound fs) {path : CStr}
    (hname : (hardLinks fs).names path = some i) :
    ∃ n d, Group fs i n d ∧ (hardLinks fs).inode i = some (n, d) := by
  obtain ⟨n, d, hi⟩ := h.counts.named hname
  exact ⟨n, d, h.tidy.group hi, hi⟩

end

/-! ## One pair changes -/

section

variable {fs fs' : Files α} {i : CStr}

/-- A pair of files that may be there. -/
def HoldsPair (fs : Files α) (i : CStr) : Option (Nat × α) → Prop
  | some file => Group fs i file.1 file.2
  | none => fs.get i = none

/-- The files of a pair that may be there. -/
def InPair (i : CStr) (file : Option (Nat × α)) (q : CStr) : Prop :=
  q = i ∨ ∃ n d, file = some (n, d) ∧ q = finalOf i n

/-- One pair of files gives way to another one for the same names. -/
structure PairChange (fs fs' : Files α) (i : CStr) (file file' : Option (Nat × α)) : Prop where
  holds : HoldsPair fs i file
  holds' : HoldsPair fs' i file'
  /-- No other file was where the new pair is, ... -/
  free : ∀ q, InPair i file' q → ¬ InPair i file q → fs.get q = none
  /-- ... nothing is left of the old pair, ... -/
  gone : ∀ q, InPair i file q → ¬ InPair i file' q → fs'.get q = none
  /-- ... and the other files of the emulation are as they were. -/
  same : ∀ q, isL2s q = true → ¬ InPair i file q → ¬ InPair i file' q → fs'.get q = fs.get q

theorem PairChange.symm {file file' : Option (Nat × α)} (h : PairChange fs fs' i file file') :
    PairChange fs' fs i file' file :=
  ⟨h.holds', h.holds, h.gone, h.free, fun q hq h1 h2 => (h.same q hq h2 h1).symm⟩

theorem InPair.link_or_file {file : Option (Nat × α)} (h : HoldsPair fs i file) {q : CStr}
    (hq : InPair i file q) (hne : q ≠ i) : ∃ d, fs.get q = some (.file d) := by
  rcases hq with rfl | ⟨n, d, rfl, rfl⟩
  · exact absurd rfl hne
  · exact ⟨d, Group.file h⟩

theorem HoldsPair.not_file {file : Option (Nat × α)} (h : HoldsPair fs i file) {d : α} :
    fs.get i ≠ some (.file d) := by
  intro hfile
  cases file with
  | none =>
      have hnone : fs.get i = none := h
      rw [hnone] at hfile
      cases hfile
  | some file =>
      rw [Group.link h] at hfile
      cases hfile

/-- The other pairs stay. -/
theorem PairChange.group {file file' : Option (Nat × α)} (h : PairChange fs fs' i file file')
    {j : CStr} {n : Nat} {d : α} (hji : j ≠ i) (hg : Group fs j n d) : Group fs' j n d := by
  have hout : ∀ {o : Option (Nat × α)}, HoldsPair fs i file → (∀ q, InPair i o q →
      InPair i file q ∨ fs.get q = none) → (∀ m e, o = some (m, e) → m ≤ 9999) →
      ¬ InPair i o j ∧ ¬ InPair i o (finalOf j n) := by
    intro o hholds hin hle
    constructor
    · intro hj
      rcases hin j hj with hold | hnone
      · obtain ⟨e, he⟩ := hold.link_or_file hholds hji
        rw [hg.link] at he
        cases he
      · rw [hg.link] at hnone
        cases hnone
    · rintro (hfinal | ⟨m, e, ho, hfinal⟩)
      · have hfile := hg.file
        rw [hfinal] at hfile
        exact hholds.not_file hfile
      · exact hji (finalOf_inj hg.le (hle m e ho) hfinal).1
  have hle : ∀ {fs : Files α} {o : Option (Nat × α)}, HoldsPair fs i o →
      ∀ m e, o = some (m, e) → m ≤ 9999 := by
    rintro fs o hholds m e rfl
    exact Group.le hholds
  obtain ⟨hj, hf⟩ := hout h.holds (fun q hq => Or.inl hq) (hle h.holds)
  obtain ⟨hj', hf'⟩ := hout (o := file') h.holds (fun q hq => by
    by_cases hold : InPair i file q
    · exact Or.inl hold
    · exact Or.inr (h.free q hq hold)) (hle h.holds')
  exact ⟨hg.isL2s, (h.same j hg.isL2s hj hj').trans hg.link,
    (h.same _ (finalOf_isL2s hg.isL2s n) hf hf').trans hg.file, hg.pos, hg.le, hg.fits⟩

/-- **What a change of one pair changes.** -/
theorem PairChange.spec {file file' : Option (Nat × α)} (h : PairChange fs fs' i file file')
    (hi : isL2s i = true) (hT : Tidy fs) :
    Tidy fs' ∧ (hardLinks fs').inode = Function.update (hardLinks fs).inode i file' := by
  have hinode : ∀ {fs : Files α} {o : Option (Nat × α)}, HoldsPair fs i o →
      (hardLinks fs).inode i = o := by
    intro fs o hholds
    cases o with
    | none =>
        have hnone : fs.get i = none := hholds
        unfold hardLinks
        simp only
        rw [if_pos hi, hnone]
    | some file => exact Group.inode hholds
  have hT' : Tidy fs' := by
    intro q node hq hget
    by_cases hin' : InPair i file' q
    · cases file' with
      | none =>
          rcases hin' with rfl | ⟨n, d, hnone, -⟩
          · have hnone : fs'.get q = none := h.holds'
            rw [hnone] at hget
            cases hget
          · cases hnone
      | some file' =>
          refine ⟨i, file'.1, file'.2, h.holds', ?_⟩
          rcases hin' with rfl | ⟨n, d, heq, rfl⟩
          · exact Or.inl rfl
          · obtain rfl := Option.some.inj heq
            exact Or.inr rfl
    · by_cases hin : InPair i file q
      · rw [h.gone q hin hin'] at hget
        cases hget
      · rw [h.same q hq hin hin'] at hget
        obtain ⟨j, n, d, hg, hqj⟩ := hT q node hq hget
        have hji : j ≠ i := by
          rintro rfl
          have hfile : file = some (n, d) := (hinode h.holds).symm.trans hg.inode
          rcases hqj with rfl | rfl
          · exact hin (Or.inl rfl)
          · exact hin (Or.inr ⟨n, d, hfile, rfl⟩)
        exact ⟨j, n, d, h.group hji hg, hqj⟩
  refine ⟨hT', funext fun j => ?_⟩
  by_cases hji : j = i
  · rw [hji, Function.update_self, hinode h.holds']
  · rw [Function.update_of_ne hji]
    refine Option.ext fun file => ?_
    constructor
    · intro hj
      exact (h.symm.group hji (hT'.group hj)).inode
    · intro hj
      exact (h.group hji (hT.group hj)).inode

end

end PRoot
