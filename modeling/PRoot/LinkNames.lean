import PRoot.Link2symlink

/-!
# The names of final files

* `linkCount_finalOf`, `withCount_finalOf`: the count in a name, read and written;
* `finalOf_inj`: a final file belongs to one intermediate link;
* `newIntermediate_isL2s`: the files of the emulation are told by their names.
-/

namespace PRoot

/-- The name of the final file that belongs to an intermediate link. -/
def finalOf (intermediate : CStr) (count : Nat) : CStr := intermediate ++ '.' :: format04 count

theorem finalOf_eq (i : CStr) (n : Nat) : finalOf i n = (i ++ ['.']) ++ format04 n :=
  List.append_cons i '.' (format04 n)

variable {i : CStr} {n : Nat}

theorem finalOf_cut (h : (format04 n).length = 4) :
    (finalOf i n).length - 4 = (i ++ ['.']).length := by
  rw [finalOf_eq, List.length_append, h, Nat.add_sub_cancel]

theorem format04_eq (n : Nat) : format04 n = (Nat.toDigits 10 n).leftpad 4 '0' :=
  if_neg (Int.not_lt.mpr (Int.natCast_nonneg n))

/-- Digits, with zeros ahead. -/
theorem padded_isDigit {k : Nat} :
    ∀ c ∈ (Nat.toDigits 10 n).leftpad k '0', c.isDigit = true := by
  intro c hc
  rw [List.leftpad, List.mem_append, List.mem_replicate] at hc
  rcases hc with ⟨-, rfl⟩ | hc
  · decide
  · exact Nat.isDigit_of_mem_toDigits (by decide) (by decide) hc

theorem digitsValue_padded (k n : Nat) : digitsValue ((Nat.toDigits 10 n).leftpad k '0') = n := by
  show Nat.ofDigitChars 10 (List.replicate _ '0' ++ Nat.toDigits 10 n) 0 = n
  rw [Nat.ofDigitChars_append, Nat.ofDigitChars_replicate_zero, Nat.mul_zero,
    Nat.ofDigitChars_ten_toDigits]

theorem format04_isDigit : ∀ c ∈ format04 n, c.isDigit = true := by
  rw [format04_eq]
  exact padded_isDigit

theorem format04_length (h : n ≤ 9999) : (format04 n).length = 4 := by
  have hdigits : (Nat.toDigits 10 n).length ≤ 4 :=
    (Nat.length_toDigits_le_iff (by decide) (by decide)).mpr (by omega)
  rw [format04_eq, List.length_leftpad]
  omega

theorem format04_length_ge (n : Nat) : 4 ≤ (format04 n).length := by
  rw [format04_eq, List.length_leftpad]
  omega

theorem digitsValue_format04 (n : Nat) : digitsValue (format04 n) = n := by
  rw [format04_eq, digitsValue_padded]

/-- What `strtol` reads of a text that begins with a digit. -/
theorem atoi_digits {digits : CStr} (hne : digits ≠ []) (hdigit : ∀ c ∈ digits, c.isDigit = true)
    (hlt : digitsValue digits < 2 ^ 31) : atoi digits = digitsValue digits := by
  cases digits with
  | nil => exact absurd rfl hne
  | cons c digits =>
      have hc := hdigit c List.mem_cons_self
      have hspace : isSpace c = false := by
        by_contra hspace
        rw [Bool.not_eq_false] at hspace
        unfold isSpace at hspace
        simp only [Bool.or_eq_true, decide_eq_true_eq] at hspace
        rcases hspace with ((((rfl | rfl) | rfl) | rfl) | rfl) | rfl <;> cases hc
      have hminus : c ≠ '-' := by
        rintro rfl
        cases hc
      have hplus : c ≠ '+' := by
        rintro rfl
        cases hc
      have htake : (c :: digits).takeWhile Char.isDigit = c :: digits :=
        List.takeWhile_eq_self_iff.mpr hdigit
      unfold atoi strtol
      simp only [List.dropWhile_cons, hspace, Bool.false_eq_true, if_false, List.head?_cons,
        Option.some.injEq, hminus, hplus, or_self, htake, reduceCtorEq]
      rw [if_neg (by omega), if_neg (by omega), Int.bmod]
      simp only
      split <;> omega

/-- **A count can be read back.** -/
theorem atoi_format04 (h : n ≤ 9999) : atoi (format04 n) = n := by
  have hlength := format04_length h
  have hne : format04 n ≠ [] := fun hnil => by
    rw [hnil] at hlength
    cases hlength
  rw [atoi_digits hne format04_isDigit (by rw [digitsValue_format04]; omega), digitsValue_format04]

theorem linkCount_finalOf (h : n ≤ 9999) : linkCount (finalOf i n) = n := by
  rw [linkCount, finalOf_cut (format04_length h), finalOf_eq, List.drop_left, atoi_format04 h]

theorem withCount_finalOf (h : n ≤ 9999) (m : Nat) :
    withCount (finalOf i n) m = finalOf i m := by
  rw [withCount, finalOf_cut (format04_length h), finalOf_eq, List.take_left, finalOf_eq]

theorem finalOf_length (h : n ≤ 9999) :
    (finalOf i n).length = i.length + 5 := by
  simp [finalOf, format04_length h]

/-- A final file belongs to one intermediate link, and has one count. -/
theorem finalOf_inj {j : CStr} {m : Nat} (hn : n ≤ 9999) (hm : m ≤ 9999)
    (h : finalOf i n = finalOf j m) : i = j ∧ n = m := by
  have hcount := linkCount_finalOf (i := i) hn
  rw [h, linkCount_finalOf hm] at hcount
  have hnm : n = m := by omega
  subst hnm
  exact ⟨List.append_cancel_right h, rfl⟩

theorem finalOf_ne : finalOf i n ≠ i := by
  intro h
  have hlength := congrArg List.length h
  rw [finalOf, List.length_append, List.length_cons] at hlength
  omega

/-! ## The names of files -/

variable {path : CStr}

theorem baseName_append {word : CStr} (h : '/' ∉ word) :
    baseName (path ++ word) = baseName path ++ word := by
  unfold baseName
  rw [List.reverse_append, List.takeWhile_append_of_pos, List.reverse_append, List.reverse_reverse]
  intro c hc
  have hc := List.mem_reverse.mp hc
  exact decide_eq_true fun hslash => h (hslash ▸ hc)

theorem baseName_slash {directory name : CStr} (h : '/' ∉ name) :
    baseName (directory ++ '/' :: name) = name := by
  rw [List.append_cons, baseName_append h]
  unfold baseName
  rw [List.reverse_append]
  rfl

/-- A path is its directory and its name. -/
theorem directory_eq (path : CStr) :
    ∃ directory, path = directory ++ baseName path ∧
      (directory = [] ∨ ∃ parent, directory = parent ++ ['/']) := by
  have hsplit := congrArg List.reverse (List.takeWhile_append_dropWhile
    (p := fun c => decide (c ≠ '/')) (l := path.reverse))
  rw [List.reverse_append, List.reverse_reverse] at hsplit
  refine ⟨_, hsplit.symm, ?_⟩
  cases hrest : path.reverse.dropWhile fun c => decide (c ≠ '/') with
  | nil => exact Or.inl rfl
  | cons c rest =>
      have hc := List.head_dropWhile_not (fun c => decide (c ≠ '/')) (l := path.reverse)
        (by rw [hrest]; exact List.cons_ne_nil _ _)
      simp only [hrest, List.head_cons, decide_eq_false_iff_not, not_not] at hc
      exact Or.inr ⟨rest.reverse, by rw [List.reverse_cons, hc]⟩

theorem baseName_no_slash (path : CStr) : '/' ∉ baseName path := by
  intro h
  have hc := List.mem_takeWhile_imp (List.mem_reverse.mp h)
  exact of_decide_eq_true hc rfl

/-! ## The files of the emulation -/

theorem isL2s_append {word : CStr} (h : '/' ∉ word) (hpath : isL2s path = true) :
    isL2s (path ++ word) = true := by
  unfold isL2s at hpath ⊢
  rw [baseName_append h]
  rw [List.isPrefixOf_iff_prefix] at hpath ⊢
  exact hpath.trans (List.prefix_append _ _)

theorem format04_no_slash (n : Nat) : '/' ∉ format04 n := by
  intro h
  cases format04_isDigit _ h

theorem finalOf_isL2s (h : isL2s i = true) (n : Nat) : isL2s (finalOf i n) = true := by
  refine isL2s_append ?_ h
  rw [List.mem_cons]
  rintro (hdot | hdigit)
  · cases hdot
  · exact format04_no_slash n hdigit

/-- The name at the end of a path that is put together of a directory and a name. -/
theorem baseName_of_directory {directory name : CStr}
    (h : directory = [] ∨ ∃ parent, directory = parent ++ ['/']) (hname : '/' ∉ name) :
    baseName (directory ++ name) = name := by
  rcases h with rfl | ⟨parent, rfl⟩
  · have hbase := @baseName_append [] _ hname
    rwa [List.nil_append] at hbase ⊢
  · rw [List.append_assoc]
    exact baseName_slash hname

/-- **The intermediate link of a file** is in some directory, under the name of the file behind
`PREFIX`. -/
theorem intermediatePath_eq {l2sDirectory : Option CStr} {original : CStr}
    (h : intermediatePath l2sDirectory original = .ok path) :
    ∃ directory, path = directory ++ (l2sStart ++ baseName original) ∧
      (directory = [] ∨ ∃ parent, directory = parent ++ ['/']) := by
  have hbesides : ∀ {path}, intermediatePath.besides (baseName original)
      (original.take (original.length - (baseName original).length)) = .ok path →
      ∃ directory, path = directory ++ (l2sStart ++ baseName original) ∧
        (directory = [] ∨ ∃ parent, directory = parent ++ ['/']) := by
    intro path h
    unfold intermediatePath.besides at h
    split at h
    · cases h
    · obtain rfl := Except.ok.inj h
      obtain ⟨directory, heq, hdirectory⟩ := directory_eq original
      have htake : original.take (original.length - (baseName original).length) = directory := by
        have hlength := congrArg List.length heq
        rw [List.length_append] at hlength
        have hcut : original.length - (baseName original).length = directory.length := by omega
        rw [hcut]
        conv_lhs => rw [heq, List.take_left]
      rw [htake]
      exact ⟨directory, List.append_assoc _ _ _, hdirectory⟩
  unfold intermediatePath at h
  simp only at h
  split at h
  · split at h
    · exact hbesides h
    · split at h
      · cases h
      · obtain rfl := Except.ok.inj h
        refine ⟨_, List.append_assoc _ _ _, ?_⟩
        split
        · rename_i hlast
          obtain ⟨parent, hparent⟩ := List.getLast?_eq_some_iff.mp hlast
          exact Or.inr ⟨parent, hparent⟩
        · exact Or.inr ⟨_, rfl⟩
  · exact hbesides h

theorem l2s_no_slash (original : CStr) : '/' ∉ l2sStart ++ baseName original := by
  rw [List.mem_append, not_or]
  exact ⟨by decide, baseName_no_slash original⟩

theorem intermediatePath_isL2s {l2sDirectory : Option CStr} {original : CStr}
    (h : intermediatePath l2sDirectory original = .ok path) : isL2s path = true := by
  obtain ⟨directory, rfl, hdirectory⟩ := intermediatePath_eq h
  rw [isL2s, baseName_of_directory hdirectory (l2s_no_slash original), List.isPrefixOf_iff_prefix]
  exact List.prefix_append _ _

/-- A file is not where its intermediate link and its final file are put. -/
theorem intermediatePath_ne {l2sDirectory : Option CStr} {original word : CStr}
    (h : intermediatePath l2sDirectory original = .ok path) (hword : '/' ∉ word) :
    original ≠ path ++ word := by
  obtain ⟨directory, rfl, hdirectory⟩ := intermediatePath_eq h
  intro heq
  have hbase := congrArg baseName heq
  rw [baseName_append hword, baseName_of_directory hdirectory (l2s_no_slash original)] at hbase
  have hlength := congrArg List.length hbase
  rw [List.length_append, List.length_append] at hlength
  have hstart : l2sStart.length = 5 := rfl
  omega

theorem newIntermediate_isL2s {α : Type} (fs : Files α) (h : isL2s path = true) :
    isL2s (newIntermediate fs path) = true :=
  isL2s_append (format04_no_slash _) h

/-! ## What the host takes -/

theorem fits_finalOf {m : Nat} (hn : n ≤ 9999) (hm : m ≤ 9999) (h : fits (finalOf i n) = true) :
    fits (finalOf i m) = true := by
  have hslash : ∀ k : Nat, '/' ∉ '.' :: format04 k := fun k hmem => by
    rcases List.mem_cons.mp hmem with hdot | hdigit
    · cases hdot
    · exact format04_no_slash k hdigit
  unfold fits at h ⊢
  rw [finalOf_length hn] at h
  rw [finalOf_length hm]
  unfold finalOf at h ⊢
  rw [baseName_append (hslash n), List.length_append, List.length_cons, format04_length hn] at h
  rw [baseName_append (hslash m), List.length_append, List.length_cons, format04_length hm]
  exact h

/-- Where the name of a final file fits, that of its intermediate link does. -/
theorem fits_of_finalOf (hn : n ≤ 9999) (h : fits (finalOf i n) = true) :
    fits i = true := by
  have hslash : '/' ∉ '.' :: format04 n := fun hmem => by
    rcases List.mem_cons.mp hmem with hdot | hdigit
    · cases hdot
    · exact format04_no_slash n hdigit
  unfold fits at h ⊢
  rw [finalOf_length hn] at h
  unfold finalOf at h
  rw [baseName_append hslash, List.length_append, Bool.and_eq_true, decide_eq_true_iff,
    decide_eq_true_iff] at h
  rw [Bool.and_eq_true, decide_eq_true_iff, decide_eq_true_iff]
  omega

end PRoot
