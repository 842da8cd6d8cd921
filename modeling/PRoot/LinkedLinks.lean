import PRoot.LinkOutcomes

/-!
# Links to symbolic links

`move_and_symlink_path` takes what a symbolic link contains for the path of an intermediate link,
whether the link is one of its own or not.

* `withCount_ne`: a count that goes up is another name;
* `linked_link_changes`: no link to a symbolic link keeps it.
-/

namespace PRoot

variable {α : Type}

/-- What a guest's `readlink` reads at a path: the host's, once `translated_path` has had the
path. -/
def readsAs (fs : Files α) (path : CStr) : Option CStr :=
  (fs.readlink (translatedPath fs path)).toOption

/-- **A symbolic link was linked as one**: its two names read as its target, and what the target
names is as it was. -/
structure KeepsLink (fs fs' : Files α) (path newName target : CStr) : Prop where
  path : readsAs fs' path = some target
  newName : readsAs fs' newName = some target
  target : fs'.get target = fs.get target

/-! ## Names of the emulation -/

theorem format04_negative {n : Int} (h : n < 0) :
    format04 n = '-' :: (Nat.toDigits 10 n.natAbs).leftpad 3 '0' := if_pos h

/-- What `strtol` reads of a text that begins with a minus. -/
theorem atoi_minus {digits : CStr} (hne : digits ≠ [])
    (hdigit : ∀ c ∈ digits, c.isDigit = true) (hlt : digitsValue digits < 2 ^ 31) :
    atoi ('-' :: digits) = -(digitsValue digits : Int) := by
  have hspace : isSpace '-' = false := by decide
  have htake : digits.takeWhile Char.isDigit = digits := List.takeWhile_eq_self_iff.mpr hdigit
  unfold atoi strtol
  simp only [List.dropWhile_cons, hspace, Bool.false_eq_true, if_false, List.head?_cons, true_or,
    if_true, List.drop_one, List.tail_cons, htake, hne]
  rw [if_neg (by omega), if_neg (by omega), Int.bmod]
  simp only
  split <;> omega

/-- A count of four characters can be read back, also a negative one. -/
theorem atoi_format04_of_length {n : Int} (h : (format04 n).length = 4) :
    atoi (format04 n) = n := by
  by_cases hneg : n < 0
  · rw [format04_negative hneg] at h ⊢
    have hlt : n.natAbs < 10 ^ 3 := by
      rw [List.length_cons, List.length_leftpad] at h
      exact (Nat.length_toDigits_le_iff (by decide) (by decide)).mp (by omega)
    rw [atoi_minus (fun hnil => by rw [hnil] at h; cases h) padded_isDigit
      (by rw [digitsValue_padded]; omega), digitsValue_padded]
    omega
  · obtain ⟨m, rfl⟩ := Int.eq_ofNat_of_zero_le (Int.not_lt.mp hneg)
    change (format04 (m : Int)).length = 4 at h
    rw [format04_eq, List.length_leftpad] at h
    have hlt : m < 10 ^ 4 :=
      (Nat.length_toDigits_le_iff (by decide) (by decide)).mp (show _ ≤ 4 by omega)
    exact atoi_format04 (by omega)

/-- **A final file whose count goes up has another name.** -/
theorem withCount_ne (final : CStr) : withCount final (linkCount final + 1) ≠ final := by
  intro heq
  have hlength := congrArg List.length heq
  have hge : 4 ≤ (format04 (linkCount final + 1)).length := by
    by_cases hneg : linkCount final + 1 < 0
    · rw [format04_negative hneg, List.length_cons, List.length_leftpad]
      omega
    · obtain ⟨m, hm⟩ := Int.eq_ofNat_of_zero_le (Int.not_lt.mp hneg)
      rw [hm]
      rw [format04_eq, List.length_leftpad]
      omega
  unfold withCount at heq hlength
  rw [List.length_append, List.length_take] at hlength
  have hfour : (format04 (linkCount final + 1)).length = 4 := by omega
  have hdrop : final.drop (final.length - 4) = format04 (linkCount final + 1) := by
    have hcut : (final.take (final.length - 4)).length = final.length - 4 := by
      rw [List.length_take]
      omega
    exact (congrArg (List.drop (final.length - 4)) heq).symm.trans (List.drop_left' hcut)
  have hcount := atoi_format04_of_length hfour
  rw [← hdrop] at hcount
  change linkCount final = _ at hcount
  omega

/-- The numbers of intermediate links have three digits, after a zero. -/
theorem intermediateSuffix_le (fs : Files α) (path : CStr) : ∀ n suffix,
    intermediateSuffix fs path n suffix ≤ suffix + n := by
  intro n
  induction n with
  | zero => exact fun suffix => Nat.le_refl suffix
  | succ n ih =>
      intro suffix
      unfold intermediateSuffix
      split
      · exact (ih (suffix + 1)).trans (by omega)
      · omega

theorem format04_zero {n : Nat} (h : n ≤ 999) : ∃ digits, format04 n = '0' :: digits := by
  have hdigits : (Nat.toDigits 10 n).length ≤ 3 :=
    (Nat.length_toDigits_le_iff (by decide) (by decide)).mpr (by omega)
  rw [format04_eq, List.leftpad, show 4 - (Nat.toDigits 10 n).length =
    (3 - (Nat.toDigits 10 n).length) + 1 by omega, List.replicate_succ]
  exact ⟨_, rfl⟩

/-- A number at the end of a name does not make it one of the emulation. -/
theorem isL2s_numbered {path : CStr} {n : Nat} (hn : n ≤ 999) (h : isL2s path = false) :
    isL2s (path ++ format04 n) = false := by
  obtain ⟨digits, hform⟩ := format04_zero hn
  have hbase := @baseName_append path _ (format04_no_slash n)
  refine Bool.eq_false_iff.mpr fun hl2s => ?_
  unfold isL2s at h hl2s
  rw [hbase, List.isPrefixOf_iff_prefix, hform] at hl2s
  rcases List.prefix_or_prefix_of_prefix hl2s (List.prefix_append (baseName path) _) with
    hstart | ⟨rest, hrest⟩
  · rw [List.isPrefixOf_iff_prefix.mpr hstart] at h
    cases h
  · cases rest with
    | nil =>
        rw [List.append_nil] at hrest
        rw [List.isPrefixOf_iff_prefix.mpr (hrest ▸ List.prefix_rfl)] at h
        cases h
    | cons c rest =>
        obtain ⟨end', hend⟩ := hl2s
        rw [← hrest, List.append_assoc, List.append_cancel_left_eq] at hend
        obtain rfl : c = '0' := (List.cons.inj hend).1
        have hmem : '0' ∈ l2sStart := hrest ▸ List.mem_append_right _ List.mem_cons_self
        exact absurd hmem (by decide)

/-! ## A link to a symbolic link -/

/-- **A link to a symbolic link never keeps it**: where the target is not named like a file of the
emulation, the link leads to a new file next to the target afterwards; where it is, what the target
names is changed. -/
theorem linked_link_changes {l2sDirectory : Option CStr} {fs : Files α}
    {path newName target : CStr} {granted : Bool} (hlink : fs.get path = some (.link target))
    (hok : succeeds (moveAndSymlinkPath l2sDirectory path newName granted) fs = true) :
    ¬ KeepsLink fs (after (moveAndSymlinkPath l2sDirectory path newName granted) fs) path newName
      target := by
  obtain ⟨fs', hrun⟩ := exists_ok hok
  rw [after_ok hrun]
  intro hkeeps
  obtain ⟨i, fs1, hstart, hfree, rfl⟩ := moveAndSymlinkPath_inv hrun
  have hother : ∀ {q node}, fs1.get q = some node →
      (fs1.set newName (.link i)).get q = some node := by
    intro q node hq
    rw [Files.get_set, if_neg, hq]
    rintro rfl
    cases hfree.symm.trans hq
  cases hstart with
  | ofFile _ _ hfile _ _ => cases hlink.symm.trans hfile
  | further hname _ hfurther =>
      -- The target is taken for an intermediate link, and the file it leads to is moved.
      obtain rfl := FileNode.link.inj (Option.some.inj (hlink.symm.trans hname))
      obtain ⟨-, final, hfinal, hmove⟩ := furtherLink_inv hfurther
      have hmoved := moveFinal_link hmove
      have hsame := hkeeps.target
      rw [hother hmoved, hfinal] at hsame
      exact withCount_ne final (FileNode.link.inj (Option.some.inj hsame))
  | ofLink target' hname hno hfirst =>
      obtain rfl := FileNode.link.inj (Option.some.inj (hlink.symm.trans hname))
      obtain ⟨hi, hlinked⟩ := firstLink_inv hlink nofun hfirst
      have hread := hkeeps.path
      have hget : (fs1.set newName (.link i)).get path = some (.link i) :=
        hother ((hlinked.get path).trans (if_pos rfl))
      have hsuffix : intermediateSuffix fs target 998 1 ≤ 999 :=
        intermediateSuffix_le fs target 998 1
      have hl2s : isL2s i = false := by
        rw [hi]
        exact isL2s_numbered hsuffix hno
      have htranslated : translatedPath (fs1.set newName (.link i)) path = path := by
        unfold translatedPath
        split
        · rfl
        · rename_i value hvalue
          obtain rfl := FileNode.link.inj
            (Option.some.inj (hget.symm.trans (myReadlink_inv hvalue).1))
          rw [if_neg]
          rintro ⟨-, hyes⟩
          cases hl2s.symm.trans hyes
      unfold readsAs at hread
      rw [htranslated, Files.readlink, hget] at hread
      have hlength := congrArg List.length (hi.symm.trans (Option.some.inj hread))
      rw [newIntermediate, List.length_append] at hlength
      have hform := format04_length_ge (intermediateSuffix fs target 998 1)
      omega

/-- A file, and a link to it. -/
def linkFiles : Files Nat := [("/d/f".toList, .file 1), ("/d/s".toList, .link "/d/f".toList)]

/-- The link to the file gets a second name, and leads to "/d/f0001". -/
theorem linked_link_changed : ¬ KeepsLink linkFiles
    (after (moveAndSymlinkPath none "/d/s".toList "/d/t".toList true) linkFiles) "/d/s".toList
    "/d/t".toList "/d/f".toList :=
  linked_link_changes (by decide) (by decide)

/-- **A symbolic link does not stay one**, nor does its target stay alone: the link to "/d/f" reads
as "/d/f0001" once it has a second name. -/
theorem linked_link_lost : ¬ ∀ (l2sDirectory : Option CStr) (fs : Files Nat)
    (path newName target : CStr) (granted : Bool), fs.get path = some (.link target) →
    isL2s target = false →
    succeeds (moveAndSymlinkPath l2sDirectory path newName granted) fs = true →
    KeepsLink fs (after (moveAndSymlinkPath l2sDirectory path newName granted) fs) path newName
      target := by
  intro h
  have hkeeps := h none linkFiles "/d/s".toList "/d/t".toList "/d/f".toList true
    (by decide) (by decide) (by decide)
  have hreads : readsAs (after (moveAndSymlinkPath none "/d/s".toList "/d/t".toList true)
      linkFiles) "/d/s".toList = some "/d/f0001".toList := by decide
  have hsame := hreads.symm.trans hkeeps.path
  exact absurd (Option.some.inj hsame) (by decide)

end PRoot
