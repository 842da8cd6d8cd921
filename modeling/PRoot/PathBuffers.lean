import Mathlib.Data.List.ReduceOption
import Mathlib.Logic.Function.Basic
import PRoot.Startup

/-!
# Path strings in their buffers

The functions of `path/path.c` on strings, with each access to a buffer checked.

* `comparePaths2Read`: `compare_paths2`, which fails if it reads outside a string;
* `comparePaths2_components`: it does not, and compares lists of components;
* `joinPathsIn`: `join_paths` in a buffer, which fails if it writes outside;
* `join_right_iff`: it does not, and joins, but for a result that just fits;
* `chopFinality_iff`: what `chop_finality` removes is a final marker, but for a
  final '.' of a name.
-/

namespace PRoot

open SepPath

/-! ## Reading -/

/-- The character of a string at an index: its terminator is `none`, there is
nothing to be read behind it. -/
def charAt (s : CStr) (i : Nat) : Option (Option Char) := if i ≤ s.length then some s[i]? else none

/-- `strncmp (s, t, n) == 0`, from an index on. -/
def strncmpZero (s t : CStr) : Nat → Nat → Option Bool
  | 0, _ => some true
  | n + 1, i => do
      let a ← charAt s i
      let b ← charAt t i
      if a ≠ b then some false
      else if a = none then some true
      else strncmpZero s t n (i + 1)

/-- `compare_paths2`, with its reads. -/
def comparePaths2Read (path1 : CStr) (length1 : Nat) (path2 : CStr) (length2 : Nat) :
    Option Comparison :=
  if length1 = 0 ∨ length2 = 0 then some .pathsAreNotComparable
  else do
    let last1 ← charAt path1 (length1 - 1)
    let length1 := if last1 = some '/' then length1 - 1 else length1
    let last2 ← charAt path2 (length2 - 1)
    let length2 := if last2 = some '/' then length2 - 1 else length2
    let lengthMin := if length1 < length2 then length1 else length2
    let sentinel ← charAt (if length1 < length2 then path2 else path1) lengthMin
    if sentinel ≠ some '/' ∧ sentinel ≠ none then some .pathsAreNotComparable
    else
      let isPrefix ← strncmpZero path1 path2 lengthMin 0
      if !isPrefix then some .pathsAreNotComparable
      else if length1 = length2 then some .pathsAreEqual
      else if length1 < length2 then some .path1IsPrefix
      else some .path2IsPrefix

theorem charAt_of_le {s : CStr} {i : Nat} (h : i ≤ s.length) : charAt s i = some s[i]? := if_pos h

theorem strncmpZero_eq {s t : CStr} {n i : Nat} (hs : i + n ≤ s.length) (ht : i + n ≤ t.length) :
    strncmpZero s t n i = some (decide ((s.drop i).take n = (t.drop i).take n)) := by
  induction n generalizing i with
  | zero => simp [strncmpZero]
  | succ n ih =>
      have hsi : i < s.length := by omega
      have hti : i < t.length := by omega
      rw [strncmpZero, charAt_of_le (Nat.le_of_lt hsi), charAt_of_le (Nat.le_of_lt hti),
        List.getElem?_eq_getElem hsi, List.getElem?_eq_getElem hti,
        List.drop_eq_getElem_cons hsi, List.drop_eq_getElem_cons hti, List.take_succ_cons,
        List.take_succ_cons]
      show (if some s[i] ≠ some t[i] then some false
        else if some s[i] = none then some true else strncmpZero s t n (i + 1)) = _
      by_cases heq : s[i] = t[i]
      · rw [if_neg (by simp [heq]), if_neg (by simp), ih (by omega) (by omega)]
        simp [heq]
      · rw [if_pos (by simpa using heq)]
        simp [heq]

/-- **No read is outside**, when the lengths are those of the strings. -/
theorem comparePaths2Read_eq (p q : CStr) :
    comparePaths2Read p p.length q q.length = some (comparePaths p q) := by
  unfold comparePaths2Read comparePaths comparePaths2
  by_cases hempty : p.length = 0 ∨ q.length = 0
  · rw [if_pos hempty, if_pos hempty]
  · rw [if_neg hempty, if_neg hempty]
    have hp : p.length - 1 ≤ p.length := Nat.sub_le ..
    have hq : q.length - 1 ≤ q.length := Nat.sub_le ..
    have hstripP := (strip_isLead p).length_le
    have hstripQ := (strip_isLead q).length_le
    simp only [charAt_of_le hp, charAt_of_le hq, Option.bind_eq_bind, Option.bind_some,
      ← strip_length]
    -- the sentinel is in the longer one, the comparison goes up to the shorter one
    generalize hmin : (if (strip p).length < (strip q).length then (strip p).length
      else (strip q).length) = lengthMin
    have hminP : lengthMin ≤ p.length := by
      split at hmin <;> omega
    have hminQ : lengthMin ≤ q.length := by
      split at hmin <;> omega
    have hsentinel : charAt (if (strip p).length < (strip q).length then q else p) lengthMin =
        some (if (strip p).length < (strip q).length then q[lengthMin]? else p[lengthMin]?) := by
      split
      · exact charAt_of_le hminQ
      · exact charAt_of_le hminP
    have hprefix := @strncmpZero_eq p q lengthMin 0 (by omega) (by omega)
    rw [List.drop_zero, List.drop_zero] at hprefix
    rw [hsentinel, Option.bind_some, hprefix, Option.bind_some]
    generalize (if (strip p).length < (strip q).length then q[lengthMin]? else p[lengthMin]?) =
      sentinel
    by_cases htake : p.take lengthMin = q.take lengthMin
    · simp only [htake, decide_true, Bool.not_true, Bool.false_eq_true, if_false, ne_eq,
        not_true_eq_false]
      split
      · rfl
      · split
        · rfl
        · split <;> rfl
    · simp only [htake, decide_false, Bool.not_false, if_true, ne_eq, not_false_eq_true]
      split <;> rfl

/-- Canonical, possibly with a trailing '/'. -/
def CanonicalOrSlash (g p : CStr) : Prop := Canonical g ∧ (p = g ∨ p = withSlash g)

theorem CanonicalOrSlash.strip_eq {g p : CStr} (h : CanonicalOrSlash g p) :
    strip p = flat '/' (comps g) := by
  obtain ⟨hg, rfl | rfl⟩ := h
  · conv_lhs => rw [hg.2]
    exact strip_render (comps_words p)
  · rw [hg.withSlash_eq, strip, if_pos (by simp), List.dropLast_concat]

theorem CanonicalOrSlash.ne_nil {g p : CStr} (h : CanonicalOrSlash g p) : p ≠ [] := by
  obtain ⟨hg, rfl | rfl⟩ := h
  · exact hg.ne_nil
  · rw [hg.withSlash_eq]
    simp

/-- **`compare_paths2` compares lists of components**, on canonical paths with a
trailing '/' or without, and reads nothing else. -/
theorem comparePaths2_components {g h p q : CStr} (hp : CanonicalOrSlash g p)
    (hq : CanonicalOrSlash h q) :
    comparePaths2Read p p.length q q.length = some
      (if comps g = comps h then .pathsAreEqual
      else if comps g <+: comps h then .path1IsPrefix
      else if comps h <+: comps g then .path2IsPrefix
      else .pathsAreNotComparable) := by
  have hwg := comps_words g
  have hwh := comps_words h
  rw [comparePaths2Read_eq, comparePaths_eq hp.ne_nil hq.ne_nil, hp.strip_eq, hq.strip_eq]
  simp only [flat_inj hwg hwh, endsInside_flat_iff hwg hwh, endsInside_flat_iff hwh hwg]
  by_cases heq : comps g = comps h
  · simp only [heq, if_true]
  · simp only [heq, Ne.symm heq, if_false, ne_eq, not_false_eq_true, and_true]

/-- "/bin/" and "/bin/sh", and "/" before both. -/
theorem comparePaths2_components_bin :
    comparePaths2Read "/bin/".toList 5 "/bin/sh".toList 7 = some .path1IsPrefix ∧
      comparePaths2Read "/bin/".toList 5 slash 1 = some .path2IsPrefix := by
  have hbin : CanonicalOrSlash "/bin".toList "/bin/".toList := ⟨by decide, Or.inr (by decide)⟩
  have hsh : CanonicalOrSlash "/bin/sh".toList "/bin/sh".toList := ⟨by decide, Or.inl rfl⟩
  have hroot : CanonicalOrSlash slash slash := ⟨canonical_slash, Or.inl rfl⟩
  refine ⟨(comparePaths2_components hbin hsh).trans (by decide),
    (comparePaths2_components hbin hroot).trans (by decide)⟩

/-! ## Writing -/

/-- The characters of a buffer of `PATH_MAX`, the terminator as `none`. -/
abbrev PathBuffer := Nat → Option Char

/-- A character is stored, if that is inside the buffer. -/
def PathBuffer.store (result : PathBuffer) (i : Nat) (c : Option Char) : Option PathBuffer :=
  if i < pathMax then some (Function.update result i c) else none

/-- The end of the string that is at an index, if it is inside the buffer. -/
def PathBuffer.findEnd (result : PathBuffer) : Nat → Nat → Option Nat
  | 0, _ => none
  | left + 1, i => if result i = none then some i else result.findEnd left (i + 1)

/-- A string is copied to an index, with its terminator. -/
def PathBuffer.copy (result : PathBuffer) (i : Nat) : CStr → Option PathBuffer
  | [] => result.store i none
  | c :: path => do
      let result ← result.store i (some c)
      PathBuffer.copy result (i + 1) path

/-- `strcat (result + offset, path)`. -/
def PathBuffer.strcat (result : PathBuffer) (offset : Nat) (path : CStr) : Option PathBuffer := do
  let i ← result.findEnd (pathMax - offset) offset
  result.copy i path

/-- One round of the loop of `join_paths`: the buffer and the length, or an error. -/
def joinPathIn (result : PathBuffer) (length : Nat) (path : CStr) :
    Option (PathBuffer × Except Errno Nat) :=
  if 0 < length ∧ result (length - 1) ≠ some '/' ∧ path.head? ≠ some '/' then
    let newLength := length + path.length + 1
    if newLength + 1 ≥ pathMax then some (result, .error .ENAMETOOLONG)
    else do
      let result ← result.strcat length ['/']
      let result ← result.strcat length path
      some (result, .ok newLength)
  else if 0 < length ∧ result (length - 1) = some '/' ∧ path.head? = some '/' then
    let newLength := length + path.length - 1
    if newLength + 1 ≥ pathMax then some (result, .error .ENAMETOOLONG)
    else do
      let result ← result.strcat length (path.drop 1)
      some (result, .ok (length + (path.length - 1)))
  else
    let newLength := length + path.length
    if newLength + 1 ≥ pathMax then some (result, .error .ENAMETOOLONG)
    else do
      let result ← result.strcat length path
      some (result, .ok (length + path.length))

/-- The loop of `join_paths`, over paths that may be NULL. -/
def joinPathsLoop (result : PathBuffer) (length : Nat) :
    List (Option CStr) → Option (PathBuffer × Except Errno Unit)
  | [] => some (result, .ok ())
  | none :: paths => joinPathsLoop result length paths
  | some path :: paths => do
      match ← joinPathIn result length path with
      | (result, .error e) => some (result, .error e)
      | (result, .ok length) => joinPathsLoop result length paths

/-- `join_paths`. -/
def joinPathsIn (result : PathBuffer) (paths : List (Option CStr)) :
    Option (PathBuffer × Except Errno Unit) := do
  let result ← result.store 0 none
  joinPathsLoop result 0 paths

/-- The buffer holds a string. -/
structure PathBuffer.Holds (result : PathBuffer) (path : CStr) : Prop where
  fits : path.length < pathMax
  chars : ∀ i (hi : i < path.length), result i = some path[i]
  terminated : result path.length = none

namespace PathBuffer

variable {result : PathBuffer} {path : CStr}

theorem Holds.last (h : result.Holds path) (hne : path ≠ []) :
    result (path.length - 1) = path.getLast? := by
  have hpos := List.length_pos_iff.mpr hne
  rw [List.getLast?_eq_getElem?, List.getElem?_eq_getElem (by omega)]
  exact h.chars _ (by omega)

theorem findEnd_holds (h : result.Holds path) {left i : Nat} (hi : i ≤ path.length)
    (hleft : path.length < i + left) : result.findEnd left i = some path.length := by
  induction left generalizing i with
  | zero => omega
  | succ left ih =>
      rw [findEnd]
      by_cases hend : i = path.length
      · rw [hend, if_pos h.terminated]
      · have hlt : i < path.length := by omega
        rw [h.chars i hlt, if_neg (by simp)]
        exact ih hlt (by omega)

/-- Copying behind the string appends to it. -/
theorem copy_holds {more : CStr} (hchars : ∀ i (hi : i < path.length), result i = some path[i])
    (hfit : path.length + more.length < pathMax) :
    ∃ result', result.copy path.length more = some result' ∧ result'.Holds (path ++ more) := by
  induction more generalizing result path with
  | nil =>
      refine ⟨Function.update result path.length none, if_pos (by simpa using hfit), ?_⟩
      rw [List.append_nil]
      refine ⟨by simpa using hfit, fun i hi => ?_, Function.update_self ..⟩
      rw [Function.update_of_ne (by omega)]
      exact hchars i hi
  | cons c more ih =>
      rw [List.length_cons] at hfit
      have hstored : result.store path.length (some c) =
          some (Function.update result path.length (some c)) := if_pos (by omega)
      have hchars' : ∀ i (hi : i < (path ++ [c]).length),
          Function.update result path.length (some c) i = some (path ++ [c])[i] := by
        intro i hi
        rw [List.length_append, List.length_singleton] at hi
        by_cases hend : i = path.length
        · subst hend
          rw [Function.update_self, List.getElem_concat_length rfl]
        · rw [Function.update_of_ne hend, List.getElem_append_left (by omega)]
          exact hchars i (by omega)
      obtain ⟨result', hcopy, hholds⟩ := ih hchars' (by simp; omega)
      refine ⟨result', ?_, by simpa using hholds⟩
      rw [copy, hstored]
      simpa using hcopy

theorem strcat_holds (h : result.Holds path) {offset : Nat} (hoffset : offset ≤ path.length)
    {more : CStr} (hfit : path.length + more.length < pathMax) :
    ∃ result', result.strcat offset more = some result' ∧ result'.Holds (path ++ more) := by
  obtain ⟨result', hcopy, hholds⟩ := copy_holds h.chars hfit
  refine ⟨result', ?_, hholds⟩
  rw [strcat, findEnd_holds h hoffset (by have := h.fits; omega)]
  exact hcopy

end PathBuffer

/-! ## Joining -/

/-- Two paths with exactly one '/' where they meet, after an empty one nothing. -/
def junction (before after : CStr) : CStr :=
  if before = [] then after
  else strip before ++ '/' :: (if after.head? = some '/' then after.drop 1 else after)

/-- The paths, one after the other. -/
def joined (paths : List (Option CStr)) : CStr := paths.reduceOption.foldl junction []

theorem strip_of_last {p : CStr} (h : p.getLast? = some '/') : strip p ++ ['/'] = p := by
  obtain ⟨init, rfl⟩ := List.getLast?_eq_some_iff.mp h
  rw [strip, if_pos h, List.dropLast_concat]

/-- A round of `join_paths` makes a junction, if it fits. -/
theorem joinPath_eq (result path : CStr) :
    joinPath result path = fitJoin (junction result path) := by
  unfold joinPath junction fitJoin
  by_cases hempty : result = []
  · simp [hempty]
  · by_cases hlast : result.getLast? = some '/'
    · have hstrip := strip_of_last hlast
      have hlength := congrArg List.length hstrip
      rw [List.length_append, List.length_singleton] at hlength
      by_cases hhead : path.head? = some '/'
      · obtain ⟨rest, rfl⟩ : ∃ rest, path = '/' :: rest := by
          cases path with
          | nil => cases hhead
          | cons c rest => exact ⟨rest, by rw [Option.some.inj hhead]⟩
        have heq : strip result ++ '/' :: rest = result ++ rest := by
          rw [← hstrip, List.append_assoc]
          simp [hstrip]
        simp [hempty, hlast, heq]
      · have heq : strip result ++ '/' :: path = result ++ path := by
          conv_rhs => rw [← hstrip]
          simp
        simp [hempty, hlast, hhead, heq]
    · have hstrip : strip result = result := if_neg hlast
      by_cases hhead : path.head? = some '/'
      · obtain ⟨rest, rfl⟩ : ∃ rest, path = '/' :: rest := by
          cases path with
          | nil => cases hhead
          | cons c rest => exact ⟨rest, by rw [Option.some.inj hhead]⟩
        simp [hempty, hlast, hstrip]
      · simp [hempty, hlast, hhead, hstrip, Nat.add_assoc]

theorem junction_length_le (before after : CStr) :
    before.length ≤ (junction before after).length := by
  unfold junction
  split
  · rename_i h
    simp [h]
  · obtain ⟨tail, htail, hor⟩ := eq_strip_append before
    have hlength := congrArg List.length htail
    rw [List.length_append] at hlength
    rw [List.length_append, List.length_cons]
    rcases hor with rfl | rfl
    · simp only [List.length_nil] at hlength
      omega
    · simp only [List.length_singleton] at hlength
      omega

/-- `join_paths` joins all paths, if the result fits. -/
theorem foldlM_joinPath {result : CStr} (hfit : result.length + 1 < pathMax) (paths : List CStr) :
    paths.foldlM joinPath result = fitJoin (paths.foldl junction result) := by
  have hgrow : ∀ (paths : List CStr) (result : CStr),
      result.length ≤ (paths.foldl junction result).length := by
    intro paths
    induction paths with
    | nil => exact fun _ => Nat.le_refl _
    | cons path paths ih =>
        exact fun result => Nat.le_trans (junction_length_le result path) (ih _)
  induction paths generalizing result with
  | nil =>
      show Except.ok result = fitJoin result
      rw [fitJoin, if_neg (by omega)]
  | cons path paths ih =>
      rw [List.foldlM_cons, List.foldl_cons, joinPath_eq]
      by_cases hlong : (junction result path).length + 1 ≥ pathMax
      · have hle := hgrow paths (junction result path)
        rw [fitJoin, if_pos hlong, fitJoin, if_pos (by omega)]
        rfl
      · rw [fitJoin, if_neg hlong]
        exact ih (by omega)

namespace PathBuffer

variable {result : PathBuffer} {r : CStr}

/-- What a round returns says what is in the buffer. -/
def Tells (result : PathBuffer) (status : Except Errno CStr)
    (answer : Option (PathBuffer × Except Errno Nat)) : Prop :=
  match status with
  | .ok r => ∃ result', answer = some (result', .ok r.length) ∧ result'.Holds r
  | .error e => answer = some (result, .error e)

/-- A round in the buffer. -/
theorem joinPathIn_tells (h : result.Holds r) (path : CStr) :
    Tells result (joinPath r path) (joinPathIn result r.length path) := by
  have hlast : r ≠ [] → result (r.length - 1) = r.getLast? := h.last
  have hpos : 0 < r.length ↔ r ≠ [] := List.length_pos_iff
  have hneither : (0 < r.length ∧ result (r.length - 1) ≠ some '/' ∧ path.head? ≠ some '/') ↔
      (r ≠ [] ∧ r.getLast? ≠ some '/' ∧ path.head? ≠ some '/') := by
    rw [hpos]
    exact and_congr_right fun hne => by rw [hlast hne]
  have hboth : (0 < r.length ∧ result (r.length - 1) = some '/' ∧ path.head? = some '/') ↔
      (r ≠ [] ∧ r.getLast? = some '/' ∧ path.head? = some '/') := by
    rw [hpos]
    exact and_congr_right fun hne => by rw [hlast hne]
  unfold joinPathIn joinPath
  simp only [hneither, hboth]
  split
  · split
    · rfl
    · obtain ⟨first, hfirst, hfirstHolds⟩ := strcat_holds h (Nat.le_refl _)
        (show r.length + ['/'].length < pathMax by rw [List.length_singleton]; omega)
      obtain ⟨second, hsecond, hsecondHolds⟩ := strcat_holds hfirstHolds
        (show r.length ≤ (r ++ ['/']).length by simp)
        (show (r ++ ['/']).length + path.length < pathMax by simp; omega)
      rw [List.append_assoc, List.singleton_append] at hsecondHolds
      refine ⟨second, ?_, hsecondHolds⟩
      rw [hfirst, Option.bind_eq_bind, Option.bind_some, hsecond, List.length_append,
        List.length_cons]
      rfl
  · split
    · rename_i hslash
      obtain ⟨-, -, hhead⟩ := hslash
      split
      · rfl
      · obtain ⟨next, hnext, hnextHolds⟩ := strcat_holds h (Nat.le_refl _)
          (show r.length + (path.drop 1).length < pathMax by rw [List.length_drop]; omega)
        refine ⟨next, ?_, hnextHolds⟩
        rw [hnext, List.length_append, List.length_drop]
        rfl
    · split
      · rfl
      · obtain ⟨next, hnext, hnextHolds⟩ := strcat_holds h (Nat.le_refl _)
          (show r.length + path.length < pathMax by omega)
        refine ⟨next, ?_, hnextHolds⟩
        rw [hnext, List.length_append]
        rfl

/-- What all rounds return, likewise. -/
def TellsAll (result : PathBuffer) (status : Except Errno CStr)
    (answer : Option (PathBuffer × Except Errno Unit)) : Prop :=
  match status with
  | .ok r => answer = some (result, .ok ()) ∧ result.Holds r
  | .error e => answer = some (result, .error e)

/-- All rounds in the buffer. -/
theorem joinPathsLoop_tells (paths : List (Option CStr)) {result : PathBuffer} {r : CStr}
    (h : result.Holds r) :
    ∃ result', TellsAll result' (paths.reduceOption.foldlM joinPath r)
      (joinPathsLoop result r.length paths) := by
  induction paths generalizing result r with
  | nil => exact ⟨result, show _ ∧ _ from ⟨rfl, h⟩⟩
  | cons path paths ih =>
      cases path with
      | none => exact ih h
      | some path =>
          have htells := joinPathIn_tells h path
          rw [List.reduceOption_cons_of_some, List.foldlM_cons, joinPathsLoop]
          cases hstatus : joinPath r path with
          | error e =>
              rw [hstatus] at htells
              have htells : joinPathIn result r.length path = some (result, .error e) := htells
              rw [htells]
              exact ⟨result, rfl⟩
          | ok r' =>
              rw [hstatus] at htells
              obtain ⟨next, hnext, hholds⟩ := htells
              rw [hnext]
              exact ih hholds

end PathBuffer

/-- `join_paths` joins the paths, whatever was in the buffer, and refuses what
does not fit with its terminator. -/
def JoinsRight (result : PathBuffer) (paths : List (Option CStr)) : Prop :=
  ∃ result' status, joinPathsIn result paths = some (result', status) ∧
    if (joined paths).length + 1 ≤ pathMax then status = .ok () ∧ result'.Holds (joined paths)
    else status = .error .ENAMETOOLONG

/-- **`join_paths`** never writes outside its buffer, -/
theorem joinPathsIn_fits (result : PathBuffer) (paths : List (Option CStr)) :
    ∃ result' status, joinPathsIn result paths = some (result', status) ∧
      if (joined paths).length + 1 < pathMax then status = .ok () ∧ result'.Holds (joined paths)
      else status = .error .ENAMETOOLONG := by
  have hempty : PathBuffer.Holds (Function.update result 0 none) [] :=
    ⟨by decide, fun i hi => absurd hi (Nat.not_lt_zero i), Function.update_self ..⟩
  obtain ⟨result', htells⟩ := PathBuffer.joinPathsLoop_tells paths hempty
  have hstart : joinPathsIn result paths =
      joinPathsLoop (Function.update result 0 none) 0 paths := by
    rw [joinPathsIn, PathBuffer.store, if_pos (by decide)]
    rfl
  rw [hstart]
  have hjoined : paths.reduceOption.foldlM joinPath [] = fitJoin (joined paths) :=
    foldlM_joinPath (by decide) _
  rw [hjoined] at htells
  by_cases hfit : (joined paths).length + 1 < pathMax
  · rw [fitJoin, if_neg (Nat.not_le.mpr hfit)] at htells
    exact ⟨result', .ok (), htells.1, by rw [if_pos hfit]; exact ⟨rfl, htells.2⟩⟩
  · rw [fitJoin, if_pos (Nat.not_lt.mp hfit)] at htells
    exact ⟨result', .error .ENAMETOOLONG, htells, by rw [if_neg hfit]⟩

/-- and **joins the paths or refuses to** as it should, but for a result that just fits. -/
theorem join_right_iff (result : PathBuffer) (paths : List (Option CStr)) :
    JoinsRight result paths ↔ (joined paths).length + 1 ≠ pathMax := by
  obtain ⟨result', status, hjoin, hstatus⟩ := joinPathsIn_fits result paths
  unfold JoinsRight
  rw [hjoin]
  by_cases hlt : (joined paths).length + 1 < pathMax
  · rw [if_pos hlt] at hstatus
    refine ⟨fun _ => by omega, fun _ => ⟨result', status, rfl, ?_⟩⟩
    rw [if_pos (Nat.le_of_lt hlt)]
    exact hstatus
  · rw [if_neg hlt] at hstatus
    by_cases heq : (joined paths).length + 1 = pathMax
    · refine ⟨?_, fun hne => absurd heq hne⟩
      rintro ⟨_, _, hsame, hright⟩
      obtain ⟨rfl, rfl⟩ := Prod.mk.inj (Option.some.inj hsame)
      rw [if_pos (Nat.le_of_eq heq), hstatus] at hright
      cases hright.1
    · refine ⟨fun _ => heq, fun _ => ⟨result', status, rfl, ?_⟩⟩
      rw [if_neg (by omega)]
      exact hstatus

/-- A path of 4095 characters, which fits, is refused. -/
theorem join_refuses_longest :
    let longest : CStr := '/' :: List.replicate 4094 'a'
    joined [some longest] = longest ∧ longest.length + 1 = pathMax ∧
      ∀ result, ¬ JoinsRight result [some longest] := by
  intro longest
  have hlength : longest.length + 1 = pathMax := by
    rw [List.length_cons, List.length_replicate]
    rfl
  have hjoined : joined [some longest] = longest := rfl
  refine ⟨hjoined, hlength, fun result hright => ?_⟩
  exact (join_right_iff result _).mp hright (by rw [hjoined, hlength])

/-! ## Chopping -/

/-- A path without a final '/' or "/.", "/" as it is. -/
def chopped (path : CStr) : CStr :=
  if path = slash then path
  else if ['/', '.'] <:+ path then if path = ['/', '.'] then slash else path.dropLast.dropLast
  else if path.getLast? = some '/' then path.dropLast
  else path

/-- **`chop_finality` removes a final marker** and nothing else, but for the final '.' of a name. -/
theorem chopFinality_iff (path : CStr) : chopFinality path = chopped path ↔ ChopsRight path := by
  unfold chopFinality chopped ChopsRight
  by_cases hdot : path.getLast? = some '.'
  · obtain ⟨init, rfl⟩ := List.getLast?_eq_some_iff.mp hdot
    have hslash : init ++ ['.'] ≠ slash := by
      intro heq
      rw [heq] at hdot
      exact absurd hdot (by decide)
    rw [if_pos hdot, if_neg hslash]
    by_cases hmarker : ['/', '.'] <:+ init ++ ['.']
    · rw [if_pos hmarker]
      obtain ⟨before, hbefore⟩ := hmarker
      obtain rfl : init = before ++ ['/'] := by
        have hsplit : before ++ ['/'] ++ ['.'] = init ++ ['.'] := by simpa using hbefore
        exact (List.append_inj_left' hsplit rfl).symm
      refine ⟨fun _ _ => ⟨before, by simp⟩, fun _ => ?_⟩
      cases before with
      | nil => rfl
      | cons c before =>
          have htwo : (c :: before ++ ['/'] ++ ['.']).length ≠ 2 := by simp
          have hne : c :: before ++ ['/'] ++ ['.'] ≠ ['/', '.'] := by
            intro heq
            rw [heq] at htwo
            exact htwo rfl
          rw [if_neg htwo, if_neg hne, List.dropLast_concat, List.dropLast_concat]
          simp
    · rw [if_neg hmarker, hdot]
      refine ⟨fun heq => ?_, fun h => absurd (h rfl) hmarker⟩
      have hlengths := congrArg List.length heq
      rw [if_neg (show ¬ some '.' = some '/' by decide)] at hlengths
      split at hlengths
      · rename_i htwo
        rw [List.length_take, htwo] at hlengths
        exact absurd hlengths (by decide)
      · rw [List.length_take, List.length_append, List.length_singleton] at hlengths
        omega
  · have hmarker : ¬ ['/', '.'] <:+ path := by
      rintro ⟨before, rfl⟩
      exact hdot (by simp)
    rw [if_neg hdot, if_neg hmarker]
    refine ⟨fun _ h => absurd h hdot, fun _ => ?_⟩
    by_cases hslash : path = slash
    · subst hslash
      rfl
    · rw [if_neg hslash]
      by_cases hlast : path.getLast? = some '/'
      · obtain ⟨init, rfl⟩ := List.getLast?_eq_some_iff.mp hlast
        have hlong : 1 < (init ++ ['/']).length := by
          cases init with
          | nil => exact absurd rfl hslash
          | cons c init => simp
        rw [if_pos hlast, if_pos hlast, if_pos hlong, List.dropLast_eq_take]
      · rw [if_neg hlast, if_neg hlast]

/-- `canonicalize` has a path whose last name ends with a '.', which loses two
characters. -/
theorem chopFinality_cuts :
    (canonicalize rootHost 9 (rootedSys slash) "/lib.".toList true slash 0).map (·.result) =
        some (.ok "/lib.".toList) ∧
      chopFinality "/lib.".toList = "/li".toList ∧ chopped "/lib.".toList = "/lib.".toList ∧
      chopFinality "/lib.".toList ≠ chopped "/lib.".toList := by
  decide

end PRoot
