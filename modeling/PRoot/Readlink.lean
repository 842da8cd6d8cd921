import PRoot.NewChild

/-!
# The result of readlink

What `translate_syscall_exit` of `syscall/exit.c` does for `readlink` and `readlinkat`.

* `detranslatePath_spec`: a link's text is left as it is, or replaced and measured with its
  terminator;
* `readlink_right_iff`: what the tracee gets is the detranslated target, cut to its buffer,
  unless the buffer has room for just one byte more;
* `readlink_counts_terminator`: then the result is too large by one.
-/

namespace PRoot

variable {W : Type}

/-! ## The exit stage -/

/-- The memory of a tracee, where it is mapped. -/
abbrev TraceeMemory := Nat → Char

/-- `write_data`. -/
def writeData (memory : TraceeMemory) (dest : Nat) (data : CStr) : TraceeMemory := fun addr =>
  if dest ≤ addr then (data[addr - dest]?).getD (memory addr) else memory addr

/-- `read_data`. -/
def readData (memory : TraceeMemory) (src size : Nat) : CStr :=
  (List.range size).map fun i => memory (src + i)

/-- `readlink(2)` of the host, for a link that holds `target`: no terminator is put behind the
text.  The memory afterwards, and the result. -/
def hostReadlink (memory : TraceeMemory) (output size : Nat) (target : CStr) :
    TraceeMemory × Nat :=
  (writeData memory output (target.take size), (target.take size).length)

/-- The text of the link: where the kernel has filled the whole buffer, the link is read again,
with a buffer of full size. -/
def fullReferee (text : CStr) (maxSize : Nat) (reread : Except Errno CStr) : CStr :=
  if text.length = maxSize then
    match reread with
    | .error _ => text
    | .ok full => if full.take (pathMax - 1) = [] then text else full.take (pathMax - 1)
  else text

/-- The branch of `translate_syscall_exit` for `readlink` and `readlinkat`.  `output` and `size`
are the buffer of the tracee; `referer` is the path of the link as `read_path`, or for an empty
path `readlink_proc_pid_fd`, gives it; `reread` is what reading the link again gives. -/
def readlinkExit (sys : Sys W) (memory : TraceeMemory) (output size : Nat)
    (referer reread : Except Errno CStr) (syscallResult : Except Errno Nat) :
    TraceeMemory × Except Errno Nat :=
  match syscallResult with
  | .error e => (memory, .error e)
  | .ok oldSize =>
      let maxSize := min size pathMax
      if maxSize = 0 then (memory, .error .EINVAL)
      else
        match referer with
        | .error e => (memory, .error e)
        | .ok referer =>
            let referee := fullReferee (readData memory output oldSize) maxSize reread
            match detranslatePath sys referee (some referer) with
            | .error e => (memory, .error e)
            | .ok (path, status) =>
                if status = 0 then (memory, .ok oldSize)
                else if status < maxSize then
                  (writeData memory output ((path ++ ['\x00']).take status), .ok (status - 1))
                else
                  (writeData memory output ((path ++ ['\x00']).take maxSize), .ok maxSize)

/-- **What the tracee should get**: the first bytes of the detranslated target, as many as there
are and fit, their number, and no change outside its buffer. -/
structure ReadlinkRight (memory : TraceeMemory) (output size : Nat) (detranslated : CStr)
    (after : TraceeMemory × Except Errno Nat) : Prop where
  result : after.2 = .ok (min detranslated.length size)
  text : readData after.1 output (min detranslated.length size) = detranslated.take size
  outside : ∀ addr, addr < output ∨ output + size ≤ addr → after.1 addr = memory addr

/-! ## Memory -/

theorem writeData_outside {memory : TraceeMemory} {dest addr : Nat} {data : CStr}
    (h : addr < dest ∨ dest + data.length ≤ addr) :
    writeData memory dest data addr = memory addr := by
  unfold writeData
  split
  · rw [List.getElem?_eq_none (by omega), Option.getD_none]
  · rfl

/-- What was written can be read. -/
theorem readData_writeData (memory : TraceeMemory) (dest : Nat) {data : CStr} {n : Nat}
    (hn : n ≤ data.length) : readData (writeData memory dest data) dest n = data.take n := by
  apply List.ext_getElem
  · rw [readData, List.length_map, List.length_range, List.length_take, Nat.min_eq_left hn]
  · intro i hi hi'
    have hlt : i < data.length := by
      rw [List.length_take] at hi'
      omega
    simp [readData, writeData, List.getElem?_eq_getElem hlt]

/-! ## Detranslation -/

/-- A prefix is substituted within the buffer. -/
theorem substitutePathPrefix_length {path new : CStr} (n : Nat) (hpath : path.length < pathMax)
    (hnew : new.length < pathMax) :
    (substitutePathPrefix path n new new.length).1.length < pathMax := by
  unfold substitutePathPrefix
  split
  · simp only
    split
    · rw [List.length_drop]
      omega
    · decide
  · split
    · simp only
      split
      · exact hpath
      · rename_i hfits
        split
        · rw [List.length_append]
          omega
        · exact hnew
    · simp only
      split
      · exact hpath
      · rw [List.length_append, List.length_drop]
        omega

/-- What is known of a detranslated path: it is the path as it was, or it fits the buffer and is
measured with its terminator. -/
def Detranslated (path : CStr) (out : Except Errno (CStr × Nat)) : Prop :=
  ∀ d status, out = .ok (d, status) →
    (status = 0 ∧ d = path) ∨ (status = d.length + 1 ∧ d.length < pathMax)

theorem detranslateRoot_spec (bindings : Bindings) {path : CStr} (sanityCheck : Bool)
    (hpath : path.length < pathMax) :
    Detranslated path (detranslateRoot bindings path sanityCheck) := by
  intro d status h
  unfold detranslateRoot at h
  split at h
  · simp only [Except.ok.injEq, Prod.mk.injEq] at h
    obtain ⟨rfl, rfl⟩ := h
    right
    rw [List.length_take, List.length_drop]
    omega
  · cases h
    right
    decide
  · split at h
    · cases h
    · cases h
      exact Or.inl ⟨rfl, rfl⟩

theorem detranslateBinding_spec {bindings : Bindings} (hinv : ListInv bindings)
    (hbuf : Buffered bindings) {path : CStr} (sanityCheck followBinding : Bool)
    (hpath : path.length < pathMax) :
    Detranslated path (detranslateBinding bindings path sanityCheck followBinding) := by
  intro d status h
  unfold detranslateBinding at h
  split at h
  · unfold substituteBinding at h
    cases hfind : getBinding bindings .host path with
    | none =>
        rw [hfind] at h
        exact detranslateRoot_spec bindings sanityCheck hpath d status h
    | some b =>
        have hmem : b ∈ bindings.guest := by
          unfold getBinding at hfind
          exact hinv.perm.mem_iff.mp (List.mem_of_find?_eq_some hfind)
        have hlength : b.guest.length = b.guest.path.length := (hinv.good b hmem).1.2
        rw [hfind] at h
        simp only at h
        split at h
        · rename_i heq
          split at heq
          · cases heq
            cases h
            exact Or.inl ⟨rfl, rfl⟩
          · cases heq
        · rename_i heq
          split at heq
          · cases heq
          · cases heq
            cases h
            refine Or.inr ⟨rfl, ?_⟩
            show (substitutePathPrefix path b.host.length b.guest.path b.guest.length).1.length < _
            rw [hlength]
            exact substitutePathPrefix_length _ hpath (hbuf b hmem).1
        · rename_i heq
          split at heq <;> cases heq
  · exact detranslateRoot_spec bindings sanityCheck hpath d status h

theorem substitute_length {component name text result : CStr} {otherwise : Except Errno Action}
    (hotherwise : otherwise = .ok (.canonicalize result) → result.length < pathMax)
    (h : substitute component name text otherwise = .ok (.canonicalize result)) :
    result.length < pathMax := by
  unfold substitute at h
  split at h
  · split at h
    · cases h
    · cases h
      omega
  · exact hotherwise h

/-- The text of an emulated link of "/proc" fits its buffer. -/
theorem readlinkProc2_length {sys : Sys W} {referer result : CStr}
    (h : readlinkProc2 sys referer = .ok (some result)) : result.length < pathMax := by
  have hpid : ∀ {pid component text},
      readlinkProcPid sys pid component = .ok (.canonicalize text) → text.length < pathMax := by
    intro pid component text h
    unfold readlinkProcPid at h
    split at h
    · cases h
    · refine substitute_length (fun h => ?_) h
      refine substitute_length (fun h => ?_) h
      exact substitute_length (fun h => by cases h) h
  have hproc : ∀ {base component text},
      readlinkProc sys base component .path1IsPrefix = .ok (.canonicalize text) →
        text.length < pathMax := by
    intro base component text h
    unfold readlinkProc at h
    simp only at h
    split at h
    · cases h
    · split at h
      · exact hpid h
      · split at h
        · unfold readlinkProcPidFd at h
          simp only at h
          split at h
          · cases h
          · split at h <;> cases h
        · cases h
      · cases h
  unfold readlinkProc2 at h
  split at h
  · cases h
  · simp only at h
    split at h
    · cases h
    · split at h
      · rename_i text htext
        split at h
        · cases h
        · cases h
          exact hproc htext
      · cases h

/-- **What `detranslate_path` makes of a path**, be it the text of a link or not. -/
theorem detranslatePath_spec {sys : Sys W} (hinv : ListInv sys.bindings)
    (hbuf : Buffered sys.bindings) {path : CStr} {referer : Option CStr}
    (hpath : path.length < pathMax) :
    Detranslated path (detranslatePath sys path referer) := by
  intro d status h
  unfold detranslatePath at h
  rw [if_neg (by omega)] at h
  split at h
  · cases h
    exact Or.inl ⟨rfl, rfl⟩
  · cases referer with
    | none => exact detranslateBinding_spec hinv hbuf true true hpath d status h
    | some referer =>
        simp only at h
        split at h
        · split at h
          · cases h
          · rename_i result hresult
            cases h
            exact Or.inr ⟨rfl, readlinkProc2_length hresult⟩
          · exact detranslateBinding_spec hinv hbuf false true hpath d status h
        · split at h
          · exact detranslateBinding_spec hinv hbuf false false hpath d status h
          · exact detranslateBinding_spec hinv hbuf false _ hpath d status h

/-! ## The result -/

section Result

variable {memory : TraceeMemory} {output size : Nat} {target d : CStr} {status : Nat}

/-- The text that is detranslated is the whole target, however small the buffer is. -/
theorem fullReferee_target (memory : TraceeMemory) (output size : Nat)
    (htarget : target.length < pathMax) :
    fullReferee (readData (hostReadlink memory output size target).1 output
        (hostReadlink memory output size target).2) (min size pathMax) (.ok target) = target := by
  have htext : readData (hostReadlink memory output size target).1 output
      (hostReadlink memory output size target).2 = target.take size := by
    unfold hostReadlink
    rw [readData_writeData memory output (Nat.le_refl _), List.take_length]
  have hfull : target.take (pathMax - 1) = target := List.take_of_length_le (by omega)
  rw [htext, fullReferee]
  split
  · simp only [hfull]
    split
    · rename_i hnil
      rw [hnil, List.take_nil]
    · rfl
  · rename_i hne
    rw [List.length_take] at hne
    exact List.take_of_length_le (by omega)

/-- The kernel's own answer is right where nothing has to be detranslated. -/
theorem hostReadlink_right :
    ReadlinkRight memory output size target
      ((hostReadlink memory output size target).1,
        .ok (hostReadlink memory output size target).2) := by
  refine ⟨?_, ?_, ?_⟩
  · rw [hostReadlink, List.length_take, Nat.min_comm]
  · have hlength : min target.length size = (target.take size).length := by
      rw [List.length_take, Nat.min_comm]
    rw [hlength]
    exact (readData_writeData memory output (Nat.le_refl _)).trans List.take_length
  · intro addr haddr
    apply writeData_outside
    rw [List.length_take]
    omega

/-- The detranslated text, written over the kernel's answer. -/
theorem written_right {text : CStr} {after : TraceeMemory}
    (hafter : after = writeData (hostReadlink memory output size target).1 output text)
    (hlength : min d.length size ≤ text.length) (hfits : text.length ≤ size)
    (htext : text.take (min d.length size) = d.take size) :
    ReadlinkRight memory output size d (after, .ok (min d.length size)) := by
  subst hafter
  refine ⟨rfl, (readData_writeData _ output hlength).trans htext, ?_⟩
  intro addr haddr
  refine (writeData_outside ?_).trans (hostReadlink_right.outside addr haddr)
  omega

/-- **When readlink answers rightly**: where the text of the link needs no change, or does not
just leave room for its terminator in the buffer. -/
theorem readlink_right_iff {sys : Sys W} (hinv : ListInv sys.bindings)
    (hbuf : Buffered sys.bindings) (memory : TraceeMemory) (output : Nat) {referer : CStr}
    (hsize : 0 < size) (htarget : target.length < pathMax)
    (hd : detranslatePath sys target (some referer) = .ok (d, status)) :
    ReadlinkRight memory output size d
        (readlinkExit sys (hostReadlink memory output size target).1 output size (.ok referer)
          (.ok target) (.ok (hostReadlink memory output size target).2)) ↔
      status = 0 ∨ d.length + 1 ≠ min size pathMax := by
  have hmax : min size pathMax ≠ 0 := by
    unfold pathMax
    omega
  unfold readlinkExit
  simp only [if_neg hmax, fullReferee_target memory output size htarget, hd]
  rcases detranslatePath_spec hinv hbuf htarget d status hd with ⟨rfl, rfl⟩ | ⟨rfl, hdlen⟩
  · rw [if_pos rfl]
    exact iff_of_true hostReadlink_right (Or.inl rfl)
  · rw [if_neg (Nat.succ_ne_zero _)]
    have hlength : (d ++ ['\x00']).length = d.length + 1 := by simp
    by_cases hroom : d.length + 1 < min size pathMax
    · rw [if_pos hroom]
      refine iff_of_true ?_ (Or.inr (by omega))
      have hall : (d ++ ['\x00']).take (d.length + 1) = d ++ ['\x00'] :=
        List.take_of_length_le (by omega)
      have hmin : min d.length size = d.length := by omega
      have hright := @written_right memory output size target d (d ++ ['\x00']) _ rfl
        (by omega) (by omega) (by
          rw [hmin, List.take_left' rfl]
          exact (List.take_of_length_le (by omega)).symm)
      rw [hall, Nat.add_sub_cancel]
      rwa [hmin] at hright
    · rw [if_neg hroom]
      by_cases hexact : d.length + 1 = min size pathMax
      · refine iff_of_false ?_ (by simpa [hexact] using hmax)
        intro hright
        have hresult := Except.ok.inj hright.result
        omega
      · refine iff_of_true ?_ (Or.inr hexact)
        have hmin : min d.length size = min size pathMax := by omega
        have hle : min size pathMax ≤ d.length := by omega
        have hsmall : min size pathMax = size := by omega
        have hright := @written_right memory output size target d
          ((d ++ ['\x00']).take (min size pathMax)) _ rfl
          (by rw [List.length_take]; omega) (by rw [List.length_take]; omega) (by
            rw [hmin, List.take_take, Nat.min_self, List.take_append_of_le_length hle, hsmall])
        rwa [hmin] at hright

end Result

/-- A tracee that runs "/bin/sh" reads "/proc/1/exe", which the host sees in "/r". -/
theorem shell_detranslated : ListInv (rootedSys "/r".toList).bindings ∧
    Buffered (rootedSys "/r".toList).bindings ∧
    detranslatePath (rootedSys "/r".toList) "/r/bin/sh".toList (some "/proc/1/exe".toList) =
      .ok ("/bin/sh".toList, 8) := by
  refine ⟨rootedSys_inv (by decide), ?_, by decide⟩
  intro b hb
  obtain rfl := List.mem_singleton.mp hb
  decide

/-- With a buffer of 9 bytes it gets its 7 bytes. -/
theorem readlink_right_shell : ∃ memory,
    ReadlinkRight memory 0 9 "/bin/sh".toList
      (readlinkExit (rootedSys "/r".toList) (hostReadlink memory 0 9 "/r/bin/sh".toList).1 0 9
        (.ok "/proc/1/exe".toList) (.ok "/r/bin/sh".toList)
        (.ok (hostReadlink memory 0 9 "/r/bin/sh".toList).2)) := by
  obtain ⟨hinv, hbuf, hd⟩ := shell_detranslated
  exact ⟨fun _ => ' ', (readlink_right_iff hinv hbuf _ 0 (by decide) (by decide) hd).mpr
    (Or.inr (by decide))⟩

/-- With a buffer of 8 bytes its result is 8, the terminator counted. -/
theorem readlink_counts_terminator : ∃ memory after,
    readlinkExit (rootedSys "/r".toList) (hostReadlink memory 0 8 "/r/bin/sh".toList).1 0 8
        (.ok "/proc/1/exe".toList) (.ok "/r/bin/sh".toList)
        (.ok (hostReadlink memory 0 8 "/r/bin/sh".toList).2) = (after, .ok 8) ∧
      ¬ ReadlinkRight memory 0 8 "/bin/sh".toList (after, .ok 8) := by
  obtain ⟨-, -, hd⟩ := shell_detranslated
  have hrun : (readlinkExit (rootedSys "/r".toList)
      (hostReadlink (fun _ => ' ') 0 8 "/r/bin/sh".toList).1 0 8 (.ok "/proc/1/exe".toList)
      (.ok "/r/bin/sh".toList) (.ok (hostReadlink (fun _ => ' ') 0 8 "/r/bin/sh".toList).2)).2 =
        .ok 8 := by
    unfold readlinkExit
    simp only [fullReferee_target (fun _ => ' ') 0 8 (show "/r/bin/sh".toList.length < pathMax by
      decide), hd]
    rfl
  refine ⟨fun _ => ' ', _, Prod.ext rfl hrun, ?_⟩
  intro hright
  cases hright.result

end PRoot
