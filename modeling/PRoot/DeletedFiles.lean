import PRoot.LinkStats
import PRoot.MemoryAccess
import PRoot.PathOrder

/-!
# Names for deleted files

`linkat` of "/proc/<PID>/fd/<FD>" where that is a file without a name, which
`handle_linkat_from_proc_fd` (`extension/link2symlink/link2symlink.c`) copies to the new name.

* `CopyHost.copyContents`: the loop over the content;
* `handleLinkatFromProcFd`, `linkatEnd`: what becomes of the call;
* `copyContents_ok`, `copyContents_fails`: when the copy is complete;
* `linkat_deleted_iff`: when the call is atomic.
-/

namespace PRoot

/-- A regular file: its mode, less its type, and its content. -/
structure FileData where
  mode : BitVec 12
  content : Bytes
  deriving DecidableEq, Repr

/-- How the host reads and writes: how many bytes it gives or takes at a position, until a read or
a write fails, which is no matter of existing names. -/
structure CopyHost where
  readSize : Nat → Nat
  writeSize : Nat → Nat
  readFailure : Option (Nat × Errno)
  writeFailure : Option (Nat × Errno)
  unnamed : ∀ failure ∈ readFailure.toList ++ writeFailure.toList, failure.2 ≠ .EEXIST

namespace CopyHost

variable (k : CopyHost)

/-- `read`, of at most 4096 bytes: how many there are, at least one but at the end of the file. -/
def read (rest : Bytes) (position : Nat) : Except Errno Nat :=
  let size := min rest.length (min 4096 (max 1 (k.readSize position)))
  match k.readFailure with
  | none => .ok size
  | some (first, status) => if first ≤ position then .error status else .ok size

/-- `write`: how many bytes are taken, at least one. -/
def write (data : Bytes) (position : Nat) : Except Errno Nat :=
  let size := min data.length (max 1 (k.writeSize position))
  match k.writeFailure with
  | none => .ok size
  | some (first, status) =>
      if first ≤ position then .error status else .ok (min size (first - position))

/-- The inner loop: what the new file has then. -/
def writeChunk : Bytes → Bytes → Bytes × Except Errno Unit
  | [], out => (out, .ok ())
  | b :: data, out =>
      match k.write (b :: data) out.length with
      | .error status => (out, .error status)
      | .ok 0 => (out, .error .EPERM)
      | .ok (n + 1) => writeChunk (data.drop n) (out ++ b :: data.take n)
termination_by data => data.length
decreasing_by
  rw [List.length_drop, List.length_cons]
  omega

/-- "Copy contents of file". -/
def copyContents : Bytes → Bytes → Bytes × Except Errno Unit
  | [], out =>
      match k.read [] out.length with
      | .error status => (out, .error status)
      | .ok _ => (out, .ok ())
  | b :: rest, out =>
      match k.read (b :: rest) out.length with
      | .error status => (out, .error status)
      | .ok 0 => (out, .ok ())
      | .ok (n + 1) =>
          match k.writeChunk (b :: rest.take n) out with
          | (out, .error status) => (out, .error status)
          | (out, .ok ()) => copyContents (rest.drop n) out
termination_by rest => rest.length
decreasing_by
  rw [List.length_drop, List.length_cons]
  omega

/-- No read or write fails before the end of a file. -/
structure Lasts (size : Nat) : Prop where
  read : ∀ failure ∈ k.readFailure, size < failure.1
  write : ∀ failure ∈ k.writeFailure, size ≤ failure.1

end CopyHost

/-- What the host makes of a call: whether the paths and the file can be read, the old name can be
removed, and a file can be created. -/
structure LinkHost where
  /-- `AT_SYMLINK_FOLLOW`. -/
  follow : Bool
  oldRead : Bool
  newRead : Bool
  opens : Bool
  unlinks : Bool
  refuses : Option Errno
  umask : BitVec 12
  copy : CopyHost

namespace LinkHost

variable (k : LinkHost)

/-- `unlink`, whose result is ignored. -/
def removeName (fs : Files FileData) (newName : CStr) : Files FileData :=
  if k.unlinks && (fs.get newName).all (!·.isDir) then fs.erase newName else fs

/-- `open`, with `O_CREAT | O_EXCL`. -/
def createFile (fs : Files FileData) (newName : CStr) (mode : BitVec 12) :
    Except Errno FileData :=
  if (fs.get newName).isSome then .error .EEXIST
  else
    match k.refuses with
    | some status => .error status
    | none => .ok ⟨mode &&& 0x1FF &&& ~~~k.umask, []⟩

/-- `handle_linkat_from_proc_fd`, where `stat` has a regular file.  There is no result where the
call is left to the usual treatment. -/
def handleLinkatFromProcFd (source : FileData) (oldName newName : CStr) (fs : Files FileData) :
    Option (Except Errno Unit) × Files FileData :=
  if !k.oldRead || oldName.length + 1 ≥ 128 then (none, fs)
  else if comparePaths oldName procPath ≠ .path2IsPrefix then (none, fs)
  else
    match fs.readlink oldName with
    | .error _ => (none, fs)
    | .ok text =>
        if text.length < 10 ∨ text.length ≥ pathMax then (none, fs)
        else if text.drop (text.length - 10) ≠ deletedSuffix then (none, fs)
        else if !k.newRead || newName.length + 1 ≥ pathMax || !k.opens then (none, fs)
        else
          let fs := k.removeName fs newName
          match k.createFile fs newName source.mode with
          | .error status => (some (.error status), fs)
          | .ok new =>
              let (content, result) := k.copy.copyContents source.content []
              (some result, fs.set newName (.file { new with content }))

/-- `move_and_symlink_path` of a link in "/proc", which cannot be renamed. -/
def moveProcLink (oldName newName : CStr) : HostM FileData Unit :=
  if !k.oldRead then throw .EFAULT
  else if oldName.length + 1 ≥ pathMax then throw .ENAMETOOLONG
  else do
    match (← get).get oldName with
    | some (.link _) =>
        let value ← orFail (myReadlink (← get) oldName)
        if isL2s value then
          let intermediate ← furtherLink value
          symlinkNewName oldName intermediate newName (k.newRead && k.refuses.isNone)
        else throw .EPERM
    | _ => throw .ENOENT

/-- `linkat`, in `link2symlink_callback`. -/
def linkatEnd (source : FileData) (oldName newName : CStr) (fs : Files FileData) :
    Except Errno Unit × Files FileData :=
  match if k.follow then k.handleLinkatFromProcFd source oldName newName fs else (none, fs) with
  | (some result, fs) => (result, fs)
  | (none, fs) =>
      match k.moveProcLink oldName newName fs with
      | .ok () fs => (.ok (), fs)
      | .error status fs => (.error status, fs)

end LinkHost

/-- Either there is a new file, with the content and the permissions of the other one, or there is
an error and the name stands for what it did before. -/
def Atomic (source : FileData) (newName : CStr) (before : Files FileData) :
    Except Errno Unit × Files FileData → Prop
  | (.ok (), after) =>
      before.get newName = none ∧ ∃ mode, after.get newName = some (.file ⟨mode, source.content⟩) ∧
        mode &&& 0x1FF = source.mode &&& 0x1FF
  | (.error status, after) =>
      after.get newName = before.get newName ∧ (before.get newName ≠ none → status = .EEXIST)

/-! ## Copying -/

namespace CopyHost

variable {k : CopyHost}

theorem writeChunk_cons (b : BitVec 8) (data out : Bytes) :
    k.writeChunk (b :: data) out =
      match k.write (b :: data) out.length with
      | .error status => (out, .error status)
      | .ok 0 => (out, .error .EPERM)
      | .ok (n + 1) => k.writeChunk (data.drop n) (out ++ b :: data.take n) := by
  rw [writeChunk]

theorem copyContents_cons (b : BitVec 8) (rest out : Bytes) :
    k.copyContents (b :: rest) out =
      match k.read (b :: rest) out.length with
      | .error status => (out, .error status)
      | .ok 0 => (out, .ok ())
      | .ok (n + 1) =>
          match k.writeChunk (b :: rest.take n) out with
          | (out, .error status) => (out, .error status)
          | (out, .ok ()) => k.copyContents (rest.drop n) out := by
  rw [copyContents]

theorem write_cases (b : BitVec 8) (data : Bytes) (position : Nat) :
    (∃ n, k.write (b :: data) position = .ok (n + 1) ∧ n ≤ data.length ∧
      ∀ failure ∈ k.writeFailure, position + (n + 1) ≤ failure.1) ∨
    ∃ failure ∈ k.writeFailure, failure.1 ≤ position ∧
      k.write (b :: data) position = .error failure.2 := by
  unfold write
  rw [List.length_cons]
  cases hfailure : k.writeFailure with
  | none =>
      refine Or.inl ⟨min data.length (max 1 (k.writeSize position) - 1), ?_, by omega, ?_⟩
      · show Except.ok _ = _
        congr 1
        omega
      · intro failure hmem
        cases hmem
  | some failure =>
      obtain ⟨first, status⟩ := failure
      by_cases hfirst : first ≤ position
      · exact Or.inr ⟨(first, status), rfl, hfirst, if_pos hfirst⟩
      · refine Or.inl ⟨min (min data.length (max 1 (k.writeSize position) - 1))
          (first - position - 1), ?_, by omega, ?_⟩
        · simp only [if_neg hfirst]
          congr 1
          omega
        · rintro _ ⟨⟩
          show position + _ ≤ first
          omega

theorem read_cases (b : BitVec 8) (rest : Bytes) (position : Nat) :
    (∃ n, k.read (b :: rest) position = .ok (n + 1) ∧ n ≤ rest.length) ∨
    ∃ failure ∈ k.readFailure, failure.1 ≤ position ∧
      k.read (b :: rest) position = .error failure.2 := by
  unfold read
  rw [List.length_cons]
  have hsize : ∃ n, min (rest.length + 1) (min 4096 (max 1 (k.readSize position))) = n + 1 ∧
      n ≤ rest.length :=
    ⟨min rest.length (min 4096 (max 1 (k.readSize position)) - 1), by omega, by omega⟩
  obtain ⟨n, hn, hle⟩ := hsize
  rw [hn]
  cases hfailure : k.readFailure with
  | none => exact Or.inl ⟨n, rfl, hle⟩
  | some failure =>
      obtain ⟨first, status⟩ := failure
      by_cases hfirst : first ≤ position
      · exact Or.inr ⟨(first, status), rfl, hfirst, if_pos hfirst⟩
      · exact Or.inl ⟨n, if_neg hfirst, hle⟩

theorem read_unnamed {failure : Nat × Errno} (h : failure ∈ k.readFailure) :
    failure.2 ≠ .EEXIST :=
  k.unnamed failure (List.mem_append_left _ (Option.mem_toList.mpr h))

theorem write_unnamed {failure : Nat × Errno} (h : failure ∈ k.writeFailure) :
    failure.2 ≠ .EEXIST :=
  k.unnamed failure (List.mem_append_right _ (Option.mem_toList.mpr h))

/-- A chunk is written as a whole, or there is an error at the place where writing fails. -/
theorem writeChunk_spec (data : Bytes) : ∀ out : Bytes,
    (k.writeChunk data out = (out ++ data, .ok ()) ∧
      (data = [] ∨ ∀ failure ∈ k.writeFailure, out.length + data.length ≤ failure.1)) ∨
    ∃ written, ∃ failure ∈ k.writeFailure, failure.1 < out.length + data.length ∧
      k.writeChunk data out = (written, .error failure.2) := by
  induction hsize : data.length using Nat.strong_induction_on generalizing data with
  | _ size ih =>
      intro out
      cases data with
      | nil =>
          left
          rw [writeChunk, List.append_nil]
          exact ⟨rfl, Or.inl rfl⟩
      | cons b data =>
          rw [writeChunk_cons]
          rw [List.length_cons] at hsize
          rcases k.write_cases b data out.length with
            ⟨n, hwrite, hn, hlimit⟩ | ⟨failure, hmem, hfirst, hwrite⟩
          · rw [hwrite]
            have hlength : (out ++ b :: data.take n).length = out.length + (n + 1) := by
              rw [List.length_append, List.length_cons, List.length_take]
              omega
            have hall : out ++ b :: data.take n ++ data.drop n = out ++ b :: data := by
              rw [List.append_assoc, List.cons_append, List.take_append_drop]
            have hih := ih (data.drop n).length (by rw [List.length_drop]; omega) (data.drop n) rfl
              (out ++ b :: data.take n)
            rw [hlength, hall, List.length_drop] at hih
            rcases hih with ⟨hwritten, hfits⟩ | ⟨written, failure, hmem, hfirst, hwritten⟩
            · refine Or.inl ⟨hwritten, Or.inr fun failure hmem => ?_⟩
              rcases hfits with hdone | hfits
              · have hdrop := congrArg List.length hdone
                rw [List.length_drop, List.length_nil] at hdrop
                have := hlimit failure hmem
                omega
              · have := hfits failure hmem
                omega
            · refine Or.inr ⟨written, failure, hmem, ?_, hwritten⟩
              omega
          · rw [hwrite]
            exact Or.inr ⟨out, failure, hmem, by omega, rfl⟩

/-- **The whole content is copied, or there is an error, according to whether a read or a write
fails.** -/
theorem copyContents_spec (rest : Bytes) : ∀ out : Bytes,
    (∀ failure ∈ k.writeFailure, out.length ≤ failure.1) →
    (k.Lasts (out.length + rest.length) ∧ k.copyContents rest out = (out ++ rest, .ok ())) ∨
    (¬ k.Lasts (out.length + rest.length) ∧
      ∃ written status, k.copyContents rest out = (written, .error status) ∧ status ≠ .EEXIST) := by
  induction hsize : rest.length using Nat.strong_induction_on generalizing rest with
  | _ size ih =>
      intro out hout
      cases rest with
      | nil =>
          rw [← hsize, List.length_nil, Nat.add_zero, List.append_nil, copyContents]
          unfold read
          cases hfailure : k.readFailure with
          | none =>
              refine Or.inl ⟨⟨fun failure hmem => ?_, hout⟩, rfl⟩
              rw [hfailure] at hmem
              cases hmem
          | some failure =>
              obtain ⟨first, status⟩ := failure
              by_cases hfirst : first ≤ out.length
              · refine Or.inr ⟨fun hlasts => ?_, out, status, ?_, read_unnamed hfailure⟩
                · have := hlasts.read _ hfailure
                  omega
                · simp only [if_pos hfirst]
              · refine Or.inl ⟨⟨fun failure hmem => ?_, hout⟩, ?_⟩
                · rw [hfailure] at hmem
                  obtain rfl := Option.some.inj hmem
                  show out.length < first
                  omega
                · simp only [if_neg hfirst]
      | cons b rest =>
          rw [copyContents_cons]
          rw [List.length_cons] at hsize
          rcases k.read_cases b rest out.length with
            ⟨n, hread, hn⟩ | ⟨failure, hmem, hfirst, hread⟩
          · rw [hread]
            dsimp only
            have hchunk : (b :: rest.take n).length = n + 1 := by
              rw [List.length_cons, List.length_take]
              omega
            rcases writeChunk_spec (k := k) (b :: rest.take n) out with
              ⟨hwritten, hfits⟩ | ⟨written, failure, hmem, hfirst, hwritten⟩
            · rw [hwritten]
              have hlimit := hfits.resolve_left (List.cons_ne_nil _ _)
              rw [hchunk] at hlimit
              have hlength : (out ++ b :: rest.take n).length = out.length + (n + 1) := by
                rw [List.length_append, hchunk]
              have hall : out ++ b :: rest.take n ++ rest.drop n = out ++ b :: rest := by
                rw [List.append_assoc, List.cons_append, List.take_append_drop]
              have hih := ih (rest.drop n).length (by rw [List.length_drop]; omega)
                (rest.drop n) rfl (out ++ b :: rest.take n) (by rwa [hlength])
              rw [hlength, hall, List.length_drop,
                show out.length + (n + 1) + (rest.length - n) = out.length + size by omega] at hih
              exact hih
            · rw [hwritten]
              refine Or.inr ⟨fun hlasts => ?_, written, failure.2, rfl, write_unnamed hmem⟩
              have := hlasts.write failure hmem
              rw [hchunk] at hfirst
              omega
          · rw [hread]
            refine Or.inr ⟨fun hlasts => ?_, out, failure.2, rfl, read_unnamed hmem⟩
            have := hlasts.read failure hmem
            omega

end CopyHost

/-! ## The call -/

/-- `handle_linkat_from_proc_fd` does not leave the call to the usual treatment. -/
structure LinkHost.Handles (k : LinkHost) (oldName newName text : CStr) : Prop where
  follow : k.follow = true
  read : k.oldRead = true ∧ k.newRead = true
  opens : k.opens = true
  old : oldName.length + 1 < 128
  text : text.length < pathMax
  new : newName.length + 1 < pathMax

/-- The usual treatment takes the name of the deleted file for an intermediate link, which is
there. -/
def LinkHost.Misled (k : LinkHost) (oldName newName text : CStr) (fs : Files FileData) : Prop :=
  ¬ k.Handles oldName newName text ∧ isL2s text = true ∧
    ∃ target, fs.get text = some (.link target)

/-- When the call is atomic.  A new name that is not free is one that cannot be removed; otherwise
no file is created, or the copy is complete and the umask leaves the permissions alone. -/
structure LinkHost.Kept (k : LinkHost) (source : FileData) (oldName newName text : CStr)
    (fs : Files FileData) : Prop where
  free : k.Handles oldName newName text → fs.get newName = none →
    k.refuses ≠ none ∨
      k.copy.Lasts source.content.length ∧ source.mode &&& 0x1FF &&& k.umask = 0
  taken : k.Handles oldName newName text → ∀ node, fs.get newName = some node →
    node.isDir = true ∨ k.unlinks = false
  left : ¬ k.Handles oldName newName text →
    fs.get newName = none ∧ ¬ k.Misled oldName newName text fs

section

variable {k : LinkHost} {source : FileData} {oldName newName text : CStr} {fs : Files FileData}

theorem comparePaths_procFd (pid : Int) (n : CStr) :
    comparePaths (procPidFdPath pid ++ '/' :: n) procPath = .path2IsPrefix := by
  obtain ⟨rest, hrest, hlength⟩ : ∃ rest : CStr,
      procPidFdPath pid ++ '/' :: n = procPath ++ '/' :: rest ∧ rest ≠ [] := by
    refine ⟨formatInt pid ++ "/fd".toList ++ '/' :: n, ?_,
      List.append_ne_nil_of_right_ne_nil _ (List.cons_ne_nil _ _)⟩
    show procPath ++ ['/'] ++ formatInt pid ++ "/fd".toList ++ '/' :: n = _
    simp only [List.append_assoc, List.cons_append, List.nil_append]
  have hstrip : ∃ rest' : CStr, strip (procPath ++ '/' :: rest) = procPath ++ '/' :: rest' := by
    unfold strip
    split
    · refine ⟨rest.dropLast, ?_⟩
      rw [List.dropLast_append_of_ne_nil (List.cons_ne_nil _ _),
        List.dropLast_cons_of_ne_nil hlength]
    · exact ⟨rest, rfl⟩
  obtain ⟨rest', hstrip⟩ := hstrip
  have hends : EndsInside procPath (procPath ++ '/' :: rest') :=
    ⟨List.prefix_append _ _, by
      rw [List.getElem?_append_right (Nat.le_refl _), Nat.sub_self]
      rfl⟩
  have hproc : strip procPath = procPath := rfl
  rw [hrest, comparePaths_eq (List.append_ne_nil_of_left_ne_nil (by decide) _) (by decide), hstrip,
    hproc]
  have hlt := hends.length_lt
  rw [if_neg fun heq => by rw [heq] at hlt; omega, if_neg fun h => by have := h.length_lt; omega,
    if_pos hends]

/-- The call is left to the usual treatment. -/
theorem handle_left (hfd : fs.get oldName = some (.link text)) (hfollow : k.follow = true)
    (hleft : ¬ k.Handles oldName newName text) :
    k.handleLinkatFromProcFd source oldName newName fs = (none, fs) := by
  unfold LinkHost.handleLinkatFromProcFd
  have hread : fs.readlink oldName = .ok text := by
    unfold Files.readlink
    rw [hfd]
  rw [hread]
  dsimp only
  split
  · rfl
  · rename_i hold
    split
    · rfl
    · split
      · rfl
      · rename_i htext
        split
        · rfl
        · split
          · rfl
          · rename_i hnew
            simp only [Bool.or_eq_true, Bool.not_eq_true', decide_eq_true_eq, not_or,
              Bool.not_eq_false] at hold hnew
            exact absurd ⟨hfollow, ⟨hold.1, hnew.1.1⟩, hnew.2, by omega, by omega, by omega⟩ hleft

/-- The call is handled. -/
theorem handle_handled (hfd : fs.get oldName = some (.link text))
    (hproc : comparePaths oldName procPath = .path2IsPrefix)
    (hsuffix : deletedSuffix <:+ text) (hhandles : k.Handles oldName newName text) :
    k.handleLinkatFromProcFd source oldName newName fs =
      match k.createFile (k.removeName fs newName) newName source.mode with
      | .error status => (some (.error status), k.removeName fs newName)
      | .ok new =>
          (some (k.copy.copyContents source.content []).2,
            (k.removeName fs newName).set newName
              (.file ⟨new.mode, (k.copy.copyContents source.content []).1⟩)) := by
  have hread : fs.readlink oldName = .ok text := by
    unfold Files.readlink
    rw [hfd]
  obtain ⟨name, rfl⟩ := hsuffix
  have hlength : (name ++ deletedSuffix).length = name.length + 10 := List.length_append
  have htext := hhandles.text
  have hold := hhandles.old
  have hnew := hhandles.new
  unfold LinkHost.handleLinkatFromProcFd
  rw [hread, hproc, hhandles.read.1, hhandles.read.2, hhandles.opens,
    if_neg (by rw [Bool.not_true, Bool.false_or, decide_eq_true_eq]; omega),
    if_neg (not_not.mpr rfl)]
  dsimp only
  rw [if_neg (by omega), if_neg (by rw [hlength, Nat.add_sub_cancel, List.drop_left]; simp),
    if_neg (by
      rw [Bool.not_true, Bool.false_or, Bool.or_false, decide_eq_true_eq]
      omega)]

/-- The usual treatment fails and changes nothing. -/
theorem moveProcLink_fails (newName : CStr) (hfd : fs.get oldName = some (.link text))
    (hplain : ¬ (isL2s text = true ∧ ∃ target, fs.get text = some (.link target))) :
    ∃ status, k.moveProcLink oldName newName fs = .error status fs ∧ status ≠ .EEXIST := by
  unfold LinkHost.moveProcLink
  cases k.oldRead with
  | false => exact ⟨.EFAULT, rfl, by decide⟩
  | true =>
      rw [if_neg (by decide)]
      by_cases hlong : oldName.length + 1 ≥ pathMax
      · rw [if_pos hlong]
        exact ⟨.ENAMETOOLONG, rfl, by decide⟩
      · rw [if_neg hlong,
          bind_ok (show (get : HostM FileData (Files FileData)) fs = .ok fs fs from rfl), hfd]
        dsimp only
        rw [bind_ok (show (get : HostM FileData (Files FileData)) fs = .ok fs fs from rfl)]
        have hread : myReadlink fs oldName =
            if text.length ≥ pathMax then .error .ENAMETOOLONG else .ok text := by
          unfold myReadlink Files.readlink
          rw [hfd]
        by_cases htext : text.length ≥ pathMax
        · rw [if_pos htext] at hread
          rw [bind_error (orFail_error hread)]
          exact ⟨.ENAMETOOLONG, rfl, by decide⟩
        · rw [if_neg htext] at hread
          rw [bind_ok (orFail_ok hread)]
          cases hl2s : isL2s text with
          | false => exact ⟨.EPERM, rfl, by decide⟩
          | true =>
              have hnone : myReadlink fs text = .error .EPERM := by
                unfold myReadlink Files.readlink
                cases hget : fs.get text with
                | none => rfl
                | some node =>
                    cases node with
                    | link target => exact absurd ⟨hl2s, target, hget⟩ hplain
                    | file data => rfl
                    | dir => rfl
              have hfurther : furtherLink text fs = .error .EPERM fs := by
                unfold furtherLink
                rw [bind_ok (show (get : HostM FileData (Files FileData)) fs = .ok fs fs from rfl),
                  bind_error (orFail_error hnone)]
              rw [if_pos rfl, bind_error hfurther]
              exact ⟨.EPERM, rfl, by decide⟩

/-- What `linkat` of a file that is handled comes to. -/
theorem linkat_handled (source : FileData) (pid : Int) (n name : CStr)
    (hfd : fs.get (procPidFdPath pid ++ '/' :: n) = some (.link (name ++ deletedSuffix)))
    (hhandles : k.Handles (procPidFdPath pid ++ '/' :: n) newName (name ++ deletedSuffix)) :
    k.linkatEnd source (procPidFdPath pid ++ '/' :: n) newName fs =
      match k.createFile (k.removeName fs newName) newName source.mode with
      | .error status => (.error status, k.removeName fs newName)
      | .ok new =>
          ((k.copy.copyContents source.content []).2,
            (k.removeName fs newName).set newName
              (.file ⟨new.mode, (k.copy.copyContents source.content []).1⟩)) := by
  unfold LinkHost.linkatEnd
  rw [if_pos hhandles.follow,
    handle_handled hfd (comparePaths_procFd pid n) (List.suffix_append _ _) hhandles]
  cases k.createFile (k.removeName fs newName) newName source.mode with
  | error status => rfl
  | ok new => rfl

theorem linkat_left (source : FileData) (hfd : fs.get oldName = some (.link text))
    (hleft : ¬ k.Handles oldName newName text) (hplain : ¬ k.Misled oldName newName text fs) :
    ∃ status, k.linkatEnd source oldName newName fs = (.error status, fs) ∧ status ≠ .EEXIST := by
  obtain ⟨status, hmove, hstatus⟩ := moveProcLink_fails (k := k) newName hfd
    fun h => hplain ⟨hleft, h⟩
  refine ⟨status, ?_, hstatus⟩
  unfold LinkHost.linkatEnd
  cases hfollow : k.follow with
  | false =>
      rw [if_neg (by decide)]
      dsimp only
      rw [hmove]
  | true =>
      rw [if_pos rfl, handle_left hfd hfollow hleft]
      dsimp only
      rw [hmove]

/-- The umask leaves the permissions alone. -/
theorem permissions_iff (mode umask : BitVec 12) :
    mode &&& 0x1FF &&& ~~~umask &&& 0x1FF = mode &&& 0x1FF ↔ mode &&& 0x1FF &&& umask = 0 := by
  have hsame : mode &&& 0x1FF &&& ~~~umask &&& 0x1FF = mode &&& 0x1FF &&& ~~~umask := by
    rw [BitVec.and_assoc _ (~~~umask), BitVec.and_comm (~~~umask), ← BitVec.and_assoc,
      BitVec.and_assoc mode, BitVec.and_self]
  have hsplit : (mode &&& 0x1FF &&& umask) ||| (mode &&& 0x1FF &&& ~~~umask) = mode &&& 0x1FF := by
    rw [← BitVec.and_or_distrib_left, BitVec.or_not_self, BitVec.and_allOnes]
  rw [hsame]
  constructor
  · intro h
    rw [← h, BitVec.and_assoc, BitVec.and_comm (~~~umask), BitVec.and_not_self]
    exact BitVec.and_zero
  · intro h
    rw [h] at hsplit
    exact BitVec.zero_or.symm.trans hsplit

/-- A call that is handled, where the new name is free. -/
theorem atomic_free (hfree : fs.get newName = none) :
    Atomic source newName fs
      (match k.createFile (k.removeName fs newName) newName source.mode with
      | .error status => (.error status, k.removeName fs newName)
      | .ok new =>
          ((k.copy.copyContents source.content []).2,
            (k.removeName fs newName).set newName
              (.file ⟨new.mode, (k.copy.copyContents source.content []).1⟩))) ↔
      k.refuses ≠ none ∨
        k.copy.Lasts source.content.length ∧ source.mode &&& 0x1FF &&& k.umask = 0 := by
  have hremoved : (k.removeName fs newName).get newName = none := by
    unfold LinkHost.removeName
    split
    · rw [Files.get_erase, if_pos rfl]
    · exact hfree
  unfold LinkHost.createFile
  rw [hremoved, if_neg (by decide)]
  cases hrefuses : k.refuses with
  | some status =>
      refine ⟨fun _ => Or.inl (Option.some_ne_none status), fun _ => ⟨?_, fun h => ?_⟩⟩
      · rw [hremoved, hfree]
      · exact absurd hfree h
  | none =>
      have hcopy := k.copy.copyContents_spec source.content [] fun _ _ => Nat.zero_le _
      rw [List.length_nil, Nat.zero_add, List.nil_append] at hcopy
      rcases hcopy with ⟨hlasts, hcopy⟩ | ⟨hfails, written, status, hcopy, -⟩
      · rw [hcopy]
        dsimp only [Atomic]
        rw [Files.get_set, if_pos rfl]
        constructor
        · rintro ⟨-, mode, hset, hmode⟩
          obtain ⟨rfl, -⟩ := FileData.mk.inj (FileNode.file.inj (Option.some.inj hset))
          exact Or.inr ⟨hlasts, (permissions_iff _ _).mp hmode⟩
        · intro h
          obtain ⟨-, humask⟩ := h.resolve_left (not_not.mpr rfl)
          exact ⟨hfree, _, rfl, (permissions_iff _ _).mpr humask⟩
      · rw [hcopy]
        dsimp only [Atomic]
        rw [Files.get_set, if_pos rfl, hfree]
        refine ⟨fun h => ?_, fun h => ?_⟩
        · cases h.1
        · exact absurd (h.resolve_left (not_not.mpr rfl)).1 hfails

/-- A call that is handled, where the new name is taken. -/
theorem atomic_taken {node : FileNode FileData} (htaken : fs.get newName = some node) :
    Atomic source newName fs
      (match k.createFile (k.removeName fs newName) newName source.mode with
      | .error status => (.error status, k.removeName fs newName)
      | .ok new =>
          ((k.copy.copyContents source.content []).2,
            (k.removeName fs newName).set newName
              (.file ⟨new.mode, (k.copy.copyContents source.content []).1⟩))) ↔
      node.isDir = true ∨ k.unlinks = false := by
  unfold LinkHost.removeName
  rw [htaken, Option.all_some]
  by_cases hremoves : (k.unlinks && !node.isDir) = true
  · rw [if_pos hremoves]
    have hremoved : (fs.erase newName).get newName = none := by
      rw [Files.get_erase, if_pos rfl]
    rw [Bool.and_eq_true, Bool.not_eq_true'] at hremoves
    refine ⟨fun hatomic => ?_, fun h => ?_⟩
    · exfalso
      unfold LinkHost.createFile at hatomic
      rw [hremoved, if_neg (by decide)] at hatomic
      cases hrefuses : k.refuses with
      | some status =>
          rw [hrefuses] at hatomic
          have hsame := hatomic.1
          rw [hremoved, htaken] at hsame
          cases hsame
      | none =>
          rw [hrefuses] at hatomic
          have hcopy := k.copy.copyContents_spec source.content [] fun _ _ => Nat.zero_le _
          rcases hcopy with ⟨-, hcopy⟩ | ⟨-, written, status, hcopy, hstatus⟩
          · rw [hcopy] at hatomic
            have hnone := hatomic.1
            rw [htaken] at hnone
            cases hnone
          · rw [hcopy] at hatomic
            exact hstatus (hatomic.2 (by rw [htaken]; exact Option.some_ne_none node))
    · rw [hremoves.1, hremoves.2] at h
      rcases h with h | h
      · cases h
      · cases h
  · rw [if_neg hremoves]
    unfold LinkHost.createFile
    rw [htaken, if_pos (show (some node).isSome = true from rfl)]
    refine ⟨fun _ => ?_, fun _ => ⟨rfl, fun _ => rfl⟩⟩
    cases hdir : node.isDir with
    | true => exact Or.inl rfl
    | false =>
        rw [hdir, Bool.not_false, Bool.and_true, Bool.not_eq_true] at hremoves
        exact Or.inr hremoves

/-- **A name for a deleted file is made atomically as long as nothing fails on the way**: in each
other case the old name is gone or the new file is incomplete, but for a call that is left to the
usual treatment and misled there. -/
theorem linkat_deleted_iff {pid : Int} {n name : CStr}
    (hfd : fs.get (procPidFdPath pid ++ '/' :: n) = some (.link (name ++ deletedSuffix))) :
    (k.Kept source (procPidFdPath pid ++ '/' :: n) newName (name ++ deletedSuffix) fs →
      Atomic source newName fs (k.linkatEnd source (procPidFdPath pid ++ '/' :: n) newName fs)) ∧
    (Atomic source newName fs (k.linkatEnd source (procPidFdPath pid ++ '/' :: n) newName fs) →
      k.Kept source (procPidFdPath pid ++ '/' :: n) newName (name ++ deletedSuffix) fs ∨
        k.Misled (procPidFdPath pid ++ '/' :: n) newName (name ++ deletedSuffix) fs) := by
  by_cases hhandles : k.Handles (procPidFdPath pid ++ '/' :: n) newName (name ++ deletedSuffix)
  · rw [linkat_handled source pid n name hfd hhandles]
    cases hget : fs.get newName with
    | none =>
        rw [atomic_free hget]
        refine ⟨fun hkept => hkept.free hhandles hget, fun h => Or.inl ⟨fun _ _ => h, ?_, ?_⟩⟩
        · intro _ node hnode
          rw [hget] at hnode
          cases hnode
        · exact fun hleft => absurd hhandles hleft
    | some node =>
        rw [atomic_taken hget]
        refine ⟨fun hkept => hkept.taken hhandles node hget,
          fun h => Or.inl ⟨fun _ hfree => ?_, fun _ other hother => ?_, ?_⟩⟩
        · rw [hget] at hfree
          cases hfree
        · rwa [← Option.some.inj (hget.symm.trans hother)]
        · exact fun hleft => absurd hhandles hleft
  · by_cases hmisled : k.Misled (procPidFdPath pid ++ '/' :: n) newName (name ++ deletedSuffix) fs
    · exact ⟨fun hkept => absurd hmisled (hkept.left hhandles).2, fun _ => Or.inr hmisled⟩
    · obtain ⟨status, hlinkat, hstatus⟩ :=
        linkat_left (k := k) source hfd hhandles hmisled
      rw [hlinkat]
      refine ⟨fun hkept => ⟨rfl, fun htaken => absurd (hkept.left hhandles).1 htaken⟩, fun h => ?_⟩
      refine Or.inl ⟨fun h => absurd h hhandles, fun h => absurd h hhandles, fun _ => ⟨?_, hmisled⟩⟩
      by_contra htaken
      exact hstatus (h.2 htaken)

end

/-- A host where nothing fails. -/
def easyLinkHost : LinkHost where
  follow := true
  oldRead := true
  newRead := true
  opens := true
  unlinks := true
  refuses := none
  umask := 0o22
  copy := ⟨fun _ => 4096, fun _ => 4096, none, none, nofun⟩

theorem easyLinkHost_lasts (size : Nat) : easyLinkHost.copy.Lasts size := ⟨nofun, nofun⟩

/-- The file 5 of the process 1 is deleted, and "/d/g" is a file. -/
def deletedFiles : Files FileData :=
  [(procPidFdPath 1 ++ "/5".toList, .link ("/d/f".toList ++ deletedSuffix)),
    ("/d/g".toList, .file ⟨0o644, [1]⟩)]

theorem easyLinkHost_handles (newName : CStr) (h : newName.length < 10) :
    easyLinkHost.Handles (procPidFdPath 1 ++ '/' :: ['5']) newName
      ("/d/f".toList ++ deletedSuffix) :=
  ⟨rfl, ⟨rfl, rfl⟩, rfl, by decide, by decide, Nat.lt_trans (Nat.succ_lt_succ h) (by decide)⟩

/-- A file that has the new name is replaced. -/
theorem linkat_deleted_replaces :
    let source : FileData := ⟨0o644, [7]⟩
    let result :=
      easyLinkHost.linkatEnd source (procPidFdPath 1 ++ '/' :: ['5']) "/d/g".toList deletedFiles
    deletedFiles.get "/d/g".toList = some (.file ⟨0o644, [1]⟩) ∧ result.1 = .ok () ∧
      result.2.get "/d/g".toList = some (.file source) ∧
      ¬ Atomic source "/d/g".toList deletedFiles result := by
  intro source result
  have hget : deletedFiles.get "/d/g".toList = some (.file ⟨0o644, [1]⟩) := by decide
  have hresult := linkat_handled (k := easyLinkHost) source 1 ['5'] "/d/f".toList
    (show deletedFiles.get _ = _ by decide) (easyLinkHost_handles "/d/g".toList (by decide))
  have hcopy : easyLinkHost.copy.copyContents [7] [] = ([7], .ok ()) := by
    rcases easyLinkHost.copy.copyContents_spec [7] [] nofun with ⟨-, hcopy⟩ | ⟨hfails, -⟩
    · exact hcopy
    · exact absurd (easyLinkHost_lasts _) hfails
  have hcreate : easyLinkHost.createFile (easyLinkHost.removeName deletedFiles "/d/g".toList)
      "/d/g".toList 0o644 = .ok ⟨0o644, []⟩ := by decide
  refine ⟨hget, ?_, ?_, fun hatomic => ?_⟩
  · rw [show result = _ from hresult, hcreate]
    dsimp only
    rw [hcopy]
  · rw [show result = _ from hresult, hcreate]
    dsimp only
    rw [hcopy, Files.get_set, if_pos rfl]
  · rw [show result = _ from hresult, atomic_taken hget] at hatomic
    revert hatomic
    decide

/-- A name that is free. -/
theorem linkat_deleted_free :
    let source : FileData := ⟨0o644, [7]⟩
    let result :=
      easyLinkHost.linkatEnd source (procPidFdPath 1 ++ '/' :: ['5']) "/d/h".toList deletedFiles
    Atomic source "/d/h".toList deletedFiles result := by
  intro source result
  have hhandles := easyLinkHost_handles "/d/h".toList (by decide)
  refine (linkat_deleted_iff (k := easyLinkHost) (by decide)).1
    ⟨fun _ _ => Or.inr ⟨easyLinkHost_lasts _, by decide⟩, fun _ node hnode => ?_,
      fun h => absurd hhandles h⟩
  rw [show deletedFiles.get "/d/h".toList = none by decide] at hnode
  cases hnode

end PRoot
