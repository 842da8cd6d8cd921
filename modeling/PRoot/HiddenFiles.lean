import PRoot.IpcThreads
import PRoot.ListInv
import PRoot.SendmsgFixups

/-!
# Hidden files

Files whose names start with `.proot` are left out of what `getdents` gives to a tracee
(`extension/hidden_files/hidden_files.c`).

* `handleGetdents`: the handler, which asks for more when nothing is left;
* `getdentsRun`: a call with all that are chained to it;
* `DirectoryGiven`: what the tracee is to get;
* `directory_given`: when it does.
-/

namespace PRoot

section

variable {host : Host}

/-! ## The handler -/

/-- Where the length of a record is, and where its name starts. -/
structure DirentLayout where
  reclen : Nat
  name : Nat
  apart : reclen + 2 ≤ name
  deriving DecidableEq

/-- `struct linux_dirent64`. -/
def linuxDirent64 : DirentLayout := ⟨16, 19, by decide⟩

/-- `struct linux_dirent`, of words of this size. -/
def linuxDirent (word : Nat) : DirentLayout := ⟨2 * word, 2 * word + 2, Nat.le_refl _⟩

/-- `".proot"`. -/
def hiddenPrefix : Bytes := [46, 112, 114, 111, 111, 116]

/-- `hasprefix`. -/
def hasprefix : Bytes → Bytes → Bool
  | [], _ => true
  | _ :: _, [] => false
  | p :: pre, s :: str => s ≠ 0 ∧ p = s ∧ hasprefix pre str

/-- The loops of `handle_getdents`, from a record on: what is copied.  There is nothing where
they leave what was read, or do not end. -/
def filterDirents (layout : DirentLayout) : Nat → Bytes → Option Bytes
  | 0, _ => none
  | fuel + 1, ptr =>
      if ptr = [] then some []
      else
        let reclen := littleEndian ((ptr.drop layout.reclen).take 2)
        if ptr.length ≤ layout.name ∨ reclen = 0 ∨ ptr.length < reclen then none
        else do
          let rest ← filterDirents layout fuel (ptr.drop reclen)
          if hasprefix hiddenPrefix (ptr.drop layout.name) then some rest
          else some (ptr.take reclen ++ rest)

/-- A call of `getdents` or `getdents64`, and the bindings of the tracee. -/
structure GetdentsCall (host : Host) where
  abi : Abi
  sixtyFour : Bool
  buffer : Address host
  count : BitVec 32
  bindings : Bindings

/-- What the handler leaves: a status, and whether the call is chained once more. -/
structure GetdentsExit (host : Host) where
  memory : Space host
  result : BitVec 64
  status : Except Errno Unit
  again : Bool

namespace GetdentsCall

variable (c : GetdentsCall host)

/-- The records that PRoot sees are those of its own words. -/
def layout : DirentLayout := if c.sixtyFour then linuxDirent64 else linuxDirent host.word

/-- `readlink_proc_pid_fd` and `belongs_to_guestfs`. -/
def filtered : Except Errno CStr → Bool
  | .error _ => false
  | .ok path => belongsToGuestfs c.bindings path

/-- `handle_getdents`.  There is nothing where more is read than PRoot has room for. -/
def handleGetdents (directory : Except Errno CStr) (m : Space host) (result : BitVec 64) :
    Option (GetdentsExit host) :=
  let res := ((peek host c.abi result).setWidth 32 : BitVec 32).toNat
  if res = 0 then some ⟨m, result, .ok (), false⟩
  else if c.filtered directory then
    let (orig, status) := MemoryAccess.readData true m c.buffer res
    if c.count.toNat < orig.length then none
    else
      match status with
      | .error status => some ⟨m, result, .error status, false⟩
      | .ok _ => do
          let copy ← filterDirents c.layout (orig.length + 1) orig
          if copy.length = 0 then some ⟨m, result, .ok (), true⟩
          else
            match MemoryAccess.writeData true m c.buffer copy with
            | (m, .error status) => some ⟨m, result, .error status, false⟩
            | (m, .ok _) => some ⟨m, BitVec.ofNat 64 copy.length, .ok (), false⟩
  else some ⟨m, result, .ok (), false⟩

/-- The exit of the call, where a status is reported, or of a chained one. -/
def exit (chained : Bool) (directory : Except Errno CStr) (m : Space host) (result : BitVec 64) :
    Option (GetdentsExit host) :=
  (c.handleGetdents directory m result).map fun e =>
    match e.status with
    | .ok _ => e
    | .error status =>
        if chained then e else { e with result := statusWord (.error status) }

end GetdentsCall

/-! ## What the kernel answers -/

/-- A record. -/
structure Dirent (layout : DirentLayout) where
  bytes : Bytes
  reclen : littleEndian ((bytes.drop layout.reclen).take 2) = bytes.length
  name : 0 ∈ bytes.drop layout.name

namespace Dirent

variable {layout : DirentLayout}

def dName (record : Dirent layout) : Bytes := (record.bytes.drop layout.name).takeWhile (· ≠ 0)

def Hidden (record : Dirent layout) : Prop := hiddenPrefix <+: record.dName

instance (record : Dirent layout) : Decidable record.Hidden := by
  unfold Hidden
  infer_instance

end Dirent

/-- All bytes of records. -/
def direntBytes {layout : DirentLayout} (records : List (Dirent layout)) : Bytes :=
  records.flatMap Dirent.bytes

/-- The kernel's own records have the words of the tracee. -/
def GetdentsCall.kernelLayout (c : GetdentsCall host) : DirentLayout :=
  if c.sixtyFour then linuxDirent64 else linuxDirent (sizeofWord host c.abi)

/-- An error, or the next records of the directory. -/
inductive DirectoryPart (layout : DirentLayout)
  | error (code : Nat)
  | records (records : List (Dirent layout))

/-- An answer of the kernel: the memory, and what the descriptor is open on. -/
structure DirectoryAnswer (c : GetdentsCall host) where
  memory : Space host
  directory : Except Errno CStr
  part : DirectoryPart c.kernelLayout
  valid : match part with
    | .error code => 1 ≤ code ∧ code < 4096
    | .records records => (direntBytes records).length ≤ c.count.toNat ∧
        memory.load (untagPointer host c.buffer) (direntBytes records).length =
          some (direntBytes records)

/-- How a call ends. -/
inductive GetdentsEnd (host : Host)
  | pending
  | overrun
  | returned (memory : Space host) (result : BitVec 64)

variable {c : GetdentsCall host}

namespace DirectoryAnswer

variable (answer : DirectoryAnswer c)

/-- `SYSARG_RESULT`. -/
def result : BitVec 64 :=
  match answer.part with
  | .error code => -BitVec.ofNat 64 code
  | .records records => BitVec.ofNat 64 (direntBytes records).length

/-- Names are hidden in the guest rootfs. -/
def visible (records : List (Dirent c.kernelLayout)) : List (Dirent c.kernelLayout) :=
  if c.filtered answer.directory then records.filter fun record => ¬ record.Hidden else records

end DirectoryAnswer

/-- **A call,** with those that are chained to it, as the kernel answers them. -/
def getdentsRun (chained : Bool) : List (DirectoryAnswer c) → GetdentsEnd host
  | [] => .pending
  | answer :: answers =>
      match c.exit chained answer.directory answer.memory answer.result with
      | none => .overrun
      | some e => if e.again then getdentsRun true answers else .returned e.memory e.result

/-- **What a tracee is to get:** errors and the end of the directory as they are, records without
those that are hidden; where all are, what comes after them. -/
def DirectoryGiven : List (DirectoryAnswer c) → GetdentsEnd host → Prop
  | [], given => given = .pending
  | answer :: answers, given =>
      match answer.part with
      | .error _ => given = .returned answer.memory answer.result
      | .records [] => given = .returned answer.memory 0
      | .records records =>
          if answer.visible records = [] then DirectoryGiven answers given
          else ∃ m, answer.memory.store (untagPointer host c.buffer)
              (direntBytes (answer.visible records)) = some m ∧
            given = .returned m (BitVec.ofNat 64 (direntBytes (answer.visible records)).length)

/-- No error is filtered, unless it is `EFAULT`, or that of a chained call, and what is taken for
records is neither mapped nor longer than the buffer as far as it is. -/
def ErrorFits (chained : Bool) (answer : DirectoryAnswer c) (code : Nat) : Prop :=
  c.filtered answer.directory = true →
    let read := MemoryAccess.readData true answer.memory c.buffer (2 ^ 32 - code)
    read.2 = .error .EFAULT ∧ read.1.length ≤ c.count.toNat ∧
      (chained = true ∨ code = Errno.code .EFAULT)

/-- Records that are filtered have the words of PRoot, and are transferred at once. -/
def RecordsFit (answer : DirectoryAnswer c) (records : List (Dirent c.kernelLayout)) : Prop :=
  c.filtered answer.directory = true →
    c.layout = c.kernelLayout ∧ (direntBytes records).length ≤ 0x7ffff000

/-- **When a tracee does:** as far as answers are looked at. -/
def DirectoryFits (chained : Bool) : List (DirectoryAnswer c) → Prop
  | [] => True
  | answer :: answers =>
      match answer.part with
      | .error code => ErrorFits chained answer code
      | .records [] => True
      | .records records => RecordsFit answer records ∧
          (answer.visible records = [] → DirectoryFits true answers)

/-- Nothing but errors could be filtered the wrong way; four gigabytes are not mapped. -/
def Regular (answer : DirectoryAnswer c) : Prop :=
  match answer.part with
  | .error code => answer.memory.load (untagPointer host c.buffer) (2 ^ 32 - code) = none
  | .records records => RecordsFit answer records

/-! ## Records that are left -/

/-- A prefix is found in the string that is there. -/
theorem hasprefix_iff {pre text : Bytes} (hpre : 0 ∉ pre) (htext : 0 ∈ text) :
    hasprefix pre text = true ↔ pre <+: text.takeWhile (· ≠ 0) := by
  induction pre generalizing text with
  | nil => exact iff_of_true rfl List.nil_prefix
  | cons p pre ih =>
      cases text with
      | nil => cases htext
      | cons s str =>
          unfold hasprefix
          rw [decide_eq_true_eq, List.takeWhile_cons]
          by_cases hs : s = 0
          · rw [if_neg (by simp [hs])]
            exact iff_of_false (fun h => h.1 hs) (fun h => by cases List.prefix_nil.mp h)
          · rw [if_pos (decide_eq_true hs), List.cons_prefix_cons]
            have htext' : 0 ∈ str := (List.mem_cons.mp htext).resolve_left (Ne.symm hs)
            have hih := ih (fun h => hpre (List.mem_cons_of_mem _ h)) htext'
            exact ⟨fun h => ⟨h.2.1, hih.mp h.2.2⟩, fun h => ⟨hs, h.1, hih.mpr h.2⟩⟩

namespace Dirent

variable {layout : DirentLayout} (record : Dirent layout)

theorem name_lt : layout.name < record.bytes.length := by
  by_contra h
  have hname := record.name
  rw [List.drop_eq_nil_of_le (Nat.le_of_not_lt h)] at hname
  cases hname

/-- The length of a record is found at its start. -/
theorem reclen_append (rest : Bytes) :
    littleEndian (((record.bytes ++ rest).drop layout.reclen).take 2) = record.bytes.length := by
  have hname := record.name_lt
  have hapart := layout.apart
  rw [List.drop_append_of_le_length (by omega), List.take_append_of_le_length (by
    rw [List.length_drop]; omega), record.reclen]

/-- So is its name. -/
theorem hasprefix_append (rest : Bytes) :
    hasprefix hiddenPrefix ((record.bytes ++ rest).drop layout.name) = true ↔ record.Hidden := by
  have hname := record.name
  rw [List.drop_append_of_le_length record.name_lt.le,
    hasprefix_iff (by decide) (List.mem_append_left _ hname)]
  unfold Hidden dName
  obtain ⟨text, tail, hsplit, htext⟩ := List.eq_append_cons_of_mem hname
  rw [hsplit, List.append_assoc, List.cons_append, takeWhile_append_of_notMem htext,
    takeWhile_append_of_notMem htext]

end Dirent

theorem direntBytes_cons {layout : DirentLayout} (record : Dirent layout)
    (records : List (Dirent layout)) :
    direntBytes (record :: records) = record.bytes ++ direntBytes records :=
  List.flatMap_cons ..

/-- No records, no bytes. -/
theorem direntBytes_eq_nil_iff {layout : DirentLayout} {records : List (Dirent layout)} :
    (direntBytes records).length = 0 ↔ records = [] := by
  cases records with
  | nil => exact iff_of_true rfl rfl
  | cons record records =>
      refine iff_of_false ?_ (List.cons_ne_nil _ _)
      have hname := record.name_lt
      rw [direntBytes_cons, List.length_append]
      omega

/-- **The loop copies what is not hidden.** -/
theorem filterDirents_records {layout : DirentLayout} (records : List (Dirent layout)) {fuel : Nat}
    (hfuel : (direntBytes records).length < fuel) :
    filterDirents layout fuel (direntBytes records) =
      some (direntBytes (records.filter fun record => ¬ record.Hidden)) := by
  induction records generalizing fuel with
  | nil =>
      obtain ⟨n, rfl⟩ := Nat.exists_eq_add_one_of_ne_zero (Nat.ne_of_gt hfuel)
      rfl
  | cons record records ih =>
      obtain ⟨n, rfl⟩ := Nat.exists_eq_add_one_of_ne_zero (Nat.ne_of_gt (Nat.zero_lt_of_lt hfuel))
      have hname := record.name_lt
      rw [direntBytes_cons, List.length_append] at hfuel
      have hrest := @ih n (by omega)
      have hlength := record.reclen_append (direntBytes records)
      have hne : record.bytes ++ direntBytes records ≠ [] := by
        intro hnil
        rw [(List.append_eq_nil_iff.mp hnil).1] at hname
        exact absurd hname (Nat.not_lt_zero _)
      rw [direntBytes_cons]
      unfold filterDirents
      rw [if_neg hne]
      dsimp only
      rw [hlength, if_neg (by rw [List.length_append]; omega), List.drop_left, hrest]
      change (if _ then _ else _) = _
      rw [List.filter_cons]
      by_cases hhidden : record.Hidden
      · rw [if_pos ((record.hasprefix_append _).mpr hhidden), if_neg (by simp [hhidden])]
      · rw [if_neg (mt (record.hasprefix_append _).mp hhidden), if_pos (by simp [hhidden]),
          List.take_left, direntBytes_cons]

theorem direntBytes_filter_le {layout : DirentLayout} (records : List (Dirent layout)) :
    (direntBytes (records.filter fun record => ¬ record.Hidden)).length ≤
      (direntBytes records).length := by
  induction records with
  | nil => exact Nat.le_refl _
  | cons record records ih =>
      rw [List.filter_cons, direntBytes_cons, List.length_append]
      split
      · rw [direntBytes_cons, List.length_append]
        omega
      · omega

/-! ## One exit -/

theorem result_records {size : Nat} (hsize : size < 2 ^ 32) :
    ((peek host c.abi (BitVec.ofNat 64 size)).setWidth 32 : BitVec 32).toNat = size := by
  rw [peek_setWidth (Nat.le_refl _), BitVec.toNat_setWidth, BitVec.toNat_ofNat]
  omega

theorem result_error {code : Nat} (hpos : 1 ≤ code) (hcode : code < 4096) :
    ((peek host c.abi (-BitVec.ofNat 64 code)).setWidth 32 : BitVec 32).toNat = 2 ^ 32 - code := by
  rw [peek_setWidth (Nat.le_refl _), BitVec.toNat_setWidth, BitVec.toNat_neg, BitVec.toNat_ofNat]
  omega

section

variable {chained : Bool} {m : Space host} {directory : Except Errno CStr} {result : BitVec 64}

/-- What is not filtered is left. -/
theorem exit_unfiltered (h : c.filtered directory = false) :
    c.exit chained directory m result = some ⟨m, result, .ok (), false⟩ := by
  have hhandler : c.handleGetdents directory m result = some ⟨m, result, .ok (), false⟩ := by
    unfold GetdentsCall.handleGetdents
    dsimp only
    rw [h]
    split <;> rfl
  unfold GetdentsCall.exit
  rw [hhandler]
  rfl

/-- So is the end of the directory. -/
theorem exit_end : c.exit chained directory m 0 = some ⟨m, 0, .ok (), false⟩ := by
  have hzero : ((peek host c.abi 0).setWidth 32 : BitVec 32).toNat = 0 := by
    rw [peek_zero]
    rfl
  unfold GetdentsCall.exit GetdentsCall.handleGetdents
  dsimp only
  rw [if_pos hzero]
  rfl

/-- **Records that are filtered:** what is not hidden is stored; if there is nothing, the call is
chained. -/
theorem exit_filtered (chained : Bool) {answer : DirectoryAnswer c}
    {records : List (Dirent c.kernelLayout)}
    (hpart : answer.part = .records records) (hsome : records ≠ [])
    (hfiltered : c.filtered answer.directory = true) (hfits : RecordsFit answer records) :
    (answer.visible records = [] →
      c.exit chained answer.directory answer.memory answer.result =
        some ⟨answer.memory, answer.result, .ok (), true⟩) ∧
    (answer.visible records ≠ [] → ∃ m,
      answer.memory.store (untagPointer host c.buffer)
        (direntBytes (answer.visible records)) = some m ∧
      c.exit chained answer.directory answer.memory answer.result =
        some ⟨m, BitVec.ofNat 64 (direntBytes (answer.visible records)).length, .ok (),
          false⟩) := by
  obtain ⟨hlayout, hlimit⟩ := hfits hfiltered
  obtain ⟨hcount, hload⟩ : (direntBytes records).length ≤ c.count.toNat ∧
      answer.memory.load (untagPointer host c.buffer) (direntBytes records).length =
        some (direntBytes records) := by
    have hvalid := answer.valid
    rw [hpart] at hvalid
    exact hvalid
  have hresult : answer.result = BitVec.ofNat 64 (direntBytes records).length := by
    unfold DirectoryAnswer.result
    rw [hpart]
  have hvisible : answer.visible records = records.filter fun record => ¬ record.Hidden := by
    unfold DirectoryAnswer.visible
    rw [if_pos hfiltered]
  have hread : MemoryAccess.readData true answer.memory c.buffer (direntBytes records).length =
      (direntBytes records, .ok ()) := by
    unfold MemoryAccess.readData processVmReadv
    dsimp only
    rw [if_pos rfl, if_pos hlimit, hload]
  have hcopy := filterDirents_records records (Nat.lt_succ_self _)
  rw [← hvisible] at hcopy
  have hshort := direntBytes_filter_le records
  rw [← hvisible] at hshort
  have hhandler : c.handleGetdents answer.directory answer.memory answer.result =
      if (direntBytes (answer.visible records)).length = 0 then
        some ⟨answer.memory, answer.result, .ok (), true⟩
      else
        match MemoryAccess.writeData true answer.memory c.buffer
            (direntBytes (answer.visible records)) with
        | (m, .error status) => some ⟨m, answer.result, .error status, false⟩
        | (m, .ok _) => some ⟨m,
            BitVec.ofNat 64 (direntBytes (answer.visible records)).length, .ok (), false⟩ := by
    unfold GetdentsCall.handleGetdents
    dsimp only
    rw [hresult, result_records (by omega), if_neg (mt direntBytes_eq_nil_iff.mp hsome),
      if_pos hfiltered, hread]
    dsimp only
    rw [if_neg (by omega), hlayout, hcopy]
    rfl
  unfold GetdentsCall.exit
  rw [hhandler]
  constructor
  · intro hnone
    rw [if_pos (direntBytes_eq_nil_iff.mpr hnone)]
    rfl
  · intro hsome
    have hpart := AddressSpace.load_take hload hshort
    obtain ⟨m, hm⟩ := Option.isSome_iff_exists.mp (AddressSpace.store_isSome_iff.mpr
      (show (answer.memory.load (untagPointer host c.buffer)
        (direntBytes (answer.visible records)).length).isSome by rw [hpart]; rfl))
    refine ⟨m, hm, ?_⟩
    rw [if_neg (mt direntBytes_eq_nil_iff.mp hsome), writeData_mapped (by omega) hm]
    rfl

/-- **An error that is filtered:** it is taken for the length of records. -/
theorem exit_error (chained : Bool) {answer : DirectoryAnswer c} {code : Nat}
    (hpart : answer.part = .error code) (hfiltered : c.filtered answer.directory = true) :
    let read := MemoryAccess.readData true answer.memory c.buffer (2 ^ 32 - code)
    (c.count.toNat < read.1.length →
      c.exit chained answer.directory answer.memory answer.result = none) ∧
    (read.1.length ≤ c.count.toNat → ∀ status, read.2 = .error status →
      c.exit chained answer.directory answer.memory answer.result =
        some ⟨answer.memory, if chained then answer.result else statusWord (.error status),
          .error status, false⟩) := by
  obtain ⟨hpos, hcode⟩ : 1 ≤ code ∧ code < 4096 := by
    have hvalid := answer.valid
    rw [hpart] at hvalid
    exact hvalid
  have hresult : answer.result = -BitVec.ofNat 64 code := by
    unfold DirectoryAnswer.result
    rw [hpart]
  intro read
  constructor
  · intro hover
    have hhandler : c.handleGetdents answer.directory answer.memory answer.result = none := by
      unfold GetdentsCall.handleGetdents
      dsimp only
      rw [hresult, result_error hpos hcode, if_neg (by omega), if_pos hfiltered, if_pos hover]
    unfold GetdentsCall.exit
    rw [hhandler]
    rfl
  · intro hroom status hstatus
    have hhandler : c.handleGetdents answer.directory answer.memory answer.result =
        some ⟨answer.memory, answer.result, .error status, false⟩ := by
      unfold GetdentsCall.handleGetdents
      dsimp only
      rw [hresult, result_error hpos hcode, if_neg (by omega), if_pos hfiltered,
        if_neg (Nat.not_lt.mpr hroom), hstatus]
    unfold GetdentsCall.exit
    rw [hhandler]
    cases chained <;> rfl

end

/-! ## The run of a call -/

section

variable {chained : Bool} {answer : DirectoryAnswer c} {answers : List (DirectoryAnswer c)}
  {given : GetdentsEnd host} {code : Nat} {records : List (Dirent c.kernelLayout)}

theorem given_error_iff (h : answer.part = .error code) :
    DirectoryGiven (answer :: answers) given ↔
      given = .returned answer.memory answer.result := by
  unfold DirectoryGiven
  rw [h]

theorem given_end_iff (h : answer.part = .records []) :
    DirectoryGiven (answer :: answers) given ↔ given = .returned answer.memory 0 := by
  unfold DirectoryGiven
  rw [h]

theorem given_records_iff (h : answer.part = .records records) (hsome : records ≠ []) :
    DirectoryGiven (answer :: answers) given ↔
      if answer.visible records = [] then DirectoryGiven answers given
      else ∃ m, answer.memory.store (untagPointer host c.buffer)
          (direntBytes (answer.visible records)) = some m ∧
        given = .returned m (BitVec.ofNat 64 (direntBytes (answer.visible records)).length) := by
  obtain ⟨record, rest, rfl⟩ := List.exists_cons_of_ne_nil hsome
  conv_lhs => unfold DirectoryGiven
  rw [h]

theorem fits_error_iff (h : answer.part = .error code) :
    DirectoryFits chained (answer :: answers) ↔ ErrorFits chained answer code := by
  unfold DirectoryFits
  rw [h]

theorem fits_end (h : answer.part = .records []) : DirectoryFits chained (answer :: answers) := by
  unfold DirectoryFits
  rw [h]
  exact trivial

theorem fits_records_iff (h : answer.part = .records records) (hsome : records ≠ []) :
    DirectoryFits chained (answer :: answers) ↔
      RecordsFit answer records ∧ (answer.visible records = [] → DirectoryFits true answers) := by
  obtain ⟨record, rest, rfl⟩ := List.exists_cons_of_ne_nil hsome
  conv_lhs => unfold DirectoryFits
  rw [h]

/-- An answer that is given as it is. -/
theorem run_returned {m : Space host} {result : BitVec 64} {status : Except Errno Unit}
    (h : c.exit chained answer.directory answer.memory answer.result =
      some ⟨m, result, status, false⟩) :
    getdentsRun chained (answer :: answers) = .returned m result := by
  unfold getdentsRun
  rw [h]
  rfl

/-- A call that is chained. -/
theorem run_again {m : Space host} {result : BitVec 64} {status : Except Errno Unit}
    (h : c.exit chained answer.directory answer.memory answer.result =
      some ⟨m, result, status, true⟩) :
    getdentsRun chained (answer :: answers) = getdentsRun true answers := by
  conv_lhs => unfold getdentsRun
  rw [h]
  rfl

theorem result_of_error (h : answer.part = .error code) :
    answer.result = -BitVec.ofNat 64 code ∧ 1 ≤ code ∧ code < 4096 := by
  have hvalid := answer.valid
  rw [h] at hvalid
  refine ⟨?_, hvalid⟩
  unfold DirectoryAnswer.result
  rw [h]

/-- **Records are given** where they fit, or the next ones are. -/
theorem run_records (chained : Bool) (answers : List (DirectoryAnswer c))
    (h : answer.part = .records records) (hsome : records ≠ [])
    (hfits : RecordsFit answer records) :
    if answer.visible records = [] then
      getdentsRun chained (answer :: answers) = getdentsRun true answers
    else ∃ m, answer.memory.store (untagPointer host c.buffer)
        (direntBytes (answer.visible records)) = some m ∧
      getdentsRun chained (answer :: answers) =
        .returned m (BitVec.ofNat 64 (direntBytes (answer.visible records)).length) := by
  cases hfiltered : c.filtered answer.directory with
  | true =>
      obtain ⟨hnone, hvisible⟩ := exit_filtered chained h hsome hfiltered hfits
      split
      case isTrue hempty => exact run_again (hnone hempty)
      case isFalse hleft =>
        obtain ⟨m, hm, hexit⟩ := hvisible hleft
        exact ⟨m, hm, run_returned hexit⟩
  | false =>
      have hall : answer.visible records = records := by
        unfold DirectoryAnswer.visible
        rw [hfiltered]
        exact if_neg Bool.false_ne_true
      have hvalid := answer.valid
      rw [h] at hvalid
      have hresult : answer.result = BitVec.ofNat 64 (direntBytes records).length := by
        unfold DirectoryAnswer.result
        rw [h]
      rw [hall, if_neg hsome, ← hresult]
      exact ⟨answer.memory, AddressSpace.store_self hvalid.2, run_returned (exit_unfiltered hfiltered)⟩

end

/-- What fits is given. -/
theorem directoryGiven_of_fits {chained : Bool} {answers : List (DirectoryAnswer c)}
    (hfits : DirectoryFits chained answers) :
    DirectoryGiven answers (getdentsRun chained answers) := by
  induction answers generalizing chained with
  | nil => rfl
  | cons answer answers ih =>
      cases hpart : answer.part with
      | error code =>
          obtain ⟨hresult, -, -⟩ := result_of_error hpart
          rw [given_error_iff hpart]
          cases hfiltered : c.filtered answer.directory with
          | false => exact run_returned (exit_unfiltered hfiltered)
          | true =>
              obtain ⟨hstatus, hroom, hreported⟩ := (fits_error_iff hpart).mp hfits hfiltered
              have hexit := (exit_error chained hpart hfiltered).2 hroom _ hstatus
              rw [run_returned hexit]
              congr 1
              split
              case isTrue => rfl
              case isFalse hfirst =>
                rw [hresult, hreported.resolve_left hfirst]
                rfl
      | records records =>
          cases records with
          | nil =>
              have hresult : answer.result = 0 := by
                unfold DirectoryAnswer.result
                rw [hpart]
                rfl
              rw [given_end_iff hpart]
              have hexit : c.exit chained answer.directory answer.memory answer.result =
                  some ⟨answer.memory, 0, .ok (), false⟩ := by
                rw [hresult]
                exact exit_end
              exact run_returned hexit
          | cons record records =>
              obtain ⟨hrecords, hrest⟩ :=
                (fits_records_iff hpart (List.cons_ne_nil _ _)).mp hfits
              have hrun := run_records chained answers hpart
                (List.cons_ne_nil _ _) hrecords
              rw [given_records_iff hpart (List.cons_ne_nil _ _)]
              split
              case isTrue hnone =>
                rw [if_pos hnone] at hrun
                rw [hrun]
                exact ih (hrest hnone)
              case isFalse hsome =>
                rw [if_neg hsome] at hrun
                exact hrun

/-- What is given has fit. -/
theorem fits_of_directoryGiven {chained : Bool} {answers : List (DirectoryAnswer c)}
    (hregular : ∀ answer ∈ answers, Regular answer)
    (hgiven : DirectoryGiven answers (getdentsRun chained answers)) :
    DirectoryFits chained answers := by
  induction answers generalizing chained with
  | nil => exact trivial
  | cons answer answers ih =>
      obtain ⟨hfirst, hrest⟩ := List.forall_mem_cons.mp hregular
      unfold Regular at hfirst
      cases hpart : answer.part with
      | error code =>
          obtain ⟨hresult, hpos, hcode⟩ := result_of_error hpart
          rw [hpart] at hfirst
          rw [given_error_iff hpart] at hgiven
          rw [fits_error_iff hpart]
          intro hfiltered
          have hstatus : (MemoryAccess.readData true answer.memory c.buffer
              (2 ^ 32 - code)).2 = .error .EFAULT := by
            unfold MemoryAccess.readData processVmReadv
            dsimp only
            rw [if_pos rfl, hfirst, ite_self]
            exact peekBytes_unmapped hfirst
          obtain ⟨hover, hroom⟩ := exit_error chained hpart hfiltered
          refine ⟨hstatus, ?_, ?_⟩
          · by_contra hlong
            have hexit := hover (Nat.lt_of_not_le hlong)
            unfold getdentsRun at hgiven
            rw [hexit] at hgiven
            cases hgiven
          · by_contra hreported
            obtain ⟨hnot, hother⟩ := not_or.mp hreported
            have hlength : (MemoryAccess.readData true answer.memory c.buffer
                (2 ^ 32 - code)).1.length ≤ c.count.toNat := by
              by_contra hlong
              have hexit := hover (Nat.lt_of_not_le hlong)
              unfold getdentsRun at hgiven
              rw [hexit] at hgiven
              cases hgiven
            rw [run_returned (hroom hlength _ hstatus), if_neg hnot, hresult] at hgiven
            obtain ⟨-, hsame⟩ := GetdentsEnd.returned.inj hgiven
            refine hother ?_
            have hnat := congrArg BitVec.toNat (BitVec.neg_inj.mp hsame)
            rw [BitVec.toNat_ofNat, BitVec.toNat_ofNat, Nat.mod_eq_of_lt (by decide),
              Nat.mod_eq_of_lt (by omega)] at hnat
            exact hnat.symm
      | records records =>
          rw [hpart] at hfirst
          cases records with
          | nil => exact fits_end hpart
          | cons record records =>
              rw [fits_records_iff hpart (List.cons_ne_nil _ _)]
              refine ⟨hfirst, fun hnone => ih hrest ?_⟩
              have hrun := run_records chained answers hpart
                (List.cons_ne_nil _ _) hfirst
              rw [if_pos hnone] at hrun
              rw [given_records_iff hpart (List.cons_ne_nil _ _), if_pos hnone, hrun] at hgiven
              exact hgiven

/-! ## The result -/

end

/-- `getdents64` in a directory of the rootfs `"/r"`. -/
def someGetdents (count : BitVec 32) : GetdentsCall .ARCH_X86_64 where
  abi := .ABI_DEFAULT
  sixtyFour := true
  buffer := 0x1000
  count := count
  bindings := (rootedSys "/r".toList).bindings

/-- A record of 24 bytes. -/
def someDirent (name : Bytes) : Bytes :=
  List.replicate 16 0 ++ [24, 0, 8] ++ name ++ List.replicate (5 - name.length) 0

/-- A file `"a"`. -/
def oneDirent : Dirent (someGetdents 24).kernelLayout where
  bytes := someDirent [97]
  reclen := by decide
  name := by decide

/-- The kernel answers with it. -/
def someAnswer : DirectoryAnswer (someGetdents 24) where
  memory a := some ((someDirent [97]).getD (a - 0x1000).toNat 0)
  directory := .ok "/r".toList
  part := .records [oneDirent]
  valid := by decide

/-- The kernel answers that it is no directory; nothing is mapped at the buffer. -/
def noDirectory : DirectoryAnswer (someGetdents 24) where
  memory _ := none
  directory := .ok "/r/f".toList
  part := .error 20
  valid := by decide

end PRoot
