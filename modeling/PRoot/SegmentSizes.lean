import PRoot.PageMasks
import PRoot.Proc
import PRoot.SharedMemory

/-!
# The sizes of segments

`sysvipc_shm_fill_proc` (`extension/sysvipc/sysvipc_shm.c`): what `/proc/sysvipc/shm` says of the
segments, and how much of them is resident.

* `sysvipcShmFillProc`: the file;
* `SizesAgree`: the resident size is the size that is mapped;
* `sizesAgree_iff`: when it is.
-/

namespace PRoot

/-- A line of `/proc/sysvipc/shm`, without the columns that are always 0. -/
structure ShmProcRow where
  key : Int
  shmid : Int
  perms : Nat
  size : Nat
  cpid : Nat
  nattch : Nat
  rss : Nat
  deriving DecidableEq, Repr

/-- A column of a line. -/
def shmColumn (width : Nat) (text : CStr) : CStr := text.leftpad width ' ' ++ [' ']

/-- The format of a line. -/
def ShmProcRow.text (row : ShmProcRow) : CStr :=
  shmColumn 10 (formatInt row.key) ++ shmColumn 10 (formatInt row.shmid) ++
    ' ' :: shmColumn 4 (Nat.toDigits 8 row.perms) ++ shmColumn 21 (formatInt row.size) ++
    shmColumn 5 (formatInt row.cpid) ++ shmColumn 5 (formatInt 0) ++
    ' ' :: shmColumn 5 (formatInt row.nattch) ++ shmColumn 5 (formatInt 0) ++
    shmColumn 5 (formatInt 0) ++ shmColumn 5 (formatInt 0) ++ shmColumn 5 (formatInt 0) ++
    shmColumn 10 (formatInt 0) ++ shmColumn 10 (formatInt 0) ++ shmColumn 10 (formatInt 0) ++
    shmColumn 21 (formatInt row.rss) ++ (formatInt 0).leftpad 21 ' ' ++ ['\n']

/-- The first line. -/
def shmProcHeader : CStr :=
  ("       key      shmid perms                  size  cpid  lpid nattch   uid   gid  cuid  cgid" ++
    "      atime      dtime      ctime                   rss                  swap\n").toList

namespace IpcSystem

variable (sys : IpcSystem) (pageSize : BitVec 64)

/-- `map_size`, as `sysvipc_shm_fill_proc` computes it. -/
def residentSize (segment : Segment) : BitVec 64 :=
  (segment.shmSegsz + (pageSize - 1)) &&& ~~~pageSize

/-- The line of a segment. -/
def procRow (index : Nat) : ShmProcRow :=
  let segment := sys.segmentAt index
  { key := ((sys.shms[index]?).elim 0 fun object => object.content.key).toInt
    shmid := (ipcObjectId index (Slot.generationAt sys.shms index)).toInt
    perms := segment.mode.toNat
    size := segment.shmSegsz.toNat
    cpid := (BitVec.ofInt 32 segment.shmCpid).toNat
    nattch := sys.nattch index
    rss := (residentSize pageSize segment).toNat }

/-- The loop of `sysvipc_shm_fill_proc`. -/
def procRows : List ShmProcRow :=
  ((List.range sys.shms.length).filter (Slot.live sys.shms)).map (sys.procRow pageSize)

/-- `sysvipc_shm_fill_proc`. -/
def sysvipcShmFillProc : CStr :=
  shmProcHeader ++ (sys.procRows pageSize).flatMap ShmProcRow.text

/-- A thread that got the descriptor of a segment is to map that many bytes. -/
def MapsWith (index : Nat) (length : BitVec 64) : Prop :=
  ∀ (t : IpcThread) (result : BitVec 64) (answers : StopAnswers) (fd : BitVec 64),
    t.config.waitingObjectIndex = index → t.chainState = .CSTATE_SHMAT_RECVMSG →
    answers.received = some fd → fd.toNat ≤ 0xFFFF → answers.pageSize = pageSize →
    sys.shmatChain t result answers =
      some (sys.modify t.config.pid fun t =>
        { t.registerChained (.mmap length fd) with
          shmatMemFd := fd, chainState := .CSTATE_SHMAT_MMAP }, true)

/-- **What is reported for a segment is what is mapped**: the least multiple of the page size that
is not below its size. -/
structure SizesAgree (index : Nat) : Prop where
  same : (sys.procRow pageSize index).rss = (mapSize (sys.segmentAt index) pageSize).toNat
  least : IsLeast {length | pageSize.toNat ∣ length ∧ (sys.segmentAt index).shmSegsz.toNat ≤ length}
    (mapSize (sys.segmentAt index) pageSize).toNat

section

variable {sys} {pageSize} {index k : Nat}

/-- The step of a `shmat` that maps. -/
theorem mapsWith_mapSize (hlive : Slot.live sys.shms index = true) :
    sys.MapsWith pageSize index (mapSize (sys.segmentAt index) pageSize) := by
  intro t result answers fd hindex hstate hreceived hfd hpage
  have hfits : ¬ fd.toNat > 0xFFFF := Nat.not_lt.mpr hfd
  unfold shmatChain
  simp only [hindex, hlive, hstate, hreceived, hpage, not_true, if_false, if_neg hfits]

/-- Each segment has its line. -/
theorem procRow_mem (hlive : Slot.live sys.shms index = true) :
    sys.procRow pageSize index ∈ sys.procRows pageSize := by
  refine List.mem_map_of_mem (List.mem_filter.mpr ⟨?_, hlive⟩)
  exact List.mem_range.mpr (Slot.live_lt hlive)

/-- The size plus a page less one byte, where that is a word. -/
theorem grown_toNat (hk : k < 64) {size : BitVec 64} (hsum : size.toNat + (2 ^ k - 1) < 2 ^ 64) :
    (size + (BitVec.twoPow 64 k - 1)).toNat = size.toNat + (2 ^ k - 1) := by
  rw [BitVec.toNat_add, PageMasks.toNat_twoPow_sub_one hk, Nat.mod_eq_of_lt hsum]

/-- Rounding up gives the least multiple, where nothing overflows. -/
theorem mapSize_least_iff (hk : k < 64) (segment : Segment) :
    IsLeast {length | (BitVec.twoPow 64 k).toNat ∣ length ∧ segment.shmSegsz.toNat ≤ length}
        (mapSize segment (BitVec.twoPow 64 k)).toNat ↔
      segment.shmSegsz.toNat + (2 ^ k - 1) < 2 ^ 64 := by
  have hpos := Nat.two_pow_pos k
  have hmap : (mapSize segment (BitVec.twoPow 64 k)).toNat =
      (segment.shmSegsz + (BitVec.twoPow 64 k - 1)).toNat / 2 ^ k * 2 ^ k :=
    PageMasks.toNat_and_above hk _
  rw [hmap, BitVec.toNat_twoPow_of_lt hk]
  constructor
  · intro hleast
    by_contra hover
    -- the sum wraps to less than a page, which is rounded down to nothing
    have hpage : 2 ^ k < 2 ^ 64 := Nat.pow_lt_pow_right (by decide) hk
    have hwrapped : (segment.shmSegsz + (BitVec.twoPow 64 k - 1)).toNat < 2 ^ k := by
      rw [BitVec.toNat_add, PageMasks.toNat_twoPow_sub_one hk]
      omega
    have hle := hleast.1.2
    rw [Nat.div_eq_of_lt hwrapped] at hle
    omega
  · intro hsum
    rw [grown_toNat hk hsum]
    exact PageMasks.roundedUp_isLeast hpos _

/-- **The sizes agree where the size and a page less one byte are a multiple of two pages**, and
a word. -/
theorem sizesAgree_iff (hlive : Slot.live sys.shms index = true) (hk : k < 64)
    (hpage : pageSize = BitVec.twoPow 64 k) :
    sys.procRow pageSize index ∈ sys.procRows pageSize ∧
      sys.MapsWith pageSize index (mapSize (sys.segmentAt index) pageSize) ∧
      (sys.SizesAgree pageSize index ↔
        (sys.segmentAt index).shmSegsz.toNat + (2 ^ k - 1) < 2 ^ 64 ∧
        2 ^ (k + 1) ∣ (sys.segmentAt index).shmSegsz.toNat + (2 ^ k - 1)) := by
  subst hpage
  refine ⟨procRow_mem hlive, mapsWith_mapSize hlive, ?_⟩
  have hsame : ∀ segment : Segment,
      segment.shmSegsz.toNat + (2 ^ k - 1) < 2 ^ 64 →
      ((residentSize (BitVec.twoPow 64 k) segment).toNat =
          (mapSize segment (BitVec.twoPow 64 k)).toNat ↔
        2 ^ (k + 1) ∣ segment.shmSegsz.toNat + (2 ^ k - 1)) := by
    intro segment hsum
    rw [← grown_toNat hk hsum, ← PageMasks.and_not_twoPow_eq_iff hk, ← BitVec.toNat_inj]
    rfl
  constructor
  · intro hagree
    have hsum := (mapSize_least_iff hk _).mp hagree.least
    exact ⟨hsum, (hsame _ hsum).mp hagree.same⟩
  · rintro ⟨hsum, hdvd⟩
    exact ⟨(hsame _ hsum).mpr hdvd, (mapSize_least_iff hk _).mpr hsum⟩

/-- A namespace where one segment was created. -/
def withSegment (size : BitVec 64) : IpcSystem := ((initial 1 1).shmget 1 0 size ipcCreat 5).1

/-- A page and a byte, for which two pages are mapped. -/
theorem page_and_byte_agree : (withSegment 4097).SizesAgree 4096 0 :=
  (@sizesAgree_iff (withSegment 4097) 4096 0 12 (by decide) (by decide) (by decide)).2.2.mpr
    (by decide)

/-- A segment of one page: 4095 bytes of it are resident. -/
theorem page_disagrees : ¬ ∀ (sys : IpcSystem) (pageSize : BitVec 64) (index k : Nat),
    Slot.live sys.shms index = true → k < 64 → pageSize = BitVec.twoPow 64 k →
      sys.SizesAgree pageSize index := by
  intro h
  have hagree := h (withSegment 4096) 4096 0 12 (by decide) (by decide) (by decide)
  have hreported : ((withSegment 4096).procRow 4096 0).rss = 4095 := by decide
  have hmapped : (mapSize ((withSegment 4096).segmentAt 0) 4096).toNat = 4096 := by decide
  have hsame := hagree.same
  rw [hreported, hmapped] at hsame
  exact absurd hsame (by decide)

end

end IpcSystem

end PRoot
