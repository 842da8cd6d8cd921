import PRoot.ExecveFailures
import PRoot.SegmentMemory

/-!
# Segments are loaded

What the mappings of a list of segments make of the memory of a loader.

* `segment_runs`, `segment_faults`: the mappings of one segment;
* `segments_mapped_iff`: those of all of them.
-/

namespace PRoot

namespace Loader

section

variable {K : ExecHost} {header : ElfHeader} {segment : ProgramHeader} {size k n : Nat}

/-! ## Where the pages of a segment are in its file -/

/-- A range in a file and in memory that start at the same place of a page. -/
theorem page_of_offset {P start offset : Nat} (hP : 0 < P) (h : offset % P = start % P) (i : Nat) :
    (offset + i) / P + start / P = offset / P + (start + i) / P := by
  have hstart := Nat.div_add_mod' start P
  have hoffset := Nat.div_add_mod' offset P
  have hsum : offset + i + start / P * P = start + i + offset / P * P := by omega
  have hdiv := congrArg (· / P) hsum
  simp only [Nat.add_mul_div_right _ _ hP] at hdiv
  omega

theorem offset_of_page (h : (segment.offset header).toNat % 2 ^ k =
      (segment.vaddr header).toNat % 2 ^ k) (i : Nat) :
    pageStart k (segment.offset header).toNat
        + ((segment.vaddr header).toNat + i - pageStart k (segment.vaddr header).toNat) =
      (segment.offset header).toNat + i := by
  have hstart := Nat.div_add_mod' (segment.vaddr header).toNat (2 ^ k)
  have hoffset := Nat.div_add_mod' (segment.offset header).toNat (2 ^ k)
  unfold pageStart
  omega

/-- The loaders give the kernel offsets in its own unit. -/
theorem shifted_offset (hk : 12 ≤ k) {offset : Word size}
    (h : offset.toNat = pageStart k n) :
    (offset >>> mmapOffsetShift size).toNat * 2 ^ mmapOffsetShift size = pageStart k n := by
  have hshift : mmapOffsetShift size ≤ k := by
    unfold mmapOffsetShift
    split <;> omega
  have hdvd : 2 ^ mmapOffsetShift size ∣ pageStart k n :=
    Nat.dvd_trans (Nat.pow_dvd_pow 2 hshift) (Nat.dvd_mul_left _ _)
  rw [BitVec.toNat_ushiftRight, Nat.shiftRight_eq_div_pow, h, Nat.div_mul_cancel hdvd]

/-- A number of whole pages. -/
theorem rounded_pages {a b : Nat} (ha : a % 2 ^ k = 0) (hb : b % 2 ^ k = 0) (hle : a ≤ b) :
    a + (b - a + (2 ^ k - 1)) / 2 ^ k * 2 ^ k = b := by
  have hdvd : 2 ^ k ∣ b - a :=
    Nat.dvd_sub (Nat.dvd_of_mod_eq_zero hb) (Nat.dvd_of_mod_eq_zero ha)
  obtain ⟨pages, hpages⟩ := hdvd
  have hround : (b - a + (2 ^ k - 1)) / 2 ^ k = pages := by
    have hpos := Nat.two_pow_pos k
    rw [hpages, Nat.mul_add_div hpos, Nat.div_eq_of_lt (by omega), Nat.add_zero]
  rw [hround, Nat.mul_comm, ← hpages]
  omega

/-! ## The memory after a mapping -/

section

variable {memory : LoaderMemory size} {addr length prot x : Word size} {stop : Nat}
  {pages : Nat → Option (BitVec 8)}

/-- The pages that are mapped are those from the address to the end of the range. -/
theorem mapPages_of_within (haddr : addr.toNat % 2 ^ k = 0) (hstop : stop % 2 ^ k = 0)
    (hlength : length.toNat = stop - addr.toNat) (hle : addr.toNat ≤ stop)
    (hx : Within addr.toNat stop x) :
    (memory.mapPages (2 ^ k) addr length prot pages).space x = pages (x.toNat - addr.toNat) ∧
      (memory.mapPages (2 ^ k) addr length prot pages).prot x = prot := by
  unfold LoaderMemory.mapPages
  rw [hlength, rounded_pages haddr hstop hle]
  exact ⟨if_pos hx, if_pos hx⟩

theorem mapPages_of_not_within (haddr : addr.toNat % 2 ^ k = 0) (hstop : stop % 2 ^ k = 0)
    (hlength : length.toNat = stop - addr.toNat) (hle : addr.toNat ≤ stop)
    (hx : ¬ Within addr.toNat stop x) :
    (memory.mapPages (2 ^ k) addr length prot pages).space x = memory.space x ∧
      (memory.mapPages (2 ^ k) addr length prot pages).prot x = memory.prot x := by
  unfold LoaderMemory.mapPages
  rw [hlength, rounded_pages haddr hstop hle]
  exact ⟨if_neg hx, if_neg hx⟩

theorem zeroed_of_within {start : Nat} (hx : Within start stop x) :
    (memory.zeroed start stop).space x = some 0 := if_pos hx

theorem zeroed_of_not_within {start : Nat} (hx : ¬ Within start stop x) :
    (memory.zeroed start stop).space x = memory.space x := if_neg hx

end

/-- The flags of a mapping of the file, and of new pages. -/
theorem flags_anonymous (hsize : LoaderSize K size) :
    (0x12 : Word size) &&& 0x20 = 0 ∧ (0x32 : Word size) &&& 0x20 ≠ 0 := by
  obtain rfl | rfl := hsize.cases <;> decide

theorem fileMapping_flags : (fileMapping K header segment).flags &&& 0x20 = 0 := by
  change (0x02 ||| 0x10 : BitVec 64) &&& 0x20 = 0
  decide

theorem anonymousMapping_flags : (anonymousMapping K header segment).flags &&& 0x20 ≠ 0 := by
  change (0x02 ||| 0x20 ||| 0x10 : BitVec 64) &&& 0x20 ≠ 0
  decide

/-- A segment that asks for it can be written. -/
theorem segmentProt_write (hsize : LoaderSize K size) :
    (segmentProt header segment).setWidth (8 * size) &&& 2 ≠ 0 ↔
      segment.flags header &&& 2 ≠ 0 := by
  unfold segmentProt
  obtain rfl | rfl := hsize.cases <;>
    by_cases hread : segment.flags header &&& 4 ≠ 0 <;>
    by_cases hwrite : segment.flags header &&& 2 ≠ 0 <;>
    by_cases hexec : segment.flags header &&& 1 ≠ 0 <;>
    simp only [hread, hwrite, hexec, if_true, if_false, iff_true, iff_false, not_false_eq_true,
      ne_eq] <;> decide

variable (k) in
/-- The memory after the mapping of the file. -/
def fileMapped (K : ExecHost) (header : ElfHeader) (segment : ProgramHeader) (content : Bytes)
    (memory : LoaderMemory size) : LoaderMemory size :=
  memory.mapPages (2 ^ k) ((fileMapping K header segment).addr.setWidth _)
    ((fileMapping K header segment).length.setWidth _) ((segmentProt header segment).setWidth _)
    fun i => filePages (2 ^ k) content (pageStart k (segment.offset header).toNat + i)

variable {content : Bytes} {memory : LoaderMemory size} {x : Word size}

section

variable (hk : K.pageSize.toNat = 2 ^ k) (hsize : LoaderSize K size)
  (hmap : Mappable K header segment size)

include hk hsize hmap

theorem fileMapped_of_within
    (hx : Within (pageStart k (segment.vaddr header).toNat)
      (pageEnd k (fileStop header segment)) x) :
    (fileMapped k K header segment content memory).space x =
        filePages (2 ^ k) content (pageStart k (segment.offset header).toNat
          + (x.toNat - pageStart k (segment.vaddr header).toNat)) ∧
      (fileMapped k K header segment content memory).prot x =
        (segmentProt header segment).setWidth _ := by
  have haddr := narrow_addr hk hsize hmap
  have hx' := hx
  rw [← haddr] at hx'
  have h : (fileMapped k K header segment content memory).space x = _ ∧
      (fileMapped k K header segment content memory).prot x = _ :=
    mapPages_of_within (by rw [haddr]; exact pageStart_mod _ _) (pageEnd_mod _ _)
      (by rw [narrow_length hk hsize hmap, haddr])
      (Nat.le_of_lt (Nat.lt_of_le_of_lt hx'.1 hx'.2)) hx'
  rwa [haddr] at h

theorem fileMapped_of_not_within
    (hx : ¬ Within (pageStart k (segment.vaddr header).toNat)
      (pageEnd k (fileStop header segment)) x) :
    (fileMapped k K header segment content memory).space x = memory.space x ∧
      (fileMapped k K header segment content memory).prot x = memory.prot x := by
  have hbounds := hmap.bounds hk
  have hstart := pageStart_le k (segment.vaddr header).toNat
  have hend := lt_pageEnd k (fileStop header segment)
  have haddr := narrow_addr hk hsize hmap
  exact mapPages_of_not_within (by rw [haddr]; exact pageStart_mod _ _) (pageEnd_mod _ _)
    (by rw [narrow_length hk hsize hmap, haddr]) (by rw [haddr]; omega) (by rwa [haddr])

/-! ## What is cleared -/

/-- The range that is cleared is the end of the page in which the file ends. -/
theorem cleared_range (hbss : segment.filesz header < segment.memsz header) :
    ((fileMapping K header segment).addr.setWidth (8 * size)
          + (fileMapping K header segment).length.setWidth _).toNat =
        pageEnd k (fileStop header segment) ∧
      ((fileMapping K header segment).addr.setWidth (8 * size)
          + (fileMapping K header segment).length.setWidth _
          - (fileMapping K header segment).clearLength.setWidth _).toNat =
        fileStop header segment := by
  have haddr := narrow_addr hk hsize hmap
  have hlength := narrow_length hk hsize hmap
  have hclear := narrow_clearLength hk hsize hmap
  rw [if_pos hbss] at hclear
  have hbounds := hmap.bounds hk
  have hstart := pageStart_le k (segment.vaddr header).toNat
  have hbefore := lt_pageEnd k (fileStop header segment)
  have hafter := pageEnd_le k (fileStop header segment)
  have hstop := BitVec.toNat_add_of_lt
    (x := (fileMapping K header segment).addr.setWidth (8 * size))
    (y := (fileMapping K header segment).length.setWidth _) (by omega)
  refine ⟨by omega, ?_⟩
  rw [BitVec.toNat_sub_of_le (by rw [BitVec.le_def]; omega)]
  omega

/-- The file goes on at each byte of that range, or at none of them. -/
theorem fileMapped_isSome_iff
    (hx : Within (fileStop header segment) (pageEnd k (fileStop header segment)) x) :
    ((fileMapped k K header segment content memory).space x).isSome ↔
      ((segment.offset header).toNat + (segment.filesz header).toNat) / K.pageSize.toNat
        * K.pageSize.toNat < content.length := by
  have hpos := Nat.two_pow_pos k
  have hcongruent := hmap.congruent
  rw [hk] at hcongruent
  have hbounds := hmap.bounds hk
  have hstart := pageStart_le k (segment.vaddr header).toNat
  obtain ⟨hlow, hhigh⟩ := hx
  have hspace := (@fileMapped_of_within _ _ _ _ _ content memory x hk hsize hmap
    ⟨by omega, hhigh⟩).1
  obtain ⟨i, hi⟩ := Nat.exists_eq_add_of_le
    (show (segment.vaddr header).toNat ≤ x.toNat by omega)
  have hpage : ((segment.vaddr header).toNat + i) / 2 ^ k =
      ((segment.vaddr header).toNat + (segment.filesz header).toNat) / 2 ^ k := by
    have hfloor := pageStart_le k (fileStop header segment)
    unfold pageEnd fileStop at hhigh
    unfold pageStart fileStop at hfloor
    unfold fileStop at hlow
    apply Nat.div_eq_of_lt_le
    · omega
    · rw [Nat.succ_mul]
      omega
  have hfirst := page_of_offset hpos hcongruent i
  have hlast := page_of_offset hpos hcongruent (segment.filesz header).toNat
  have hsame : ((segment.offset header).toNat + i) / 2 ^ k =
      ((segment.offset header).toNat + (segment.filesz header).toNat) / 2 ^ k := by omega
  rw [hspace, filePages_isSome_iff, hi, offset_of_page hcongruent, hk, hsame]

/-- Each byte of the range can be cleared, -/
theorem fileMapped_accessible (hbss : segment.filesz header < segment.memsz header)
    (hclear : Clearable K header segment content)
    (hx : Within (fileStop header segment) (pageEnd k (fileStop header segment)) x) :
    ((fileMapped k K header segment content memory).accessible 2 x).isSome := by
  obtain ⟨hwrite, hfile⟩ := hclear hbss
  have hbounds := hmap.bounds hk
  have hstart := pageStart_le k (segment.vaddr header).toNat
  have hprot := (@fileMapped_of_within _ _ _ _ _ content memory x hk hsize hmap
    ⟨by have := hx.1; omega, hx.2⟩).2
  unfold LoaderMemory.accessible
  rw [if_pos (by rw [hprot]; exact (segmentProt_write hsize).mpr hwrite)]
  exact (fileMapped_isSome_iff hk hsize hmap hx).mpr hfile

/-- or none of them. -/
theorem fileMapped_not_accessible (hclear : ¬ Clearable K header segment content)
    (hx : Within (fileStop header segment) (pageEnd k (fileStop header segment)) x) :
    (fileMapped k K header segment content memory).accessible 2 x = none := by
  have hbounds := hmap.bounds hk
  have hstart := pageStart_le k (segment.vaddr header).toNat
  have hprot := (@fileMapped_of_within _ _ _ _ _ content memory x hk hsize hmap
    ⟨by have := hx.1; omega, hx.2⟩).2
  unfold LoaderMemory.accessible
  split
  case isFalse => rfl
  case isTrue hwrite =>
    rw [hprot, segmentProt_write hsize] at hwrite
    by_contra hsome
    apply hclear
    intro _
    refine ⟨hwrite, ?_⟩
    rw [← ne_eq, ← Option.isSome_iff_ne_none] at hsome
    exact (fileMapped_isSome_iff hk hsize hmap hx).mp hsome

end

variable (k) in
/-- The memory after the end of the page is cleared, -/
def fileCleared (K : ExecHost) (header : ElfHeader) (segment : ProgramHeader) (content : Bytes)
    (memory : LoaderMemory size) : LoaderMemory size :=
  if segment.filesz header < segment.memsz header then
    (fileMapped k K header segment content memory).zeroed
      ((segment.vaddr header).toNat + (segment.filesz header).toNat)
      (pageEnd k ((segment.vaddr header).toNat + (segment.filesz header).toNat))
  else fileMapped k K header segment content memory

theorem fileCleared_eq : fileCleared k K header segment content memory =
    if segment.filesz header < segment.memsz header then
      (fileMapped k K header segment content memory).zeroed (fileStop header segment)
        (pageEnd k (fileStop header segment))
    else fileMapped k K header segment content memory := rfl

variable (k) in
/-- and after the new pages. -/
def segmentMapped (K : ExecHost) (header : ElfHeader) (segment : ProgramHeader) (content : Bytes)
    (memory : LoaderMemory size) : LoaderMemory size :=
  if segment.memsz header > segment.filesz header ∧
      segmentEnd K header segment > fileEnd K header segment then
    (fileCleared k K header segment content memory).mapPages (2 ^ k)
      ((anonymousMapping K header segment).addr.setWidth _)
      ((anonymousMapping K header segment).length.setWidth _)
      ((segmentProt header segment).setWidth _) fun _ => some 0
  else fileCleared k K header segment content memory

/-! ## The run of one segment -/

variable {s : LoaderState size}

theorem fileKernel_anonymous (hsize : LoaderSize K size) {calls : LoaderTrace size} :
    fileKernel (2 ^ k) content calls memory (mmapAnonCall
        ((anonymousMapping K header segment).addr.setWidth _)
        ((anonymousMapping K header segment).length.setWidth _)
        ((anonymousMapping K header segment).prot.setWidth _)) =
      ((anonymousMapping K header segment).addr.setWidth _,
        memory.mapPages (2 ^ k) ((anonymousMapping K header segment).addr.setWidth _)
          ((anonymousMapping K header segment).length.setWidth _)
          ((segmentProt header segment).setWidth _) fun _ => some 0) := by
  unfold fileKernel
  dsimp only
  rw [if_pos (flags_anonymous hsize).2]
  rfl

theorem pageEnd_aligned (hpage : 12 ≤ k) (hsize : LoaderSize K size) (bytes : Nat) :
    pageEnd k bytes % size = 0 := by
  have hdvd : size ∣ 2 ^ k := by
    refine Nat.dvd_trans ?_ (Nat.pow_dvd_pow 2 hpage)
    obtain rfl | rfl := hsize.cases <;> decide
  exact Nat.mod_eq_zero_of_dvd (Nat.dvd_trans hdvd (Nat.dvd_of_mod_eq_zero (pageEnd_mod k bytes)))

theorem LoaderSize.pos (h : LoaderSize K size) : 0 < size := by
  obtain rfl | rfl := h.cases <;> decide

section

variable (hk : K.pageSize.toNat = 2 ^ k) (hsize : LoaderSize K size)
  (hmap : Mappable K header segment size)

include hk hsize hmap

/-- The kernel maps the file where it is asked to. -/
theorem fileKernel_file (hpage : 12 ≤ k) {fd : Word size} {calls : LoaderTrace size} :
    fileKernel (2 ^ k) content calls memory (mmapFileCall fd
        ((fileMapping K header segment).addr.setWidth _)
        ((fileMapping K header segment).length.setWidth _)
        ((fileMapping K header segment).prot.setWidth _)
        ((fileMapping K header segment).offset.setWidth _)) =
      ((fileMapping K header segment).addr.setWidth _,
        fileMapped k K header segment content memory) := by
  unfold fileKernel
  dsimp only
  rw [if_neg (not_not.mpr (flags_anonymous hsize).1),
    shifted_offset hpage (narrow_offset hk hsize hmap)]
  rfl

theorem clearLength_eq_zero_iff :
    (fileMapping K header segment).clearLength.setWidth (8 * size) = 0 ↔
      ¬ segment.filesz header < segment.memsz header := by
  have hclear := narrow_clearLength hk hsize hmap
  have hbefore := lt_pageEnd k (fileStop header segment)
  have hzero : (0 : Word size).toNat = 0 := (BitVec.toNat_ofNat _ _).trans (Nat.zero_mod _)
  rw [← BitVec.toNat_inj, hclear, hzero]
  split
  case isTrue hbss =>
    simp only [hbss, not_true_eq_false, iff_false]
    omega
  case isFalse hbss => simp only [hbss, not_false_eq_true]

/-- The mapping of the file, when its last page can be cleared. -/
theorem fileMapping_runs (hpage : 12 ≤ k) (rest : List Mapping)
    (hclear : Clearable K header segment content) :
    ∃ s', runMappings (fileKernel (2 ^ k) content) (fileMapping K header segment :: rest) s =
        runMappings (fileKernel (2 ^ k) content) rest s' ∧
      s'.memory = fileCleared k K header segment content s.memory := by
  have hmapped := @fileKernel_file K header segment size k content s.memory hk hsize hmap hpage
    s.fd s.calls
  have hclears : (fileMapping K header segment).clearLength.setWidth (8 * size) = 0 ∧
        fileCleared k K header segment content s.memory =
          fileMapped k K header segment content s.memory ∨
      (fileMapping K header segment).clearLength.setWidth (8 * size) ≠ 0 ∧
        ∀ s' : LoaderState size, s'.memory = fileMapped k K header segment content s.memory →
          clear
              ((fileMapping K header segment).addr.setWidth (8 * size)
                + (fileMapping K header segment).length.setWidth _
                - (fileMapping K header segment).clearLength.setWidth _)
              ((fileMapping K header segment).addr.setWidth (8 * size)
                + (fileMapping K header segment).length.setWidth _) s' =
            .ok () { s' with memory := fileCleared k K header segment content s.memory } := by
    by_cases hbss : segment.filesz header < segment.memsz header
    · refine .inr ⟨fun hzero => (clearLength_eq_zero_iff hk hsize hmap).mp hzero hbss, ?_⟩
      intro s' hmemory
      obtain ⟨hstop, hstart⟩ := cleared_range hk hsize hmap hbss
      have hbefore := lt_pageEnd k (fileStop header segment)
      rw [clear_ok hsize.pos (by rw [BitVec.le_def, hstop, hstart]; omega)
        (by rw [hstop]; exact pageEnd_aligned hpage hsize _), hstop, hstart, hmemory]
      · rw [fileCleared_eq, if_pos hbss]
      · intro x hx
        rw [hstop, hstart] at hx
        rw [hmemory]
        exact fileMapped_accessible hk hsize hmap hbss hclear hx
    · refine .inl ⟨(clearLength_eq_zero_iff hk hsize hmap).mpr hbss, ?_⟩
      rw [fileCleared_eq, if_neg hbss]
  have hrun := mmapFile_ok hmapped hclears
    (fun s' _ => mapping_reads (fileMapping K header segment) s')
  refine ⟨_, runMappings_file hsize fileMapping_flags hrun, ?_⟩
  unfold LoaderState.based
  split <;> rfl

theorem fileMapping_faults (hpage : 12 ≤ k) (rest : List Mapping)
    (hclear : ¬ Clearable K header segment content) :
    ∃ s', runMappings (fileKernel (2 ^ k) content) (fileMapping K header segment :: rest) s =
      .error .fault s' := by
  have hmapped := @fileKernel_file K header segment size k content s.memory hk hsize hmap hpage
    s.fd s.calls
  have hbss : segment.filesz header < segment.memsz header := by
    by_contra hnot
    exact hclear fun hbss => absurd hbss hnot
  obtain ⟨hstop, hstart⟩ := cleared_range hk hsize hmap hbss
  have hbefore := lt_pageEnd k (fileStop header segment)
  obtain ⟨s', hfault⟩ := mmapFile_fault hmapped
    (fun hzero => (clearLength_eq_zero_iff hk hsize hmap).mp hzero hbss)
    (fun s' hmemory => clear_fault hsize.pos (by rw [BitVec.lt_def, hstop, hstart]; exact hbefore)
      (by rw [hstop]; exact pageEnd_aligned hpage hsize _) (by
        rw [hmemory]
        apply fileMapped_not_accessible hk hsize hmap hclear
        exact ⟨Nat.le_of_eq hstart.symm, by rw [hstart]; exact hbefore⟩))
    (fun s' _ => mapping_reads (fileMapping K header segment) s')
  exact ⟨s', runMappings_file_fault hsize fileMapping_flags hfault⟩

/-- **The mappings of a segment**, when its last page can be cleared, -/
theorem segment_runs (hpage : 12 ≤ k) (rest : List Mapping)
    (hclear : Clearable K header segment content) :
    ∃ s', runMappings (fileKernel (2 ^ k) content) (mappingsOf K header segment ++ rest) s =
        runMappings (fileKernel (2 ^ k) content) rest s' ∧
      s'.memory = segmentMapped k K header segment content s.memory := by
  unfold mappingsOf segmentMapped
  by_cases hnew : segment.memsz header > segment.filesz header ∧
      segmentEnd K header segment > fileEnd K header segment
  · rw [if_pos hnew, if_pos hnew]
    obtain ⟨s', hrun, hmemory⟩ := fileMapping_runs (s := s) hk hsize hmap hpage
      (anonymousMapping K header segment :: rest) hclear
    have hanon := mmapAnon_ok (@fileKernel_anonymous K header segment size k content s'.memory hsize
      s'.calls) (fun s' _ => mapping_reads (anonymousMapping K header segment) s')
    refine ⟨_, hrun.trans (runMappings_anon hsize anonymousMapping_flags hanon), ?_⟩
    rw [← hmemory]
    rfl
  · rw [if_neg hnew, if_neg hnew]
    exact fileMapping_runs hk hsize hmap hpage rest hclear

/-- and when it cannot. -/
theorem segment_faults (hpage : 12 ≤ k) (rest : List Mapping)
    (hclear : ¬ Clearable K header segment content) :
    ∃ s', runMappings (fileKernel (2 ^ k) content) (mappingsOf K header segment ++ rest) s =
      .error .fault s' :=
  fileMapping_faults hk hsize hmap hpage _ hclear

end

/-! ## What is in memory then -/

section

variable (hk : K.pageSize.toNat = 2 ^ k) (hsize : LoaderSize K size)
  (hmap : Mappable K header segment size)

include hk hsize hmap

theorem fileCleared_prot
    (hx : Within (pageStart k (segment.vaddr header).toNat) (pageEnd k (fileStop header segment))
      x) :
    (fileCleared k K header segment content memory).prot x =
      (segmentProt header segment).setWidth _ := by
  have hprot := (@fileMapped_of_within _ _ _ _ _ content memory _ hk hsize hmap hx).2
  unfold fileCleared
  split
  · exact hprot
  · exact hprot

/-- Where new pages are mapped. -/
theorem segmentMapped_cases :
    ((Within (pageEnd k (fileStop header segment)) (pageEnd k (memoryStop header segment)) x ∧
      segment.filesz header < segment.memsz header) ∧
      (segmentMapped k K header segment content memory).space x = some 0 ∧
      (segmentMapped k K header segment content memory).prot x =
        (segmentProt header segment).setWidth _) ∨
    (¬ (Within (pageEnd k (fileStop header segment)) (pageEnd k (memoryStop header segment)) x ∧
      segment.filesz header < segment.memsz header) ∧
      (segmentMapped k K header segment content memory).space x =
        (fileCleared k K header segment content memory).space x ∧
      (segmentMapped k K header segment content memory).prot x =
        (fileCleared k K header segment content memory).prot x) := by
  have haddr := narrow_fileEnd hk hsize hmap
  have hlength := narrow_newLength hk hsize hmap
  have hfile := fileEnd_toNat hk hsize hmap
  have hlast := segmentEnd_toNat hk hsize hmap
  have hle := pageEnd_mono (k := k) (hmap.bounds hk).2.1
  unfold segmentMapped
  by_cases hnew : segment.memsz header > segment.filesz header ∧
      segmentEnd K header segment > fileEnd K header segment
  · rw [if_pos hnew]
    by_cases hx : Within (pageEnd k (fileStop header segment))
        (pageEnd k (memoryStop header segment)) x
    · refine .inl ⟨⟨hx, hnew.1⟩, ?_⟩
      exact mapPages_of_within (by rw [haddr]; exact pageEnd_mod _ _) (pageEnd_mod _ _)
        (by rw [hlength, haddr]) (by rw [haddr]; exact hle) (by rwa [haddr])
    · refine .inr ⟨fun h => hx h.1, ?_⟩
      exact mapPages_of_not_within (by rw [haddr]; exact pageEnd_mod _ _) (pageEnd_mod _ _)
        (by rw [hlength, haddr]) (by rw [haddr]; exact hle) (by rwa [haddr])
  · rw [if_neg hnew]
    refine .inr ⟨?_, rfl, rfl⟩
    rintro ⟨⟨hlow, hhigh⟩, hbss⟩
    apply hnew
    refine ⟨hbss, ?_⟩
    change fileEnd K header segment < segmentEnd K header segment
    rw [BitVec.lt_def, hfile, hlast]
    omega

/-- A segment whose mappings were made is in memory. -/
theorem segmentMapped_holds :
    Holds header segment content (segmentMapped k K header segment content memory) := by
  have hbounds := hmap.bounds hk
  have hcongruent := hmap.congruent
  rw [hk] at hcongruent
  have hstart := pageStart_le k (segment.vaddr header).toNat
  have hfile := lt_pageEnd k (fileStop header segment)
  have hlast := lt_pageEnd k (memoryStop header segment)
  have hfileStop : fileStop header segment =
    (segment.vaddr header).toNat + (segment.filesz header).toNat := rfl
  have hmemoryStop : memoryStop header segment =
    (segment.vaddr header).toNat + (segment.memsz header).toNat := rfl
  have haddress : ∀ i < (segment.memsz header).toNat,
      (BitVec.ofNat (8 * size) ((segment.vaddr header).toNat + i)).toNat =
        (segment.vaddr header).toNat + i := by
    intro i hi
    rw [BitVec.toNat_ofNat, Nat.mod_eq_of_lt (by omega)]
  have hcases := fun i => @segmentMapped_cases _ _ _ _ _ content memory
    (BitVec.ofNat (8 * size) ((segment.vaddr header).toNat + i)) hk hsize hmap
  constructor
  · intro i hi byte hbyte
    have hat := haddress i (by omega)
    have hspace := (@fileMapped_of_within _ _ _ _ _ content memory
      (BitVec.ofNat (8 * size) ((segment.vaddr header).toNat + i)) hk hsize hmap
      (by unfold Within; omega)).1
    rw [hat, offset_of_page hcongruent, filePages, hbyte] at hspace
    obtain ⟨⟨hin, -⟩, -⟩ | ⟨-, hsame, -⟩ := hcases i
    · unfold Within at hin
      omega
    · rw [hsame, fileCleared_eq]
      split
      · rw [zeroed_of_not_within (by unfold Within; omega), hspace]
      · exact hspace
  · intro i hi hmem
    have hat := haddress i hmem
    have hbss : segment.filesz header < segment.memsz header := by
      rw [BitVec.lt_def]
      omega
    obtain ⟨-, hzero, -⟩ | ⟨hout, hsame, -⟩ := hcases i
    · exact hzero
    · rw [hsame, fileCleared_eq, if_pos hbss]
      apply zeroed_of_within
      have hnot : ¬ Within _ _ _ := fun h => hout ⟨h, hbss⟩
      unfold Within at hnot ⊢
      omega
  · intro i hi
    have hat := haddress i hi
    obtain ⟨-, -, hprot⟩ | ⟨hout, -, hsame⟩ := hcases i
    · exact hprot
    · rw [hsame]
      apply fileCleared_prot hk hsize hmap
      by_cases hbss : segment.filesz header < segment.memsz header
      · have hnot : ¬ Within _ _ _ := fun h => hout ⟨h, hbss⟩
        unfold Within at hnot ⊢
        omega
      · rw [BitVec.lt_def] at hbss
        unfold Within
        omega

/-- What is below its first page stays. -/
theorem segmentMapped_below (hx : x.toNat < pageStart k (segment.vaddr header).toNat) :
    (segmentMapped k K header segment content memory).space x = memory.space x ∧
      (segmentMapped k K header segment content memory).prot x = memory.prot x := by
  have hbounds := hmap.bounds hk
  have hstart := pageStart_le k (segment.vaddr header).toNat
  have hfile := lt_pageEnd k (fileStop header segment)
  have hmapped := @fileMapped_of_not_within _ _ _ _ _ content memory x hk hsize hmap
    (by unfold Within; omega)
  have hcleared : (fileCleared k K header segment content memory).space x = memory.space x ∧
      (fileCleared k K header segment content memory).prot x = memory.prot x := by
    rw [fileCleared_eq]
    split
    · exact ⟨(zeroed_of_not_within (by unfold Within; omega)).trans hmapped.1, hmapped.2⟩
    · exact hmapped
  obtain ⟨⟨hin, -⟩, -⟩ | ⟨-, hspace, hprot⟩ := @segmentMapped_cases _ _ _ _ _ content memory x hk
    hsize hmap
  · unfold Within at hin
    omega
  · exact ⟨hspace.trans hcleared.1, hprot.trans hcleared.2⟩

end

/-! ## The run of all segments -/

/-- What is said of a segment is said of its own addresses. -/
theorem Holds.congr {memory' : LoaderMemory size} (h : Holds header segment content memory)
    (hle : (segment.filesz header).toNat ≤ (segment.memsz header).toNat)
    (hsame : ∀ i < (segment.memsz header).toNat,
      memory'.space (BitVec.ofNat _ ((segment.vaddr header).toNat + i)) =
          memory.space (BitVec.ofNat _ ((segment.vaddr header).toNat + i)) ∧
        memory'.prot (BitVec.ofNat _ ((segment.vaddr header).toNat + i)) =
          memory.prot (BitVec.ofNat _ ((segment.vaddr header).toNat + i))) :
    Holds header segment content memory' := by
  constructor
  · intro i hi byte hbyte
    rw [(hsame i (by omega)).1]
    exact h.bytes i hi byte hbyte
  · intro i hlow hi
    rw [(hsame i hi).1]
    exact h.zeros i hlow hi
  · intro i hi
    rw [(hsame i hi).2]
    exact h.prot i hi

theorem runMappings_nil {kernel : LoaderKernel size} : runMappings kernel [] s = .ok () s := rfl

/-- The segments that are mapped, each of which leaves what is below it. -/
theorem segments_run {segments : List ProgramHeader} (hpage : 12 ≤ k)
    (hk : K.pageSize.toNat = 2 ^ k) (hsize : LoaderSize K size)
    (hmap : ∀ segment ∈ segments, Mappable K header segment size)
    (hascending : Ascending K header segments)
    (hclear : ∀ segment ∈ segments, Clearable K header segment content) :
    ∃ s', runMappings (fileKernel (2 ^ k) content) (segments.flatMap (mappingsOf K header)) s =
        .ok () s' ∧
      (∀ segment ∈ segments, Holds header segment content s'.memory) ∧
      ∀ x : Word size,
        (∀ segment ∈ segments, x.toNat < pageStart k (segment.vaddr header).toNat) →
          s'.memory.space x = s.memory.space x ∧ s'.memory.prot x = s.memory.prot x := by
  induction segments generalizing s with
  | nil => exact ⟨s, rfl, by simp, fun _ _ => ⟨rfl, rfl⟩⟩
  | cons segment segments ih =>
      obtain ⟨hfirst, hrest⟩ := List.pairwise_cons.mp hascending
      have hmap₁ := hmap segment List.mem_cons_self
      obtain ⟨s₁, hrun₁, hmemory₁⟩ := segment_runs (s := s) hk hsize hmap₁ hpage
        (segments.flatMap (mappingsOf K header)) (hclear segment List.mem_cons_self)
      obtain ⟨s₂, hrun₂, hholds, hbelow⟩ := ih (s := s₁)
        (fun next hnext => hmap next (List.mem_cons_of_mem _ hnext)) hrest
        (fun next hnext => hclear next (List.mem_cons_of_mem _ hnext))
      refine ⟨s₂, by rw [List.flatMap_cons, hrun₁, hrun₂], ?_, ?_⟩
      · intro next hnext
        obtain rfl | hnext := List.mem_cons.mp hnext
        · have hholds₁ : Holds header next content s₁.memory := by
            rw [hmemory₁]
            exact segmentMapped_holds hk hsize hmap₁
          refine hholds₁.congr hmap₁.filesz_le ?_
          intro i hi
          apply hbelow
          intro later hlater
          -- The pages of this segment end before those of a later one.
          have hpages := hfirst later hlater
          rw [hk] at hpages
          have hbound := Nat.mul_le_mul_right (2 ^ k) hpages
          have hround := Nat.div_add_mod'
            ((next.vaddr header).toNat + (next.memsz header).toNat + (2 ^ k - 1)) (2 ^ k)
          have hlt := hmap₁.noOverflow
          unfold pageStart
          rw [BitVec.toNat_ofNat, Nat.mod_eq_of_lt (by omega)]
          omega
        · exact hholds next hnext
      · intro x hx
        have hsame := hbelow x fun next hnext => hx next (List.mem_cons_of_mem _ hnext)
        have hmapped := @segmentMapped_below _ _ _ _ _ content s.memory x hk hsize hmap₁
          (hx segment List.mem_cons_self)
        rw [← hmemory₁] at hmapped
        exact ⟨hsame.1.trans hmapped.1, hsame.2.trans hmapped.2⟩

/-- A segment that cannot be cleared ends the loader. -/
theorem segments_fault {segments : List ProgramHeader} (hpage : 12 ≤ k)
    (hk : K.pageSize.toNat = 2 ^ k) (hsize : LoaderSize K size)
    (hmap : ∀ segment ∈ segments, Mappable K header segment size)
    (hclear : ¬ ∀ segment ∈ segments, Clearable K header segment content) :
    ∃ s', runMappings (fileKernel (2 ^ k) content) (segments.flatMap (mappingsOf K header)) s =
      .error .fault s' := by
  induction segments generalizing s with
  | nil => exact absurd (by simp) hclear
  | cons segment segments ih =>
      have hmap₁ := hmap segment List.mem_cons_self
      rw [List.flatMap_cons]
      by_cases hfirst : Clearable K header segment content
      · obtain ⟨s₁, hrun₁, -⟩ := segment_runs (s := s) hk hsize hmap₁ hpage
          (segments.flatMap (mappingsOf K header)) hfirst
        obtain ⟨s₂, hrun₂⟩ := ih (s := s₁)
          (fun next hnext => hmap next (List.mem_cons_of_mem _ hnext)) (by
            intro hall
            apply hclear
            intro next hnext
            obtain rfl | hnext := List.mem_cons.mp hnext
            · exact hfirst
            · exact hall next hnext)
        exact ⟨s₂, hrun₁.trans hrun₂⟩
      · exact segment_faults hk hsize hmap₁ hpage _ hfirst

/-- **Segments are mapped faithfully**, each of them and all together, exactly when the zeros of
each can be written on the last page of its file. -/
theorem segments_mapped_iff {segments : List ProgramHeader} (hpage : 12 ≤ k)
    (hk : K.pageSize.toNat = 2 ^ k) (hsize : LoaderSize K size)
    (hmap : ∀ segment ∈ segments, Mappable K header segment size)
    (hascending : Ascending K header segments) (s : LoaderState size) (content : Bytes) :
    (∃ s', runMappings (fileKernel (2 ^ k) content) (segments.flatMap (mappingsOf K header)) s =
        .ok () s' ∧ ∀ segment ∈ segments, Holds header segment content s'.memory) ↔
      ∀ segment ∈ segments, Clearable K header segment content := by
  constructor
  · rintro ⟨s', hrun, -⟩
    by_contra hnot
    obtain ⟨s₂, hfault⟩ := segments_fault (s := s) hpage hk hsize hmap hnot
    rw [hrun] at hfault
    cases hfault
  · intro hclear
    obtain ⟨s', hrun, hholds, -⟩ := segments_run (s := s) hpage hk hsize hmap hascending hclear
    exact ⟨s', hrun, hholds⟩

end

/-- The header of a 64-bit file, -/
def headerOfNotes : ElfHeader :=
  ⟨Vector.ofFn fun i => if i.val = 4 then 2 else 0⟩

/-- and a segment: four bytes of the file, and four zeros, at `0x400000`. -/
def segmentOfNotes (flags : BitVec 8) : ProgramHeader :=
  [1, 0, 0, 0, flags, 0, 0, 0, 0, 0, 0, 0, 0, 0, 0, 0,
    0, 0, 0x40, 0, 0, 0, 0, 0, 0, 0, 0x40, 0, 0, 0, 0, 0,
    4, 0, 0, 0, 0, 0, 0, 0, 8, 0, 0, 0, 0, 0, 0, 0, 0, 0x10, 0, 0, 0, 0, 0, 0]

theorem segmentOfNotes_fields {flags : BitVec 8} (hflags : flags = 4 ∨ flags = 6) :
    (segmentOfNotes flags).vaddr headerOfNotes = 0x400000 ∧
      (segmentOfNotes flags).offset headerOfNotes = 0 ∧
      (segmentOfNotes flags).filesz headerOfNotes = 4 ∧
      (segmentOfNotes flags).memsz headerOfNotes = 8 ∧
      (segmentOfNotes flags).flags headerOfNotes = flags.setWidth 64 := by
  obtain rfl | rfl := hflags <;> decide

theorem segmentOfNotes_mappable {flags : BitVec 8} (hflags : flags = 4 ∨ flags = 6) :
    ∀ segment ∈ [segmentOfNotes flags], Mappable hostOfNotes headerOfNotes segment 8 := by
  obtain ⟨hvaddr, hoffset, hfilesz, hmemsz, -⟩ := segmentOfNotes_fields hflags
  intro segment hsegment
  obtain rfl := List.mem_singleton.mp hsegment
  constructor
  · rw [hvaddr, hoffset]
    decide
  · rw [hfilesz, hmemsz]
    decide
  · rw [hvaddr, hmemsz]
    decide
  · rw [hoffset]
    decide

theorem segmentOfNotes_clearable_iff {flags : BitVec 8} (hflags : flags = 4 ∨ flags = 6) :
    (∀ segment ∈ [segmentOfNotes flags],
      Clearable hostOfNotes headerOfNotes segment [1, 2, 3, 4]) ↔ flags = 6 := by
  obtain ⟨-, hoffset, hfilesz, hmemsz, hread⟩ := segmentOfNotes_fields hflags
  rw [List.forall_mem_singleton, Clearable, hoffset, hfilesz, hmemsz, hread]
  obtain rfl | rfl := hflags <;> decide

theorem hostOfNotes_size : LoaderSize hostOfNotes 8 := .inr rfl

theorem hostOfNotes_page : hostOfNotes.pageSize.toNat = 2 ^ 12 := by decide

theorem segments_mapped_iff_data :
    ∃ s', runMappings (fileKernel (2 ^ 12) [1, 2, 3, 4])
        ([segmentOfNotes 6].flatMap (mappingsOf hostOfNotes headerOfNotes))
        (.initial ⟨fun _ => none, fun _ => 0⟩ : LoaderState 8) = .ok () s' ∧
      ∀ segment ∈ [segmentOfNotes 6], Holds headerOfNotes segment [1, 2, 3, 4] s'.memory :=
  (segments_mapped_iff (Nat.le_refl 12) hostOfNotes_page hostOfNotes_size
    (segmentOfNotes_mappable (.inr rfl)) (List.pairwise_singleton _ _) _ _).mpr
    ((segmentOfNotes_clearable_iff (.inr rfl)).mpr rfl)

/-- The zeros of a read-only segment end the loader. -/
theorem segments_not_mapped :
    ¬ ∀ (K : ExecHost) (header : ElfHeader) (segments : List ProgramHeader) (size k : Nat)
      (s : LoaderState size) (content : Bytes), 12 ≤ k → K.pageSize.toNat = 2 ^ k →
      LoaderSize K size → (∀ segment ∈ segments, Mappable K header segment size) →
      Ascending K header segments →
        ∃ s', runMappings (fileKernel (2 ^ k) content) (segments.flatMap (mappingsOf K header)) s =
            .ok () s' ∧ ∀ segment ∈ segments, Holds header segment content s'.memory := by
  intro h
  have hmap := segmentOfNotes_mappable (.inl rfl)
  have hclear : ¬ ∀ segment ∈ [segmentOfNotes 4],
      Clearable hostOfNotes headerOfNotes segment [1, 2, 3, 4] := by
    rw [segmentOfNotes_clearable_iff (.inl rfl)]
    decide
  obtain ⟨s', hrun, -⟩ := h hostOfNotes headerOfNotes [segmentOfNotes 4] 8 12
    (.initial ⟨fun _ => none, fun _ => 0⟩) [1, 2, 3, 4] (Nat.le_refl _) hostOfNotes_page
    hostOfNotes_size hmap (List.pairwise_singleton _ _)
  obtain ⟨s₂, hfault⟩ := segments_fault (s := .initial ⟨fun _ => none, fun _ => 0⟩)
    (Nat.le_refl _) hostOfNotes_page hostOfNotes_size hmap hclear
  rw [hrun] at hfault
  cases hfault

end Loader

end PRoot
