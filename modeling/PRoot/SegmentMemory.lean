import PRoot.LoaderSteps
import PRoot.PageMasks

/-!
# Segments in memory

The mappings of a list of segments, as the loader makes them of a file.

* `fileKernel`: what the kernel maps;
* `Holds`: what has to be in memory for a segment;
* `Mappable`, `Ascending`: the segments that are mapped.
-/

namespace PRoot

namespace Loader

section

variable {size : Nat}

/-- What is on the pages of a mapped file: its bytes, zeros after the last one, and nothing on the
pages beyond. -/
def filePages (pageSize : Nat) (content : Bytes) (position : Nat) : Option (BitVec 8) :=
  match content[position]? with
  | some byte => some byte
  | none => if position / pageSize * pageSize < content.length then some 0 else none

/-- Pages that are mapped, in the place of what was there. -/
def LoaderMemory.mapPages (memory : LoaderMemory size) (pageSize : Nat)
    (addr length prot : Word size) (pages : Nat → Option (BitVec 8)) : LoaderMemory size :=
  let stop := addr.toNat + (length.toNat + (pageSize - 1)) / pageSize * pageSize
  { space := fun x =>
      if Within addr.toNat stop x then pages (x.toNat - addr.toNat) else memory.space x
    prot := fun x => if Within addr.toNat stop x then prot else memory.prot x }

/-- A kernel that grants every mapping, with a file open.  It takes the offset of a file from the
32-bit loaders in units of 4096 bytes. -/
def fileKernel (pageSize : Nat) (content : Bytes) : LoaderKernel size := fun _ memory call =>
  match call with
  | .MMAP addr length prot flags _ offset =>
      (addr, memory.mapPages pageSize addr length prot
        (if flags &&& 0x20 ≠ 0 then fun _ => some 0
          else fun i => filePages pageSize content (offset.toNat * 2 ^ mmapOffsetShift size + i)))
  | _ => (0, memory)

/-- The words of a statement that is not in memory. -/
def wordOf (statement : LoadStatement) (i : Nat) : LoaderM size (Word size) :=
  pure ((statement.words.getD i 0).setWidth _)

/-- What the loader does for the statements of mappings. -/
def runMappings (kernel : LoaderKernel size) (mappings : List Mapping) : LoaderM size Unit :=
  (transcriptMappings (some mappings)).forM fun statement => do
    let _ ← interpret kernel (wordOf statement) 0

end

section

variable (K : ExecHost) (header : ElfHeader) (segment : ProgramHeader)

/-- A segment whose addresses do not overflow a word of the loader. -/
structure Mappable (size : Nat) : Prop where
  congruent : (segment.offset header).toNat % K.pageSize.toNat =
    (segment.vaddr header).toNat % K.pageSize.toNat
  filesz_le : (segment.filesz header).toNat ≤ (segment.memsz header).toNat
  noOverflow : (segment.vaddr header).toNat + (segment.memsz header).toNat + K.pageSize.toNat <
    2 ^ (8 * size)
  offset_lt : (segment.offset header).toNat < 2 ^ (8 * size)

/-- The pages of a segment are before those of the next ones. -/
def Ascending (segments : List ProgramHeader) : Prop :=
  segments.Pairwise fun segment next =>
    ((segment.vaddr header).toNat + (segment.memsz header).toNat + (K.pageSize.toNat - 1))
        / K.pageSize.toNat ≤
      (next.vaddr header).toNat / K.pageSize.toNat

/-- **A segment in memory**: the bytes that the file has of it, zeros after these, and its
protection. -/
structure Holds {size : Nat} (content : Bytes) (memory : LoaderMemory size) : Prop where
  bytes : ∀ i < (segment.filesz header).toNat, ∀ byte,
    content[(segment.offset header).toNat + i]? = some byte →
      memory.space (BitVec.ofNat _ ((segment.vaddr header).toNat + i)) = some byte
  zeros : ∀ i, (segment.filesz header).toNat ≤ i → i < (segment.memsz header).toNat →
    memory.space (BitVec.ofNat _ ((segment.vaddr header).toNat + i)) = some 0
  prot : ∀ i < (segment.memsz header).toNat,
    memory.prot (BitVec.ofNat _ ((segment.vaddr header).toNat + i)) =
      (segmentProt header segment).setWidth _

/-- The zeros of a segment, if it has any, can be written on the last page of its file: it is
writable, and the file goes on there. -/
def Clearable (content : Bytes) : Prop :=
  segment.filesz header < segment.memsz header →
    segment.flags header &&& 2 ≠ 0 ∧
      ((segment.offset header).toNat + (segment.filesz header).toNat) / K.pageSize.toNat
        * K.pageSize.toNat < content.length

instance (content : Bytes) : Decidable (Clearable K header segment content) :=
  inferInstanceAs (Decidable (_ → _))

end

/-! ## Pages -/

theorem and_pageMask {K : ExecHost} {k : Nat} (hk : K.pageSize.toNat = 2 ^ k) (a : BitVec 64) :
    (a &&& K.pageMask).toNat = a.toNat / 2 ^ k * 2 ^ k := by
  have hlt : k < 64 := by
    have hpage := K.pageSize.isLt
    rw [hk] at hpage
    exact (Nat.pow_lt_pow_iff_right (by decide)).mp hpage
  have hsize : K.pageSize = BitVec.twoPow 64 k :=
    BitVec.eq_of_toNat_eq (by rw [hk, BitVec.toNat_twoPow_of_lt hlt])
  have hmask : K.pageMask = PageMasks.above 64 k := by
    rw [ExecHost.pageMask, hsize]
    rfl
  rw [hmask, PageMasks.toNat_and_above hlt]

theorem filePages_isSome_iff {pageSize position : Nat} {content : Bytes} :
    (filePages pageSize content position).isSome ↔
      position / pageSize * pageSize < content.length := by
  unfold filePages
  have hle := Nat.div_mul_le_self position pageSize
  cases hbyte : content[position]? with
  | none =>
      dsimp only
      split
      case isTrue hlt => simpa using hlt
      case isFalse hge => simpa using hge
  | some byte =>
      have hlt := (List.getElem?_eq_some_iff.mp hbyte).1
      simp only [Option.isSome_some, true_iff]
      omega

section

variable {K : ExecHost} {header : ElfHeader} {segment : ProgramHeader} {size : Nat}

/-- A loader has words of 4 bytes, or those of the host. -/
def LoaderSize (K : ExecHost) (size : Nat) : Prop := size = 4 ∨ size = K.host.word

theorem LoaderSize.cases (h : LoaderSize K size) : size = 4 ∨ size = 8 := by
  unfold LoaderSize Host.word at h
  grind

theorem LoaderSize.le (h : LoaderSize K size) : 8 * size ≤ 64 := by
  have := h.cases
  omega

theorem word_of_lt (h : LoaderSize K size) {a : BitVec 64} (ha : a.toNat < 2 ^ (8 * size)) :
    K.word a = a := by
  unfold ExecHost.word
  split
  case isTrue hword =>
    obtain rfl : size = 4 := by
      unfold LoaderSize at h
      omega
    apply BitVec.eq_of_toNat_eq
    rw [BitVec.toNat_and]
    exact (Nat.and_two_pow_sub_one_eq_mod a.toNat 32).trans (Nat.mod_eq_of_lt ha)
  case isFalse => rfl

theorem narrow_toNat {a : BitVec 64} (ha : a.toNat < 2 ^ (8 * size)) :
    (a.setWidth (8 * size)).toNat = a.toNat := by
  rw [BitVec.toNat_setWidth, Nat.mod_eq_of_lt ha]

theorem narrow_word (h : LoaderSize K size) {a : BitVec 64} (ha : a.toNat < 2 ^ (8 * size)) :
    ((K.word a).setWidth (8 * size)).toNat = a.toNat := by
  rw [word_of_lt h ha, narrow_toNat ha]

/-! ## The mappings of a segment -/

variable {k : Nat}

/-- Where the page of an address starts, -/
def pageStart (k bytes : Nat) : Nat := bytes / 2 ^ k * 2 ^ k

/-- and where it ends. -/
def pageEnd (k bytes : Nat) : Nat := bytes / 2 ^ k * 2 ^ k + 2 ^ k

theorem pageEnd_le (k bytes : Nat) : pageEnd k bytes ≤ bytes + 2 ^ k := by
  have := Nat.div_mul_le_self bytes (2 ^ k)
  unfold pageEnd
  omega

theorem lt_pageEnd (k bytes : Nat) : bytes < pageEnd k bytes := by
  have := Nat.div_add_mod' bytes (2 ^ k)
  have := Nat.mod_lt bytes (Nat.two_pow_pos k)
  unfold pageEnd
  omega

theorem pageEnd_mono {bytes bytes' : Nat} (h : bytes ≤ bytes') :
    pageEnd k bytes ≤ pageEnd k bytes' := by
  have := Nat.mul_le_mul_right (2 ^ k) (Nat.div_le_div_right (c := 2 ^ k) h)
  unfold pageEnd
  omega

theorem pageStart_le (k bytes : Nat) : pageStart k bytes ≤ bytes := Nat.div_mul_le_self _ _

theorem pageStart_mod (k bytes : Nat) : pageStart k bytes % 2 ^ k = 0 := Nat.mul_mod_left _ _

theorem pageEnd_mod (k bytes : Nat) : pageEnd k bytes % 2 ^ k = 0 := by
  unfold pageEnd
  rw [Nat.add_mod_right, Nat.mul_mod_left]

/-- Where the bytes of a segment end that are in its file, -/
def fileStop (header : ElfHeader) (segment : ProgramHeader) : Nat :=
  (segment.vaddr header).toNat + (segment.filesz header).toNat

/-- and all its bytes. -/
def memoryStop (header : ElfHeader) (segment : ProgramHeader) : Nat :=
  (segment.vaddr header).toNat + (segment.memsz header).toNat

theorem Mappable.bounds (hk : K.pageSize.toNat = 2 ^ k) (h : Mappable K header segment size) :
    (segment.vaddr header).toNat ≤ fileStop header segment ∧
      fileStop header segment ≤ memoryStop header segment ∧
      memoryStop header segment + 2 ^ k < 2 ^ (8 * size) := by
  have hle := h.filesz_le
  have hlt := h.noOverflow
  unfold fileStop memoryStop
  omega

/-- The end of a range, rounded as `add_mapping` does. -/
theorem roundedEnd {a b : BitVec 64} (hk : K.pageSize.toNat = 2 ^ k) (hsize : LoaderSize K size)
    (h : a.toNat + b.toNat + K.pageSize.toNat < 2 ^ (8 * size)) :
    (K.word ((a + b + K.pageSize) &&& K.pageMask)).toNat = pageEnd k (a.toNat + b.toNat) := by
  have h64 : 2 ^ (8 * size) ≤ 2 ^ 64 := Nat.pow_le_pow_right (by decide) hsize.le
  have hsum : (a + b + K.pageSize).toNat = a.toNat + b.toNat + K.pageSize.toNat := by
    rw [BitVec.toNat_add_of_lt, BitVec.toNat_add_of_lt] <;>
      first | omega | (rw [BitVec.toNat_add_of_lt] <;> omega)
  have hmask : ((a + b + K.pageSize) &&& K.pageMask).toNat = pageEnd k (a.toNat + b.toNat) := by
    rw [and_pageMask hk, hsum, hk, Nat.add_div_right _ (Nat.two_pow_pos k), Nat.succ_mul]
    rfl
  have hle := pageEnd_le k (a.toNat + b.toNat)
  rw [word_of_lt hsize (by omega), hmask]

variable (hk : K.pageSize.toNat = 2 ^ k) (hsize : LoaderSize K size)
  (hmap : Mappable K header segment size)

include hk hsize hmap

theorem fileEnd_toNat :
    (fileEnd K header segment).toNat = pageEnd k (fileStop header segment) := by
  have hlt := hmap.noOverflow
  have hle := hmap.filesz_le
  exact roundedEnd hk hsize (by omega)

theorem segmentEnd_toNat :
    (segmentEnd K header segment).toNat = pageEnd k (memoryStop header segment) :=
  roundedEnd hk hsize hmap.noOverflow

theorem fileMapping_addr_toNat :
    (fileMapping K header segment).addr.toNat = pageStart k (segment.vaddr header).toNat := by
  have hbounds := hmap.bounds hk
  have hle := pageStart_le k (segment.vaddr header).toNat
  unfold fileMapping
  dsimp only
  rw [word_of_lt hsize] <;> rw [and_pageMask hk]
  · rfl
  · exact Nat.lt_of_le_of_lt hle (by omega)

theorem narrow_addr : ((fileMapping K header segment).addr.setWidth (8 * size)).toNat =
    pageStart k (segment.vaddr header).toNat := by
  have hbounds := hmap.bounds hk
  have haddr := fileMapping_addr_toNat hk hsize hmap
  have hle := pageStart_le k (segment.vaddr header).toNat
  rw [narrow_toNat (by omega), haddr]

theorem narrow_length : ((fileMapping K header segment).length.setWidth (8 * size)).toNat =
    pageEnd k (fileStop header segment) - pageStart k (segment.vaddr header).toNat := by
  have hbounds := hmap.bounds hk
  have hend := fileEnd_toNat hk hsize hmap
  have haddr := fileMapping_addr_toNat hk hsize hmap
  have hstart := pageStart_le k (segment.vaddr header).toNat
  have hbefore := lt_pageEnd k (fileStop header segment)
  have hafter := pageEnd_le k (fileStop header segment)
  have hsub := BitVec.toNat_sub_of_le (x := fileEnd K header segment)
    (y := (fileMapping K header segment).addr) (by rw [BitVec.le_def]; omega)
  change ((K.word (fileEnd K header segment - (fileMapping K header segment).addr)).setWidth
    (8 * size)).toNat = _
  rw [narrow_word hsize (by omega), hsub, hend, haddr]

theorem narrow_offset : ((fileMapping K header segment).offset.setWidth (8 * size)).toNat =
    pageStart k (segment.offset header).toNat := by
  have hlt := hmap.offset_lt
  have hle := pageStart_le k (segment.offset header).toNat
  unfold fileMapping
  dsimp only
  rw [narrow_word hsize] <;> rw [and_pageMask hk]
  · rfl
  · exact Nat.lt_of_le_of_lt hle hlt

theorem narrow_clearLength :
    ((fileMapping K header segment).clearLength.setWidth (8 * size)).toNat =
      if segment.filesz header < segment.memsz header then
        pageEnd k (fileStop header segment) - fileStop header segment
      else 0 := by
  have hbounds := hmap.bounds hk
  have hend := fileEnd_toNat hk hsize hmap
  have hbefore := lt_pageEnd k (fileStop header segment)
  have hafter := pageEnd_le k (fileStop header segment)
  have hstop : fileStop header segment =
    (segment.vaddr header).toNat + (segment.filesz header).toNat := rfl
  have hfirst := BitVec.toNat_sub_of_le (x := fileEnd K header segment)
    (y := segment.vaddr header) (by rw [BitVec.le_def]; omega)
  have hsub := BitVec.toNat_sub_of_le (x := fileEnd K header segment - segment.vaddr header)
    (y := segment.filesz header) (by rw [BitVec.le_def]; omega)
  unfold fileMapping
  dsimp only
  by_cases hbss : segment.filesz header < segment.memsz header
  · rw [if_pos hbss, if_pos hbss, narrow_word hsize (by omega)]
    omega
  · rw [if_neg hbss, if_neg hbss, narrow_toNat (Nat.two_pow_pos _)]
    rfl

theorem narrow_fileEnd : ((anonymousMapping K header segment).addr.setWidth (8 * size)).toNat =
    pageEnd k (fileStop header segment) := by
  have hbounds := hmap.bounds hk
  have hend := fileEnd_toNat hk hsize hmap
  have hafter := pageEnd_le k (fileStop header segment)
  change ((fileEnd K header segment).setWidth (8 * size)).toNat = _
  rw [narrow_toNat (by omega), hend]

theorem narrow_newLength :
    ((anonymousMapping K header segment).length.setWidth (8 * size)).toNat =
      pageEnd k (memoryStop header segment) - pageEnd k (fileStop header segment) := by
  have hbounds := hmap.bounds hk
  have hend := fileEnd_toNat hk hsize hmap
  have hlast := segmentEnd_toNat hk hsize hmap
  have hmono := pageEnd_mono (k := k) hbounds.2.1
  have hafter := pageEnd_le k (memoryStop header segment)
  have hsub := BitVec.toNat_sub_of_le (x := segmentEnd K header segment)
    (y := fileEnd K header segment) (by rw [BitVec.le_def]; omega)
  change ((K.word (segmentEnd K header segment - fileEnd K header segment)).setWidth
    (8 * size)).toNat = _
  rw [narrow_word hsize (by omega), hsub, hend, hlast]

/-! ## What the loader maps of the file -/

omit hk hsize hmap

theorem action_toNat (hsize : LoaderSize K size) {action : BitVec 64} (h : action.toNat < 7) :
    (action.setWidth (8 * size)).toNat = action.toNat := by
  apply narrow_toNat
  obtain rfl | rfl := hsize.cases
  · exact Nat.lt_trans h (by decide)
  · exact Nat.lt_trans h (by decide)

theorem wordOf_reads (statement : LoadStatement) (s : LoaderState size) :
    StatementReads (wordOf statement) (statement.words.map (·.setWidth _)) s := by
  intro i word hword
  obtain ⟨value, hvalue, rfl⟩ : ∃ value, statement.words[i]? = some value ∧
      value.setWidth _ = word := by
    rw [List.getElem?_map] at hword
    exact Option.map_eq_some_iff.mp hword
  unfold wordOf
  rw [List.getD_eq_getElem?_getD, hvalue]
  rfl

section

variable {kernel : LoaderKernel size} {s s' : LoaderState size} {mapping : Mapping}
  {rest : List Mapping}

theorem runMappings_cons : runMappings kernel (mapping :: rest) =
    (interpret kernel (wordOf (transcriptMapping mapping)) 0 >>= fun _ =>
      runMappings kernel rest) := by
  change ((_ >>= fun _ => pure ()) >>= fun _ => runMappings kernel rest : LoaderM size Unit) = _
  rw [bind_assoc]
  rfl

theorem transcriptMapping_file (hflags : mapping.flags &&& 0x20 = 0) :
    transcriptMapping mapping = .LOAD_ACTION_MMAP_FILE mapping.addr mapping.length mapping.prot
      mapping.offset mapping.clearLength := if_neg (not_not.mpr hflags)

theorem transcriptMapping_anon (hflags : mapping.flags &&& 0x20 ≠ 0) :
    transcriptMapping mapping = .LOAD_ACTION_MMAP_ANON mapping.addr mapping.length mapping.prot
      mapping.offset mapping.clearLength := if_pos hflags

/-- What is read of the statement of a mapping. -/
theorem mapping_reads (mapping : Mapping) (s : LoaderState size) :
    StatementReads (wordOf (transcriptMapping mapping))
      [(if mapping.flags &&& 0x20 ≠ 0 then 3 else 2 : BitVec 64).setWidth _,
        mapping.addr.setWidth _, mapping.length.setWidth _, mapping.prot.setWidth _,
        mapping.offset.setWidth _, mapping.clearLength.setWidth _] s := by
  have hreads := wordOf_reads (transcriptMapping mapping) s
  by_cases hflags : mapping.flags &&& 0x20 ≠ 0
  · rw [if_pos hflags]
    rw [transcriptMapping_anon hflags] at hreads ⊢
    exact hreads
  · rw [if_neg hflags]
    rw [transcriptMapping_file (not_not.mp hflags)] at hreads ⊢
    exact hreads

theorem interpret_file (hsize : LoaderSize K size) (hflags : mapping.flags &&& 0x20 = 0) :
    interpret kernel (wordOf (transcriptMapping mapping)) 0 s =
      (mmapFile kernel (wordOf (transcriptMapping mapping)) >>= fun _ => pure 6) s := by
  have hread := mapping_reads mapping s 0 ((2 : BitVec 64).setWidth _) (by
    rw [if_neg (not_not.mpr hflags)]
    rfl)
  exact interpret_mmapFile (action_toNat hsize (by decide)) hread

theorem runMappings_file (hsize : LoaderSize K size) (hflags : mapping.flags &&& 0x20 = 0)
    (h : mmapFile kernel (wordOf (transcriptMapping mapping)) s = .ok () s') :
    runMappings kernel (mapping :: rest) s = runMappings kernel rest s' := by
  rw [runMappings_cons, run_bind ((interpret_file hsize hflags).trans (run_bind h _))]

theorem runMappings_file_fault (hsize : LoaderSize K size) (hflags : mapping.flags &&& 0x20 = 0)
    (h : mmapFile kernel (wordOf (transcriptMapping mapping)) s = .error .fault s') :
    runMappings kernel (mapping :: rest) s = .error .fault s' := by
  rw [runMappings_cons, run_bind_end ((interpret_file hsize hflags).trans (run_bind_end h _))]

theorem runMappings_anon (hsize : LoaderSize K size) (hflags : mapping.flags &&& 0x20 ≠ 0)
    (h : mmapAnon kernel (wordOf (transcriptMapping mapping)) s = .ok () s') :
    runMappings kernel (mapping :: rest) s = runMappings kernel rest s' := by
  have hread := mapping_reads mapping s 0 ((3 : BitVec 64).setWidth _) (by
    rw [if_pos hflags]
    rfl)
  have hstep : interpret kernel (wordOf (transcriptMapping mapping)) 0 s = .ok 6 s' :=
    (interpret_mmapAnon (action_toNat hsize (by decide)) hread).trans (run_bind h _)
  rw [runMappings_cons, run_bind hstep]

end

end

end Loader

end PRoot
