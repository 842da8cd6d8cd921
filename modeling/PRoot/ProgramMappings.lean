import PRoot.LoadInfo

/-!
# The mappings of a program

What `execve/enter.c` collects of the program headers of a file: the mappings of its `PT_LOAD`
segments, in order.

* `mappingsOf`: the mappings of one segment;
* `addMapping_inv`: `add_mapping` adds them;
* `visited`: the program headers that are visited;
* `extractLoadInfo_mappings`: what `extract_load_info` collects;
* `Collected`: what is collected of a program and its interpreter.
-/

namespace PRoot

section

variable {σ β γ : Type} {s s' : σ}

/-- What a sequence does that succeeds. -/
theorem seq_inv {x : EStateM Errno σ β} {k : β → EStateM Errno σ γ} {c : γ}
    (h : (x >>= k) s = .ok c s') : ∃ b middle, x s = .ok b middle ∧ k b middle = .ok c s' := by
  change EStateM.bind x k s = _ at h
  unfold EStateM.bind at h
  cases hx : x s with
  | ok b middle =>
      rw [hx] at h
      exact ⟨b, middle, rfl, h⟩
  | error status middle =>
      rw [hx] at h
      cases h

/-- A guard that succeeds was not met. -/
theorem unless_inv {c : Prop} [Decidable c] {status : Errno} {k : β → EStateM Errno σ γ}
    {rest : EStateM Errno σ γ} {value : γ}
    (h : (if c then (throw status >>= k) else rest) s = .ok value s') :
    ¬ c ∧ rest s = .ok value s' := by
  split at h
  · obtain ⟨b, middle, hthrow, hrest⟩ := seq_inv h
    cases hthrow
  case isFalse hnot => exact ⟨hnot, h⟩

end

section

variable (K : ExecHost) (header : ElfHeader) (segment : ProgramHeader)

/-- Where the part of a segment ends that is mapped from the file. -/
def fileEnd : BitVec 64 :=
  K.word ((segment.vaddr header + segment.filesz header + K.pageSize) &&& K.pageMask)

/-- Where a segment ends. -/
def segmentEnd : BitVec 64 :=
  K.word ((segment.vaddr header + segment.memsz header + K.pageSize) &&& K.pageMask)

/-- The protection that a segment asks for. -/
def segmentProt : BitVec 64 :=
  (if segment.flags header &&& 4 ≠ 0 then 1 else 0)
    ||| (if segment.flags header &&& 2 ≠ 0 then 2 else 0)
    ||| (if segment.flags header &&& 1 ≠ 0 then 4 else 0)

/-- The mapping of the file. -/
def fileMapping : Mapping where
  addr := K.word (segment.vaddr header &&& K.pageMask)
  length := K.word (fileEnd K header segment - K.word (segment.vaddr header &&& K.pageMask))
  clearLength :=
    if segment.memsz header > segment.filesz header then
      K.word (fileEnd K header segment - segment.vaddr header - segment.filesz header)
    else 0
  prot := segmentProt header segment
  flags := 0x02 ||| 0x10
  fd := K.word (-1)
  offset := K.word (segment.offset header &&& K.pageMask)

/-- The new pages for the bytes that the file does not have. -/
def anonymousMapping : Mapping where
  addr := fileEnd K header segment
  length := K.word (segmentEnd K header segment - fileEnd K header segment)
  clearLength := 0
  prot := segmentProt header segment
  flags := 0x02 ||| 0x20 ||| 0x10
  fd := K.word (-1)
  offset := 0

/-- **The mappings of a segment.** -/
def mappingsOf : List Mapping :=
  fileMapping K header segment ::
    if segment.memsz header > segment.filesz header ∧
        segmentEnd K header segment > fileEnd K header segment then
      [anonymousMapping K header segment]
    else []

variable {K header segment}

theorem reallocMappings_inv {ofInterp : Bool} {info info' : LoadInfo} {mappings : List Mapping}
    (h : reallocMappings K ofInterp info = .ok mappings info') :
    mappings = info.mappings.getD [] ∧ info' = info := by
  unfold reallocMappings at h
  obtain ⟨same, middle, hget, hrest⟩ := seq_inv h
  cases hget
  dsimp only at hrest
  split at hrest
  · cases hrest
    exact ⟨rfl, rfl⟩
  · obtain ⟨_, middle, hset, hthrow⟩ := seq_inv hrest
    cases hthrow

/-- `add_mapping` adds the mappings of the segment. -/
theorem addMapping_inv {ofInterp : Bool} {info info' : LoadInfo}
    (h : addMapping K ofInterp header segment info = .ok () info') :
    info' = { info with
      mappings := some (info.mappings.getD [] ++ mappingsOf K header segment) } := by
  unfold addMapping at h
  obtain ⟨mappings, middle, hrealloc, hrest⟩ := seq_inv h
  obtain ⟨rfl, rfl⟩ := reallocMappings_inv hrealloc
  obtain ⟨_, middle, hmodify, hrest⟩ := seq_inv hrest
  cases hmodify
  change (if segment.memsz header > segment.filesz header ∧
      segmentEnd K header segment > fileEnd K header segment then _ else _ : LoadM Unit) _ = _
    at hrest
  by_cases hbss : segment.memsz header > segment.filesz header ∧
      segmentEnd K header segment > fileEnd K header segment
  · rw [if_pos hbss] at hrest
    obtain ⟨mappings, middle, hrealloc, hmodify⟩ := seq_inv hrest
    obtain ⟨rfl, rfl⟩ := reallocMappings_inv hrealloc
    cases hmodify
    rw [mappingsOf, if_pos hbss, Option.getD_some, List.append_assoc]
    rfl
  · rw [if_neg hbss] at hrest
    cases hrest
    rw [mappingsOf, if_neg hbss]
    rfl

end

/-! ## The program headers of a file -/

/-- The program headers that are read, from an offset of the file on. -/
def headersFrom (file : OpenFile) (phentsize : Nat) : Nat → Nat → List ProgramHeader
  | 0, _ => []
  | n + 1, offset =>
      match file.pread phentsize offset with
      | .error _ => []
      | .ok read => read :: headersFrom file phentsize n (offset + phentsize)

/-- The program headers that are visited: none when the low half of their offset is negative
as an `int`. -/
def visited (file : OpenFile) (header : ElfHeader) : List ProgramHeader :=
  if Int.bmod header.phoff.toNat (2 ^ 32) < 0 then []
  else headersFrom file header.phentsize.toNat header.phnum.toNat header.phoff.toNat

/-- The `PT_LOAD` segments that are visited. -/
def loadSegments (file : OpenFile) (header : ElfHeader) : List ProgramHeader :=
  (visited file header).filter fun programHeader => programHeader.type header = 1

variable {file : OpenFile}

theorem visitProgramHeaders_inv {σ : Type} {phentsize : Nat}
    {callback : ProgramHeader → EStateM Errno σ Unit} {n offset : Nat} {s s' : σ}
    (h : visitProgramHeaders file phentsize callback n offset s = .ok () s') :
    (headersFrom file phentsize n offset).forM callback s = .ok () s' := by
  induction n generalizing offset s with
  | zero => exact h
  | succ n ih =>
      unfold visitProgramHeaders at h
      unfold headersFrom
      cases hread : file.pread phentsize offset with
      | error status =>
          rw [hread] at h
          cases h
      | ok read =>
          simp only [hread] at h
          split at h
          · cases h
          · obtain ⟨_, middle, hcallback, hrest⟩ := seq_inv h
            change EStateM.bind (callback read) _ s = _
            unfold EStateM.bind
            rw [hcallback]
            exact ih hrest

theorem iterateProgramHeaders_inv {σ : Type} {errno : Option Errno} {header : ElfHeader}
    {callback : ProgramHeader → EStateM Errno σ Unit} {s s' : σ}
    (h : iterateProgramHeaders errno file header callback s = .ok () s') :
    (visited file header).forM callback s = .ok () s' := by
  unfold iterateProgramHeaders at h
  split at h
  · cases h
  split at h
  · cases h
  unfold visited
  cases hseek : file.lseek header.phoff.toNat with
  | error status =>
      rw [hseek] at h
      cases h
  | ok offset =>
      have hoffset : offset = header.phoff.toNat := by
        unfold OpenFile.lseek at hseek
        split at hseek
        · exact (Except.ok.inj hseek).symm
        · cases hseek
      subst hoffset
      simp only [hseek] at h
      split at h
      case isTrue hnegative =>
        rw [if_pos hnegative]
        split at h
        · cases h
        · exact h
      case isFalse hnegative =>
        rw [if_neg hnegative]
        exact visitProgramHeaders_inv h

variable {hostPath : CStr}

section

variable {K : ExecHost} {qemu ofInterp : Bool} {info info' : LoadInfo}

theorem modify_inv {σ : Type} {f : σ → σ} {s s' : σ}
    (h : (modify f : EStateM Errno σ PUnit) s = .ok PUnit.unit s') : s' = f s := by
  cases h
  rfl

theorem orThrow_inv {β : Type} {answer : Except Errno β} {value : β}
    (h : orThrow answer info = .ok value info') : answer = .ok value ∧ info' = info := by
  unfold orThrow at h
  cases answer with
  | error status => cases h
  | ok b =>
      cases h
      exact ⟨rfl, rfl⟩

/-- The interpreter that a program header names, from the point of view of the host. -/
def interpreterOf (K : ExecHost) (qemu : Bool) (file : OpenFile) (header : ElfHeader)
    (programHeader : ProgramHeader) : Option CStr :=
  match preadInterp K file (programHeader.filesz header) (programHeader.offset header) with
  | .error _ => none
  | .ok bytes =>
      let name := cString bytes
      (K.translateAndCheckExec
        (if qemu && name.head? = some '/' then hostRootfs ++ name else name)).toOption

/-- An interpreter before its own file is read. -/
structure IsInterpreter (hostPath : CStr) (interp : LoadInfo) : Prop where
  hostPath : interp.hostPath = some hostPath
  elfHeader : interp.elfHeader = .zero
  mappings : interp.mappings = none
  interp : interp.interp = none

/-- The name of an interpreter adds no mapping. -/
theorem addInterp_inv {header : ElfHeader} {programHeader : ProgramHeader}
    (h : addInterp K qemu ofInterp file header programHeader info = .ok () info') :
    info'.mappings = info.mappings ∧ info'.elfHeader = info.elfHeader ∧ info.interp = none ∧
      ∃ hostPath interp, interpreterOf K qemu file header programHeader = some hostPath ∧
        info'.interp = some interp ∧ IsInterpreter hostPath interp := by
  unfold addInterp at h
  dsimp only at h
  obtain ⟨same, middle, hget, h⟩ := seq_inv h
  cases hget
  obtain ⟨hfirst, h⟩ := unless_inv h
  obtain ⟨-, h⟩ := unless_inv h
  obtain ⟨_, middle, hmodify, h⟩ := seq_inv h
  obtain rfl := modify_inv hmodify
  obtain ⟨-, h⟩ := unless_inv h
  obtain ⟨bytes, middle, hread, h⟩ := seq_inv h
  obtain ⟨hname, rfl⟩ := orThrow_inv hread
  obtain ⟨-, h⟩ := unless_inv h
  obtain ⟨hostPath, middle, hcheck, h⟩ := seq_inv h
  obtain ⟨hprogram, rfl⟩ := orThrow_inv hcheck
  obtain ⟨-, h⟩ := unless_inv h
  obtain ⟨_, middle, hmodify, h⟩ := seq_inv h
  obtain rfl := modify_inv hmodify
  obtain ⟨-, h⟩ := unless_inv h
  obtain rfl := modify_inv h
  refine ⟨rfl, rfl, by simpa using hfirst, hostPath, _, ?_, rfl, rfl, rfl, rfl, rfl⟩
  unfold interpreterOf
  simp only [hname, hprogram, Except.toOption]

theorem addLoadInfo_inv {header : ElfHeader} {programHeader : ProgramHeader}
    (h : addLoadInfo K qemu ofInterp file header programHeader info = .ok () info') :
    info'.mappings.getD [] = info.mappings.getD [] ++
        (if programHeader.type header = 1 then mappingsOf K header programHeader else []) ∧
      info'.elfHeader = info.elfHeader := by
  unfold addLoadInfo at h
  split at h
  case isTrue hload =>
    rw [addMapping_inv h, if_pos hload]
    exact ⟨rfl, rfl⟩
  case isFalse hload =>
    rw [if_neg hload, List.append_nil]
    split at h
    · obtain ⟨hmappings, hheader, -⟩ := addInterp_inv h
      rw [hmappings]
      exact ⟨rfl, hheader⟩
    · split at h
      · obtain rfl := modify_inv h
        exact ⟨rfl, rfl⟩
      · cases h
        exact ⟨rfl, rfl⟩

/-- What is collected of program headers. -/
theorem addLoadInfos_inv {header : ElfHeader} {programHeaders : List ProgramHeader}
    (h : programHeaders.forM (addLoadInfo K qemu ofInterp file header) info = .ok () info') :
    info'.mappings.getD [] = info.mappings.getD [] ++
        (programHeaders.filter fun programHeader => programHeader.type header = 1).flatMap
          (mappingsOf K header) ∧
      info'.elfHeader = info.elfHeader := by
  induction programHeaders generalizing info with
  | nil =>
      cases h
      exact ⟨(List.append_nil _).symm, rfl⟩
  | cons programHeader programHeaders ih =>
      obtain ⟨_, middle, hfirst, hrest⟩ := seq_inv h
      obtain ⟨hmappings, hheader⟩ := addLoadInfo_inv hfirst
      obtain ⟨hmappings', hheader'⟩ := ih hrest
      refine ⟨?_, hheader'.trans hheader⟩
      rw [hmappings', hmappings, List.append_assoc, List.filter_cons]
      by_cases hload : programHeader.type header = 1
      · rw [if_pos hload, if_pos (by simpa using hload), List.flatMap_cons]
      · rw [if_neg hload, if_neg (by simpa using hload), List.nil_append]

/-- The interpreter that is named by a list of program headers. -/
def namedBy (K : ExecHost) (qemu : Bool) (file : OpenFile) (header : ElfHeader)
    (programHeaders : List ProgramHeader) : Option CStr :=
  (programHeaders.find? fun programHeader => programHeader.type header = 3).bind
    (interpreterOf K qemu file header)

theorem addLoadInfo_interp {header : ElfHeader} {programHeader : ProgramHeader}
    (h : addLoadInfo K qemu ofInterp file header programHeader info = .ok () info')
    (hother : programHeader.type header ≠ 3) : info'.interp = info.interp := by
  unfold addLoadInfo at h
  rw [if_neg hother] at h
  split at h
  · rw [addMapping_inv h]
  · split at h
    · obtain rfl := modify_inv h
      rfl
    · cases h
      rfl

/-- An interpreter is named once. -/
theorem addLoadInfos_named {header : ElfHeader} {programHeaders : List ProgramHeader}
    (h : programHeaders.forM (addLoadInfo K qemu ofInterp file header) info = .ok () info')
    (hnamed : info.interp.isSome) : info'.interp = info.interp := by
  induction programHeaders generalizing info with
  | nil =>
      cases h
      rfl
  | cons programHeader programHeaders ih =>
      obtain ⟨_, middle, hfirst, hrest⟩ := seq_inv h
      by_cases htype : programHeader.type header = 3
      · unfold addLoadInfo at hfirst
        rw [if_neg (by rw [htype]; decide), if_pos htype] at hfirst
        obtain ⟨-, -, hnone, -⟩ := addInterp_inv hfirst
        rw [hnone] at hnamed
        cases hnamed
      · have hsame := addLoadInfo_interp hfirst htype
        rw [ih hrest (by rwa [hsame]), hsame]

theorem addLoadInfos_interp {header : ElfHeader} {programHeaders : List ProgramHeader}
    (h : programHeaders.forM (addLoadInfo K qemu ofInterp file header) info = .ok () info')
    (hnone : info.interp = none) :
    (namedBy K qemu file header programHeaders = none ∧ info'.interp = none) ∨
      ∃ hostPath interp, namedBy K qemu file header programHeaders = some hostPath ∧
        info'.interp = some interp ∧ IsInterpreter hostPath interp := by
  induction programHeaders generalizing info with
  | nil =>
      cases h
      exact .inl ⟨rfl, hnone⟩
  | cons programHeader programHeaders ih =>
      obtain ⟨_, middle, hfirst, hrest⟩ := seq_inv h
      unfold namedBy
      by_cases htype : programHeader.type header = 3
      · rw [List.find?_cons_of_pos (by simpa using htype)]
        unfold addLoadInfo at hfirst
        rw [if_neg (by rw [htype]; decide), if_pos htype] at hfirst
        obtain ⟨-, -, -, hostPath, interp, hname, hinterp, his⟩ := addInterp_inv hfirst
        refine .inr ⟨hostPath, interp, hname, ?_, his⟩
        rw [addLoadInfos_named hrest (by rw [hinterp]; rfl), hinterp]
      · rw [List.find?_cons_of_neg (by simpa using htype)]
        exact ih hrest (by rw [addLoadInfo_interp hfirst htype, hnone])

/-- **What is collected of a file**: its header, the mappings of its segments, the interpreter
that it names. -/
theorem extractLoadInfo_inv (h : extractLoadInfo K qemu ofInterp hostPath info = .ok () info') :
    ∃ file, K.openFile hostPath = .ok file ∧
      openElf file info.elfHeader = (info'.elfHeader, .ok ()) ∧
      (info'.elfHeader.type = 2 ∨ info'.elfHeader.type = 3) ∧
      info'.mappings.getD [] = info.mappings.getD [] ++
        (loadSegments file info'.elfHeader).flatMap (mappingsOf K info'.elfHeader) ∧
      (info.interp = none →
        (namedBy K qemu file info'.elfHeader (visited file info'.elfHeader) = none ∧
          info'.interp = none) ∨
        ∃ hostPath interp,
          namedBy K qemu file info'.elfHeader (visited file info'.elfHeader) = some hostPath ∧
            info'.interp = some interp ∧ IsInterpreter hostPath interp) := by
  unfold extractLoadInfo at h
  obtain ⟨file, middle, hfile, hread⟩ := seq_inv h
  obtain ⟨hopen, rfl⟩ := orThrow_inv hfile
  obtain ⟨same, middle, hget, hread⟩ := seq_inv hread
  cases hget
  obtain ⟨_, middle, hmodify, hread⟩ := seq_inv hread
  obtain rfl := modify_inv hmodify
  obtain ⟨_, middle, helf, hread⟩ := seq_inv hread
  obtain ⟨haccepted, rfl⟩ := orThrow_inv helf
  obtain ⟨htype, hread⟩ := unless_inv hread
  have hvisited := iterateProgramHeaders_inv hread
  obtain ⟨hmappings, hheader⟩ := addLoadInfos_inv hvisited
  refine ⟨file, hopen, ?_, ?_, ?_, ?_⟩
  · rw [hheader]
    exact Prod.ext rfl haccepted
  · rw [hheader]
    by_contra hnot
    exact htype (not_or.mp hnot)
  · rw [hmappings, hheader]
    rfl
  · intro hnone
    rw [hheader]
    exact addLoadInfos_interp hvisited hnone

end

/-! ## A program and its interpreter -/

section

variable (K : ExecHost) (qemu : Bool)

/-- The header of the file at a path. -/
def headerAt (hostPath : CStr) : ElfHeader :=
  match K.openFile hostPath with
  | .error _ => .zero
  | .ok file => (openElf file .zero).1

/-- The `PT_LOAD` segments of the file at a path. -/
def segmentsAt (hostPath : CStr) : List ProgramHeader :=
  match K.openFile hostPath with
  | .error _ => []
  | .ok file => loadSegments file (headerAt K hostPath)

/-- The interpreter that the file at a path names. -/
def interpreterAt (hostPath : CStr) : Option CStr :=
  match K.openFile hostPath with
  | .error _ => none
  | .ok file => namedBy K qemu file (headerAt K hostPath) (visited file (headerAt K hostPath))

/-- What is said of a file by its load info. -/
structure Describes (hostPath : CStr) (info : LoadInfo) : Prop where
  elfHeader : info.elfHeader = headerAt K hostPath
  mappings : info.mappings.getD [] =
    (segmentsAt K hostPath).flatMap (mappingsOf K (headerAt K hostPath))

/-- **What is collected** of a program and of its interpreter. -/
structure Collected (hostPath : CStr) (info : LoadInfo) : Prop where
  program : Describes K hostPath info
  noInterp : interpreterAt K qemu hostPath = none → info.interp = none
  interp : ∀ path, interpreterAt K qemu hostPath = some path →
    ∃ interp, info.interp = some interp ∧ Describes K path interp

variable {K qemu}

theorem extractLoadInfo_describes {ofInterp : Bool} {info info' : LoadInfo}
    (h : extractLoadInfo K qemu ofInterp hostPath info = .ok () info')
    (hheader : info.elfHeader = .zero) (hmappings : info.mappings = none) :
    Describes K hostPath info' := by
  obtain ⟨file, hopen, helf, -, hcollected, -⟩ := extractLoadInfo_inv h
  have hat : headerAt K hostPath = info'.elfHeader := by
    unfold headerAt
    rw [hheader] at helf
    rw [hopen]
    dsimp only
    rw [helf]
  have hsegments : segmentsAt K hostPath = loadSegments file info'.elfHeader := by
    unfold segmentsAt
    rw [hopen]
    dsimp only
    rw [hat]
  refine ⟨hat.symm, ?_⟩
  rw [hcollected, hmappings, hsegments, hat]
  exact List.nil_append _

/-- The interpreter of a program keeps none of its own. -/
theorem extractInterp_inv {info info' : LoadInfo}
    (h : extractInterp K qemu info = .ok () info') :
    (info.interp = none ∧ info' = info) ∨
      ∃ interp interp', info.interp = some interp ∧
        extractLoadInfo K qemu true (interp.hostPath.getD []) interp = .ok () interp' ∧
          info' = { info with interp := some { interp' with interp := none } } := by
  unfold extractInterp at h
  split at h
  case h_1 hnone =>
    cases h
    exact .inl ⟨hnone, rfl⟩
  case h_2 interp hsome =>
    cases hextract : extractLoadInfo K qemu true (interp.hostPath.getD []) interp with
    | error status interp' =>
        rw [hextract] at h
        cases h
    | ok value interp' =>
        rw [hextract] at h
        cases h
        exact .inr ⟨interp, interp', hsome, hextract, rfl⟩

theorem collectLoadInfo_collected {userPath : CStr} {rawPath : Option CStr} {info : LoadInfo}
    (h : collectLoadInfo K qemu hostPath userPath rawPath .zero = .ok () info) :
    Collected K qemu hostPath info := by
  unfold collectLoadInfo at h
  obtain ⟨-, h⟩ := unless_inv h
  obtain ⟨_, middle, hmodify, h⟩ := seq_inv h
  obtain rfl := modify_inv hmodify
  obtain ⟨-, h⟩ := unless_inv h
  obtain ⟨_, middle, hmodify, h⟩ := seq_inv h
  obtain rfl := modify_inv hmodify
  obtain ⟨-, h⟩ := unless_inv h
  obtain ⟨_, middle, hmodify, h⟩ := seq_inv h
  obtain rfl := modify_inv hmodify
  obtain ⟨_, program, hextract, hinterp⟩ := seq_inv h
  have hdescribes := extractLoadInfo_describes hextract rfl rfl
  obtain ⟨file, hopen, -, -, -, hnamed⟩ := extractLoadInfo_inv hextract
  have hat : interpreterAt K qemu hostPath =
      namedBy K qemu file program.elfHeader (visited file program.elfHeader) := by
    unfold interpreterAt
    rw [hdescribes.elfHeader]
    simp only [hopen]
  rw [← hat] at hnamed
  replace hnamed := hnamed rfl
  obtain ⟨hnone, rfl⟩ | ⟨interp, interp', hsome, hextract', rfl⟩ := extractInterp_inv hinterp
  · refine ⟨hdescribes, fun _ => hnone, ?_⟩
    intro path hpath
    obtain ⟨hnot, -⟩ | ⟨_, _, _, hsome, -⟩ := hnamed
    · rw [hnot] at hpath
      cases hpath
    · rw [hnone] at hsome
      cases hsome
  · obtain ⟨-, hnot⟩ | ⟨path, interp₂, hpath, hsome₂, his⟩ := hnamed
    · rw [hsome] at hnot
      cases hnot
    · obtain rfl := Option.some.inj (hsome.symm.trans hsome₂)
      rw [his.hostPath, Option.getD_some] at hextract'
      have hinterp := extractLoadInfo_describes hextract' his.elfHeader his.mappings
      refine ⟨⟨hdescribes.elfHeader, hdescribes.mappings⟩, ?_, ?_⟩
      · intro hnot
        rw [hpath] at hnot
        cases hnot
      · intro path₂ hpath₂
        obtain rfl := Option.some.inj (hpath.symm.trans hpath₂)
        exact ⟨_, rfl, hinterp.elfHeader, hinterp.mappings⟩

theorem mappingsOf_ne_nil {header : ElfHeader} {segment : ProgramHeader} :
    mappingsOf K header segment ≠ [] := List.cons_ne_nil _ _

/-- A file without a segment is the one whose load info has no mapping. -/
theorem Describes.mappings_eq_nil_iff {info : LoadInfo} (h : Describes K hostPath info) :
    info.mappings.getD [] = [] ↔ segmentsAt K hostPath = [] := by
  rw [h.mappings, List.flatMap_eq_nil_iff]
  constructor
  · intro hall
    by_contra hne
    obtain ⟨segment, hmem⟩ := List.exists_mem_of_ne_nil _ hne
    exact mappingsOf_ne_nil (hall segment hmem)
  · intro hnil segment hmem
    rw [hnil] at hmem
    cases hmem

/-! ## Where it is loaded -/

theorem LoadInfo.addLoadBase_mappings (base : BitVec 64) (info : LoadInfo) :
    (info.addLoadBase K base).mappings.getD [] =
      (info.mappings.getD []).map fun mapping =>
        { mapping with addr := K.word (mapping.addr + base) } := by
  unfold LoadInfo.addLoadBase
  cases info.mappings with
  | none => rfl
  | some mappings => rfl

/-- An object is placed, but for a position independent one without a mapping. -/
theorem LoadInfo.place_eq_none_iff {base : BitVec 64} {info : LoadInfo} :
    info.place K base = none ↔
      info.elfHeader.isPositionIndependent ∧ info.mappings.getD [] = [] := by
  unfold LoadInfo.place
  cases info.elfHeader.isPositionIndependent with
  | false => simp
  | true =>
      cases hmappings : info.mappings with
      | none => simp
      | some mappings =>
          cases mappings with
          | nil => simp
          | cons mapping mappings => simp

theorem LoadInfo.place_inv {base : BitVec 64} {info placed : LoadInfo}
    (h : info.place K base = some placed) :
    placed = info ∨ placed = info.addLoadBase K base := by
  unfold LoadInfo.place at h
  split at h
  · split at h
    · obtain rfl := Option.some.inj h
      split
      · exact .inr rfl
      · exact .inl rfl
    · cases h
  · exact .inl (Option.some.inj h).symm

end

end PRoot
