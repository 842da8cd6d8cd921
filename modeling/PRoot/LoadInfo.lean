import PRoot.Elf

/-!
# The description of a program

`LoadInfo` of `execve/execve.h`, and the part of `execve/enter.c` that collects it from the
program and its ELF interpreter.

* `addMapping`, `addInterp`: what one program header adds;
* `extractLoadInfo`: all that one file says;
* `computeLoadAddresses`: where position independent objects go.
-/

namespace PRoot

/-- `Mapping`. -/
structure Mapping where
  addr : BitVec 64
  length : BitVec 64
  clearLength : BitVec 64
  prot : BitVec 64
  flags : BitVec 64
  fd : BitVec 64
  offset : BitVec 64
  deriving DecidableEq

/-- `LoadInfo`.  A pointer that is `NULL` is `none`. -/
structure LoadInfo where
  hostPath : Option CStr
  userPath : Option CStr
  rawPath : Option CStr
  mappings : Option (List Mapping)
  elfHeader : ElfHeader
  needsExecutableStack : Bool
  interp : Option LoadInfo

/-- `talloc_zero`. -/
def LoadInfo.zero : LoadInfo := ⟨none, none, none, none, .zero, false, none⟩

/-- The allocations of an `execve` whose failure it reports; a load info is that of the
program or that of its interpreter (`ofInterp`). -/
inductive Allocation
  | rawPath | oldUserPath (round : Nat) | resizedArgv (round : Nat) | writtenArgv (round : Nat)
  | loadInfo | hostPath | userPath | rawPathReference
  | mapping (ofInterp : Bool) (index : Nat) | interp (ofInterp : Bool)
  | interpName (ofInterp : Bool) (size : BitVec 64) | interpNameOfHost (ofInterp : Bool)
  | interpHostPath (ofInterp : Bool) | interpUserPath (ofInterp : Bool)

/-- What an `execve` depends on besides its tracee's own fields: the platform, its files,
and how the paths of the tracee are translated. -/
structure ExecHost where
  host : Host
  /-- `sysconf(_SC_PAGE_SIZE)`, or its default. -/
  pageSize : BitVec 64
  /-- `BINPRM_BUF_SIZE` of `<linux/binfmts.h>`. -/
  binprmBufSize : Nat
  /-- `MAXSYMLINKS` of `<sys/param.h>`. -/
  maxSymlinks : Nat
  /-- `PROOT_FORCE_FOREIGN_BINARY` is set. -/
  forceForeign : Bool
  /-- `PROOT_USE_LOADER_FOR_QEMU` is set. -/
  useLoaderForQemu : Bool
  /-- `errno` as the calls before left it. -/
  errno : Option Errno
  allocates : Allocation → Bool
  /-- `translate_path` of the tracee, from its working directory, following a final link. -/
  translatePath : CStr → Except Errno CStr
  /-- `detranslate_path` of the tracee, without a referrer. -/
  detranslatePath : CStr → Option CStr
  accessF : CStr → Bool
  accessX : CStr → Bool
  lstat : CStr → Bool
  openFile : CStr → Except Errno OpenFile
  /-- `get_loader_path`, for a 32-bit program or not; the loader may fail to be extracted. -/
  loaderPath : Bool → Option CStr

namespace ExecHost

variable (K : ExecHost)

/-- A value as a `word_t`. -/
def word (value : BitVec 64) : BitVec 64 :=
  if K.host.word = 4 then value &&& 0xFFFFFFFF else value

/-- `page_mask`. -/
def pageMask : BitVec 64 := ~~~(K.pageSize - 1)

/-- `HAS_LOADER_32BIT`. -/
def hasLoader32bit : Bool := K.host = .ARCH_X86_64 || K.host = .ARCH_ARM64

/-- `EXEC_PIC_ADDRESS`, and that of 32-bit programs. -/
def execPicAddress (class32 : Bool) : BitVec 64 :=
  match K.host with
  | .ARCH_X86_64 => if class32 then 0x0f000000 else 0x500000000000
  | .ARCH_ARM64 => if class32 then 0x0f000000 else 0x3000000000
  | .ARCH_ARM_EABI | .ARCH_X86 | .ARCH_SH4 => 0x0f000000

/-- `INTERP_PIC_ADDRESS`, and that of 32-bit programs. -/
def interpPicAddress (class32 : Bool) : BitVec 64 :=
  match K.host with
  | .ARCH_X86_64 => if class32 then 0xaf000000 else 0x6f0000000000
  | .ARCH_ARM64 => if class32 then 0x1f000000 else 0x3f00000000
  | .ARCH_ARM_EABI => 0x1f000000
  | .ARCH_X86 | .ARCH_SH4 => 0xaf000000

/-- `translate_and_check_exec`. -/
def translateAndCheckExec (userPath : CStr) : Except Errno CStr :=
  if userPath = [] then .error .ENOEXEC
  else do
    let hostPath ← K.translatePath userPath
    if !K.accessF hostPath then .error .ENOENT
    else if !K.accessX hostPath then .error .EACCES
    else if !K.lstat hostPath then .error .EPERM
    else .ok hostPath

end ExecHost

/-- `HOST_ROOTFS`. -/
def hostRootfs : CStr := "/host-rootfs".toList

/-- A string that was read, up to its first `'\0'`. -/
def cString (bytes : List (BitVec 8)) : CStr :=
  (bytes.takeWhile (· ≠ 0)).map fun byte => Char.ofNat byte.toNat

/-- What fills in a load info, where it gives up, and what it leaves then. -/
abbrev LoadM := EStateM Errno LoadInfo

/-- Give up with an error, unless there is none. -/
def orThrow {β : Type} (answer : Except Errno β) : LoadM β :=
  match answer with
  | .ok value => pure value
  | .error status => throw status

section

variable (K : ExecHost) (qemu ofInterp : Bool)

/-- Make room for another mapping.  A failed reallocation leaves `NULL`. -/
def reallocMappings : LoadM (List Mapping) := do
  let info ← get
  let mappings := info.mappings.getD []
  if K.allocates (.mapping ofInterp mappings.length) then return mappings
  else
    set { info with mappings := none }
    throw .ENOMEM

/-- `add_mapping`, with `MAP_PRIVATE`, `MAP_FIXED` and `MAP_ANONYMOUS`. -/
def addMapping (header : ElfHeader) (programHeader : ProgramHeader) : LoadM Unit := do
  let vaddr := programHeader.vaddr header
  let filesz := programHeader.filesz header
  let memsz := programHeader.memsz header
  let flags := programHeader.flags header
  let mappings ← reallocMappings K ofInterp
  let startAddress := K.word (vaddr &&& K.pageMask)
  let endAddress := K.word ((vaddr + filesz + K.pageSize) &&& K.pageMask)
  let mapping : Mapping := {
    fd := K.word (-1)
    offset := K.word (programHeader.offset header &&& K.pageMask)
    addr := startAddress
    length := K.word (endAddress - startAddress)
    clearLength := if memsz > filesz then K.word (endAddress - vaddr - filesz) else 0
    flags := 0x02 ||| 0x10
    prot := (if flags &&& 4 ≠ 0 then 1 else 0) ||| (if flags &&& 2 ≠ 0 then 2 else 0)
      ||| (if flags &&& 1 ≠ 0 then 4 else 0) }
  modify fun info => { info with mappings := some (mappings ++ [mapping]) }
  -- New pages for the bytes of the segment that the file does not have.
  let finalAddress := K.word ((vaddr + memsz + K.pageSize) &&& K.pageMask)
  if memsz > filesz ∧ finalAddress > endAddress then
    let mappings ← reallocMappings K ofInterp
    modify fun info => { info with
      mappings := some (mappings ++ [{
        fd := K.word (-1)
        offset := 0
        addr := endAddress
        length := K.word (finalAddress - endAddress)
        clearLength := 0
        flags := 0x02 ||| 0x20 ||| 0x10
        prot := mapping.prot }]) }

/-- `pread` of the name of an interpreter.  Its answer is compared with the size that was
asked for as a `size_t`. -/
def preadInterp (file : OpenFile) (size offset : BitVec 64) : Except Errno (List (BitVec 8)) :=
  let read := file.pread size.toNat offset.toNat
  let status : Int :=
    match read with
    | .ok bytes => bytes.length
    | .error _ => -1
  if status % (256 ^ K.host.word : Nat) ≠ size.toNat then .error .EACCES
  else if status < 0 then .error .EPERM
  else read

/-- `add_interp`. -/
def addInterp (file : OpenFile) (header : ElfHeader) (programHeader : ProgramHeader) :
    LoadM Unit := do
  let filesz := programHeader.filesz header
  if (← get).interp.isSome then throw .EINVAL
  if !K.allocates (.interp ofInterp) then throw .ENOMEM
  modify fun info => { info with interp := some .zero }
  if !K.allocates (.interpName ofInterp (filesz + 1)) then throw .ENOMEM
  let bytes ← orThrow (preadInterp K file filesz (programHeader.offset header))
  let name := cString bytes
  let foreign := qemu && name.head? = some '/'
  if foreign && !K.allocates (.interpNameOfHost ofInterp) then throw .ENOMEM
  let userPath := if foreign then hostRootfs ++ name else name
  let hostPath ← orThrow (K.translateAndCheckExec userPath)
  if !K.allocates (.interpHostPath ofInterp) then throw .ENOMEM
  modify fun info => { info with interp := some { LoadInfo.zero with hostPath := some hostPath } }
  if !K.allocates (.interpUserPath ofInterp) then throw .ENOMEM
  modify fun info => { info with
    interp := some { LoadInfo.zero with hostPath := some hostPath, userPath := some userPath } }

/-- `add_load_info`, for `PT_LOAD`, `PT_INTERP` and `PT_GNU_STACK`. -/
def addLoadInfo (file : OpenFile) (header : ElfHeader) (programHeader : ProgramHeader) :
    LoadM Unit :=
  if programHeader.type header = 1 then addMapping K ofInterp header programHeader
  else if programHeader.type header = 3 then
    addInterp K qemu ofInterp file header programHeader
  else if programHeader.type header = 0x6474e551 then
    modify fun info => { info with
      needsExecutableStack :=
        info.needsExecutableStack || programHeader.flags header &&& 1 ≠ 0 }
  else pure ()

/-- `extract_load_info` of the file at `host_path`: `ET_EXEC` or `ET_DYN`. -/
def extractLoadInfo (hostPath : CStr) : LoadM Unit := do
  let file ← orThrow (K.openFile hostPath)
  let (header, isElf) := openElf file (← get).elfHeader
  modify fun info => { info with elfHeader := header }
  orThrow isElf
  if header.type ≠ 2 ∧ header.type ≠ 3 then throw .EINVAL
  iterateProgramHeaders K.errno file header (addLoadInfo K qemu ofInterp file header)

/-- Extract the load info of the interpreter, if there is one.  An interpreter of its own is
forgotten. -/
def extractInterp : LoadM Unit := fun info =>
  match info.interp with
  | none => .ok () info
  | some interp =>
      match extractLoadInfo K qemu true (interp.hostPath.getD []) interp with
      | .error status interp => .error status { info with interp := some interp }
      | .ok _ interp => .ok () { info with interp := some { interp with interp := none } }

/-- The load info of a program, up to the addresses where it is loaded. -/
def collectLoadInfo (hostPath userPath : CStr) (rawPath : Option CStr) : LoadM Unit := do
  if !K.allocates .hostPath then throw .ENOMEM
  modify fun info => { info with hostPath := some hostPath }
  if !K.allocates .userPath then throw .ENOMEM
  modify fun info => { info with userPath := some userPath }
  if rawPath.isNone && !K.allocates .rawPathReference then throw .ENOMEM
  modify fun info => { info with rawPath := some (rawPath.getD userPath) }
  extractLoadInfo K qemu false hostPath
  extractInterp K qemu

end

/-! ## Load addresses -/

/-- `add_load_base`. -/
def LoadInfo.addLoadBase (K : ExecHost) (base : BitVec 64) (info : LoadInfo) : LoadInfo :=
  { info with
    mappings := info.mappings.map (List.map fun mapping =>
      { mapping with addr := K.word (mapping.addr + base) })
    elfHeader := info.elfHeader.addEntry base }

/-- Load a position independent object from an address on, unless it says where it goes.
Nothing comes of an object without a mapping: its first one is looked at all the same. -/
def LoadInfo.place (K : ExecHost) (base : BitVec 64) (info : LoadInfo) : Option LoadInfo :=
  if info.elfHeader.isPositionIndependent then
    match info.mappings with
    | some (mapping :: _) => some (if mapping.addr = 0 then info.addLoadBase K base else info)
    | _ => none
  else some info

/-- `compute_load_addresses`. -/
def computeLoadAddresses (K : ExecHost) (info : LoadInfo) : Option LoadInfo :=
  let class32 := K.hasLoader32bit && info.elfHeader.isClass32
  match info.place K (K.execPicAddress class32) with
  | none => none
  | some info =>
      match info.interp with
      | none => some info
      | some interp =>
          match interp.place K (K.interpPicAddress class32) with
          | none => none
          | some interp => some { info with interp := some interp }

end PRoot
