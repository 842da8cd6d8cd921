import Mathlib.Algebra.Group.Nat.Defs
import PRoot.Paths
import PRoot.Registers

/-!
# ELF files

`execve/elf.h` and `execve/elf.c`: the header of an ELF file and its program headers, as
PRoot reads them from a file of the host.

* `openElf`: the header of a file;
* `iterateProgramHeaders`: a visit of the program headers, in order.
-/

namespace PRoot

/-- A file that the host opened: its bytes, or why they cannot be read, and the last
offset its file system knows. -/
structure OpenFile where
  content : Except Errno (List (BitVec 8))
  maxOffset : Nat

/-- `pread`; a single call transfers less than 2 GiB. -/
def OpenFile.pread (file : OpenFile) (count offset : Nat) : Except Errno (List (BitVec 8)) :=
  if 2 ^ 63 ≤ offset then .error .EINVAL
  else do
    let content ← file.content
    .ok ((content.drop offset).take (min count 0x7ffff000))

/-- `lseek` to an offset from the start. -/
def OpenFile.lseek (file : OpenFile) (offset : Nat) : Except Errno Nat :=
  if offset < 2 ^ 63 ∧ offset ≤ file.maxOffset then .ok offset else .error .EINVAL

/-- A little-endian number. -/
def littleEndian (bytes : List (BitVec 8)) : Nat :=
  bytes.foldr (fun byte n => byte.toNat + 256 * n) 0

/-- The number at an offset of a structure. -/
def fieldAt (bytes : List (BitVec 8)) (offset size : Nat) : BitVec 64 :=
  BitVec.ofNat 64 (littleEndian ((bytes.drop offset).take size))

/-- `ElfHeader`: the bytes of the union of its two classes. -/
structure ElfHeader where
  bytes : Vector (BitVec 8) 64
  deriving DecidableEq

namespace ElfHeader

/-- A header that nothing was read into. -/
def zero : ElfHeader := ⟨Vector.replicate 64 0⟩

/-- Read over the start of a header. -/
def overwrite (header : ElfHeader) (read : List (BitVec 8)) : ElfHeader :=
  ⟨Vector.ofFn fun i => (read[i.val]?).getD header.bytes[i]⟩

/-- `ELF_IDENT`. -/
def ident (header : ElfHeader) (index : Nat) : BitVec 8 := header.bytes.toList.getD index 0

/-- `IS_CLASS32`. -/
def isClass32 (header : ElfHeader) : Bool := header.ident 4 = 1

/-- `IS_CLASS64`. -/
def isClass64 (header : ElfHeader) : Bool := header.ident 4 = 2

/-- `ELF_FIELD`, by the place and the size of the field in each class. -/
def field (header : ElfHeader) (class32 class64 : Nat × Nat) : BitVec 64 :=
  if header.isClass64 then fieldAt header.bytes.toList class64.1 class64.2
  else fieldAt header.bytes.toList class32.1 class32.2

/-- `e_type`. -/
def type (header : ElfHeader) : BitVec 64 := header.field (16, 2) (16, 2)

/-- `e_machine`. -/
def machine (header : ElfHeader) : BitVec 64 := header.field (18, 2) (18, 2)

/-- `e_phoff`. -/
def phoff (header : ElfHeader) : BitVec 64 := header.field (28, 4) (32, 8)

/-- `e_phentsize`. -/
def phentsize (header : ElfHeader) : BitVec 64 := header.field (42, 2) (54, 2)

/-- `e_phnum`. -/
def phnum (header : ElfHeader) : BitVec 64 := header.field (44, 2) (56, 2)

/-- `e_entry += base`. -/
def addEntry (header : ElfHeader) (base : BitVec 64) : ElfHeader :=
  let size := if header.isClass64 then 8 else 4
  let entry := fieldAt header.bytes.toList 24 size + base
  ⟨Vector.ofFn fun i =>
    if 24 ≤ i.val ∧ i.val < 24 + size then BitVec.ofNat 8 (entry.toNat / 256 ^ (i.val - 24))
    else header.bytes[i]⟩

/-- `KNOWN_PHENTSIZE`. -/
def knownPhentsize (header : ElfHeader) (size : BitVec 64) : Bool :=
  header.isClass32 && size = 32 || header.isClass64 && size = 56

/-- `IS_POSITION_INDENPENDANT`: the type is `ET_DYN`. -/
def isPositionIndependent (header : ElfHeader) : Bool := header.type = 3

end ElfHeader

/-- `ProgramHeader`: the bytes that were read. -/
abbrev ProgramHeader := List (BitVec 8)

namespace ProgramHeader

variable (header : ElfHeader) (programHeader : ProgramHeader)

/-- `PROGRAM_FIELD`, by the place and the size of the field in each class. -/
def field (class32 class64 : Nat × Nat) : BitVec 64 :=
  if header.isClass64 then fieldAt programHeader class64.1 class64.2
  else fieldAt programHeader class32.1 class32.2

/-- `p_type`. -/
def type : BitVec 64 := programHeader.field header (0, 4) (0, 4)

/-- `p_flags`. -/
def flags : BitVec 64 := programHeader.field header (24, 4) (4, 4)

/-- `p_offset`. -/
def offset : BitVec 64 := programHeader.field header (4, 4) (8, 8)

/-- `p_vaddr`. -/
def vaddr : BitVec 64 := programHeader.field header (8, 4) (16, 8)

/-- `p_filesz`. -/
def filesz : BitVec 64 := programHeader.field header (16, 4) (32, 8)

/-- `p_memsz`. -/
def memsz : BitVec 64 := programHeader.field header (20, 4) (40, 8)

end ProgramHeader

/-! ## `elf.c` -/

/-- `open_elf` of a file that the host opened: what becomes of the header, and whether it
is one. -/
def openElf (file : OpenFile) (header : ElfHeader) : ElfHeader × Except Errno Unit :=
  match file.pread 64 0 with
  | .error status => (header, .error status)
  | .ok read =>
      let header := header.overwrite read
      if read.length < 64 ∨ header.ident 0 ≠ 0x7f ∨ header.ident 1 ≠ 0x45
          ∨ header.ident 2 ≠ 0x4c ∨ header.ident 3 ≠ 0x46 then (header, .error .ENOEXEC)
      else if !header.isClass32 && !header.isClass64 then (header, .error .ENOEXEC)
      else (header, .ok ())

/-- The loop of `iterate_program_headers`, from an offset of the file on. -/
def visitProgramHeaders {σ : Type} (file : OpenFile) (phentsize : Nat)
    (callback : ProgramHeader → EStateM Errno σ Unit) : Nat → Nat → EStateM Errno σ Unit
  | 0, _ => pure ()
  | n + 1, offset =>
      match file.pread phentsize offset with
      | .error status => throw status
      | .ok read =>
          if read.length ≠ phentsize then throw .ENOTSUP
          else do
            callback read
            visitProgramHeaders file phentsize callback n (offset + phentsize)

/-- `iterate_program_headers`.  An offset whose low half is negative as an `int` is taken
for a failure of `lseek`, with the error of an earlier call, if there was one. -/
def iterateProgramHeaders {σ : Type} (errno : Option Errno) (file : OpenFile)
    (header : ElfHeader) (callback : ProgramHeader → EStateM Errno σ Unit) :
    EStateM Errno σ Unit :=
  if 0xffff ≤ header.phnum.toNat then throw .ENOTSUP
  else if !header.knownPhentsize header.phentsize then throw .ENOTSUP
  else
    match file.lseek header.phoff.toNat with
    | .error status => throw status
    | .ok offset =>
        if Int.bmod offset (2 ^ 32) < 0 then
          match errno with
          | some status => throw status
          | none => pure ()
        else visitProgramHeaders file header.phentsize.toNat callback header.phnum.toNat offset

/-- `HOST_ELF_MACHINE`. -/
def Host.elfMachine : Host → List Nat
  | .ARCH_X86_64 => [62, 3, 6]
  | .ARCH_ARM_EABI => [40]
  | .ARCH_ARM64 => [183]
  | .ARCH_X86 => [3, 6]
  | .ARCH_SH4 => [42]

/-- `is_host_elf`, with the setting of `PROOT_FORCE_FOREIGN_BINARY`, for a tracee that has
a runner. -/
def isHostElf (host : Host) (forceForeign : Bool) (file : Except Errno OpenFile) : Bool :=
  !forceForeign &&
    match file with
    | .error _ => false
    | .ok file =>
        match openElf file .zero with
        | (_, .error _) => false
        | (header, .ok _) => header.machine.toNat ∈ host.elfMachine

end PRoot
