import PRoot.MemoryAccess
import PRoot.ProgramMappings
import PRoot.WordBytes

/-!
# The load script

`loader/script.h`, and `transfer_load_script` of `execve/exit.c`: what the loader has to do to
start a program, written below its stack.

* `LoadStatement`: the statements, and the words they are made of;
* `loadStatements`: the script of a program;
* `transferLoadScript`: the bytes that are written, and where.
-/

namespace PRoot

/-- `LoadStatement`. -/
inductive LoadStatement
  | LOAD_ACTION_OPEN_NEXT (stringAddress : BitVec 64)
  | LOAD_ACTION_OPEN (stringAddress : BitVec 64)
  | LOAD_ACTION_MMAP_FILE (addr length prot offset clearLength : BitVec 64)
  | LOAD_ACTION_MMAP_ANON (addr length prot offset clearLength : BitVec 64)
  | LOAD_ACTION_MAKE_STACK_EXEC (start : BitVec 64)
  | LOAD_ACTION_START_TRACED
      (stackPointer entryPoint atPhdr atPhent atPhnum atEntry atExecfn : BitVec 64)
  | LOAD_ACTION_START
      (stackPointer entryPoint atPhdr atPhent atPhnum atEntry atExecfn : BitVec 64)
  deriving DecidableEq

namespace LoadStatement

/-- The words of a statement: its action, then the fields of that action. -/
def words : LoadStatement → List (BitVec 64)
  | LOAD_ACTION_OPEN_NEXT stringAddress => [0, stringAddress]
  | LOAD_ACTION_OPEN stringAddress => [1, stringAddress]
  | LOAD_ACTION_MMAP_FILE addr length prot offset clearLength =>
      [2, addr, length, prot, offset, clearLength]
  | LOAD_ACTION_MMAP_ANON addr length prot offset clearLength =>
      [3, addr, length, prot, offset, clearLength]
  | LOAD_ACTION_MAKE_STACK_EXEC start => [4, start]
  | LOAD_ACTION_START_TRACED stackPointer entryPoint atPhdr atPhent atPhnum atEntry atExecfn =>
      [5, stackPointer, entryPoint, atPhdr, atPhent, atPhnum, atEntry, atExecfn]
  | LOAD_ACTION_START stackPointer entryPoint atPhdr atPhent atPhnum atEntry atExecfn =>
      [6, stackPointer, entryPoint, atPhdr, atPhent, atPhnum, atEntry, atExecfn]

end LoadStatement

/-- The bytes of a path with its end. -/
def pathBytes (path : CStr) : Bytes := path.map (fun c => BitVec.ofNat 8 c.toNat) ++ [0]

/-- `e_entry`. -/
def ElfHeader.entry (header : ElfHeader) : BitVec 64 := header.field (24, 4) (24, 8)

/-- `transcript_mappings`: what becomes of one mapping. -/
def transcriptMapping (mapping : Mapping) : LoadStatement :=
  if mapping.flags &&& 0x20 ≠ 0 then
    .LOAD_ACTION_MMAP_ANON mapping.addr mapping.length mapping.prot mapping.offset
      mapping.clearLength
  else
    .LOAD_ACTION_MMAP_FILE mapping.addr mapping.length mapping.prot mapping.offset
      mapping.clearLength

/-- `transcript_mappings`. -/
def transcriptMappings (mappings : Option (List Mapping)) : List LoadStatement :=
  (mappings.getD []).map transcriptMapping

/-- What is known of a tracee whose load script is written. -/
structure ScriptTracee where
  stackPointer : BitVec 64
  /-- `is_32on64_mode`. -/
  is32on64 : Bool
  /-- It has a `ptracer`. -/
  ptraced : Bool
  /-- `raw_path` is `user_path` itself, and not another string. -/
  rawPathIsUserPath : Bool

section

variable (K : ExecHost) (tracee : ScriptTracee) (info : LoadInfo)

/-- `sizeof_word` of the tracee. -/
def ScriptTracee.sizeofWord : Nat := if tracee.is32on64 then K.host.word / 2 else K.host.word

/-- The strings of a load script: the path of the program, that of its interpreter, and that
which was asked for. -/
def scriptStrings : Bytes × Bytes × Bytes :=
  (pathBytes (info.userPath.getD []),
    match info.interp with
    | none => []
    | some interp => pathBytes (interp.userPath.getD []),
    if tracee.rawPathIsUserPath then [] else pathBytes (info.rawPath.getD []))

/-- `padding_size`. -/
def paddingSize : Nat :=
  let (string1, string2, string3) := scriptStrings tracee info
  let below := K.word (tracee.stackPointer - BitVec.ofNat 64 string1.length
    - BitVec.ofNat 64 string2.length - BitVec.ofNat 64 string3.length)
  below.toNat % if K.host = .ARCH_ARM64 then 16 else tracee.sizeofWord K

/-- `strings_size`. -/
def stringsSize : Nat :=
  let (string1, string2, string3) := scriptStrings tracee info
  string1.length + string2.length + string3.length + paddingSize K tracee info

/-- `string1_address`, -/
def string1Address : BitVec 64 :=
  K.word (tracee.stackPointer - BitVec.ofNat 64 (stringsSize K tracee info))

/-- `string2_address`, -/
def string2Address : BitVec 64 :=
  K.word (string1Address K tracee info
    + BitVec.ofNat 64 (scriptStrings tracee info).1.length)

/-- and `string3_address`. -/
def string3Address : BitVec 64 :=
  if (scriptStrings tracee info).2.2.length = 0 then string1Address K tracee info
  else
    K.word (string2Address K tracee info
      + BitVec.ofNat 64 (scriptStrings tracee info).2.1.length)

/-- `needs_executable_stack` of a program or of its interpreter. -/
def LoadInfo.wantsExecutableStack : Bool :=
  info.needsExecutableStack || info.interp.any (·.needsExecutableStack)

/-- Where a program starts: in its interpreter, if it has one. -/
def LoadInfo.entryPoint : BitVec 64 :=
  match info.interp with
  | none => K.word info.elfHeader.entry
  | some interp => K.word interp.elfHeader.entry

/-- `script_size`. -/
def scriptSize : Nat :=
  2 * K.host.word + 6 * K.host.word * (info.mappings.getD []).length
    + (match info.interp with
      | none => 0
      | some interp => 2 * K.host.word + 6 * K.host.word * (interp.mappings.getD []).length)
    + (if info.wantsExecutableStack then 2 * K.host.word else 0)
    + 8 * K.host.word

/-- `at_phdr`.  Nothing comes of a program without a mapping: its first one is looked at all
the same. -/
def atPhdr : Option (BitVec 64) :=
  match info.mappings with
  | some (mapping :: _) => some (K.word (info.elfHeader.phoff + mapping.addr))
  | _ => none

/-- The statement that starts a program. -/
def startStatement (atPhdr : BitVec 64) : LoadStatement :=
  (if tracee.ptraced then LoadStatement.LOAD_ACTION_START_TRACED
    else LoadStatement.LOAD_ACTION_START)
    (K.word tracee.stackPointer) (info.entryPoint K) atPhdr
    (K.word info.elfHeader.phentsize) (K.word info.elfHeader.phnum)
    (K.word info.elfHeader.entry) (string3Address K tracee info)

/-- The statements of a load script. -/
def loadStatements : Option (List LoadStatement) :=
  (atPhdr K info).map fun atPhdr =>
    .LOAD_ACTION_OPEN (string1Address K tracee info) :: transcriptMappings info.mappings
      ++ (match info.interp with
        | none => []
        | some interp =>
            .LOAD_ACTION_OPEN_NEXT (string2Address K tracee info)
              :: transcriptMappings interp.mappings)
      ++ (if info.wantsExecutableStack then
          [.LOAD_ACTION_MAKE_STACK_EXEC (K.word (tracee.stackPointer &&& K.pageMask))]
        else [])
      ++ [startStatement K tracee info atPhdr]

/-- "Convert the load script to the expected format": half of each word, from the word `i` of
the buffer on, in place. -/
def narrowWords (word : Nat) : Nat → Nat → Bytes → Bytes
  | 0, _, buffer => buffer
  | n + 1, i, buffer =>
      let half := (buffer.drop (i * word)).take (word / 2)
      narrowWords word n (i + 1)
        (buffer.take (i * (word / 2)) ++ half ++ buffer.drop ((i + 1) * (word / 2)))

/-- The bytes of a script, as the loader of the tracee expects it. -/
def scriptBytes (statements : List LoadStatement) : Bytes :=
  let words := statements.flatMap LoadStatement.words
  let buffer := (words.map BitVec.toNat).flatMap (wordBytes K.host.word)
  if tracee.is32on64 then narrowWords K.host.word words.length 0 buffer else buffer

/-- `transfer_load_script`: the bytes that are written, and their address, where the stack of
the loader starts. -/
def transferLoadScript : Option (Bytes × BitVec 64) :=
  (loadStatements K tracee info).map fun statements =>
    let (string1, string2, string3) := scriptStrings tracee info
    let buffer := scriptBytes K tracee statements ++ string1 ++ string2 ++ string3
      ++ List.replicate (paddingSize K tracee info) 0
    (buffer, K.word (tracee.stackPointer
      - BitVec.ofNat 64 (scriptSize K info + stringsSize K tracee info)))

end

end PRoot
