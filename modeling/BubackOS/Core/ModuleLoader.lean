import BubackOS.Core.Task

/-!
# The module loader

`loader/elfparser.c` and `loader/module_loader.c`.  The images of the modules lie outside
the memory the model follows: `read` gives the bytes the kernel sees at its addresses in a
state.  A program header is a pointer into the image, and each field is read when the
source reads it.
-/

namespace BubackOS

open Library

/-- The part of `elf_program_header_t` the loader reads. -/
structure ElfProgramHeader where
  type : Nat
  flags : Nat
  offset : Nat
  vaddr : Nat
  fileSize : Nat
  memSize : Nat
  deriving DecidableEq, Repr

/-- `elf_t`; `program_headers` lists addresses. -/
structure Elf where
  base : Nat
  entryPoint : Nat
  flags : Nat
  programHeaders : LinkedList Nat

/-- `ELF_ERROR_NO_ELF`, `ELF_ERROR_INVALID_ELF_VERSION` and `ELF_ERROR_INCOMPATIBLE`. -/
inductive ElfError where
  | noElf
  | invalidElfVersion
  | incompatible
  deriving DecidableEq, Repr

/-- `info_module_t`. -/
structure InfoModule where
  param : String
  region : Region

/-- `sizeof(elf_program_header_t)`. -/
def sizeofElfProgramHeader : Nat := 56

/-- `ELF_PT_LOAD`. -/
def elfPtLoad : Nat := 1

/-- `ELF_PF_FLAGS_X` and `ELF_PF_FLAGS_W` are bits `0` and `1`. -/
def ElfProgramHeader.code (header : ElfProgramHeader) : Bool := header.flags.testBit 0

def ElfProgramHeader.writable (header : ElfProgramHeader) : Bool := header.flags.testBit 1

/-- The header at an address. -/
def programHeader (m : Memory) (ph : Nat) : ElfProgramHeader where
  type := m.load ph 4
  flags := m.load (ph + 4) 4
  offset := m.load64 (ph + 8)
  vaddr := m.load64 (ph + 16)
  fileSize := m.load64 (ph + 32)
  memSize := m.load64 (ph + 40)

/-! ## The parser -/

/-- The checks of `elf_parser`, in its order; the identification is `elf_ident_t`. -/
def elfError (m : Memory) (rawElf size : Nat) : Option ElfError :=
  if rawElf = 0 ∨ size < 50 then some .noElf
  else if ¬ (m rawElf = 0x7f ∧ m (rawElf + 1) = 0x45 ∧ m (rawElf + 2) = 0x4c ∧ m (rawElf + 3) = 0x46) then
    some .noElf
  else if m (rawElf + 6) ≠ 1 ∨ m.load (rawElf + 20) 4 ≠ 1 then some .invalidElfVersion
  else if m (rawElf + 5) ≠ 1 ∨ m (rawElf + 4) ≠ 2 ∨ m (rawElf + 7) ≠ 0 ∨ m.load (rawElf + 18) 2 ≠ 62 then
    some .incompatible
  else none

/-- The loop that lists the headers; the result of the append is ignored. -/
def listProgramHeaders (kalloc : Kalloc) : Nat → Nat → LinkedList Nat → Kernel → LinkedList Nat × Kernel
  | 0, _, list, k => (list, k)
  | entries + 1, ph, list, k =>
      let next := wrap (ph + sizeofElfProgramHeader)
      if list.isNone then listProgramHeaders kalloc entries next list k
      else
        let node := kalloc sizeofLinkedlistNode k
        listProgramHeaders kalloc entries next (if node.1 = 0 then list else list.map (· ++ [ph])) node.2

/-- `elf_parser`. -/
def elfParser (kalloc : Kalloc) (m : Memory) (rawElf size : Nat) (k : Kernel) : Except ElfError Elf × Kernel :=
  match elfError m rawElf size with
  | some error => (.error error, k)
  | none =>
      let created := linkedlistCreate kalloc k
      let headers := listProgramHeaders kalloc (m.load (rawElf + 0x38) 2)
        (wrap (m.load64 (rawElf + 0x20) + rawElf)) created.1 created.2
      (.ok
        { base := rawElf
          entryPoint := m.load64 (rawElf + 0x18)
          flags := m.load (rawElf + 0x30) 4
          programHeaders := headers.1 }, headers.2)

/-! ## Loading a module -/

/-- The second part of `allocate_program_header`: map the content of the file. -/
def mapFileContent (kalloc : Kalloc) (read : Kernel → Memory) (memoryHandler base ph r : Nat) (k : Kernel) :
    Bool × Kernel :=
  let header := programHeader (read k) ph
  if header.fileSize = 0 then (true, k)
  else
    let mapped := vmemRegionMapPhysicalAddress kalloc (some r)
      (vmemGetPhysicalAddress k memoryHandler (wrap (base + header.offset)))
      (alignNext header.fileSize systemPageSize) k
    (mapped.1 ≠ 0, mapped.2)

/-- `allocate_program_header`. -/
def allocateProgramHeader (kalloc : Kalloc) (read : Kernel → Memory) (memoryHandler base ph : Nat)
    (moduleMemoryHandler : Option Nat) (k : Kernel) : Bool × Kernel :=
  let header := programHeader (read k) ph
  let region := vmemRegionCreate kalloc moduleMemoryHandler (some "elf-loader") header.vaddr 0 true
    header.writable header.code k
  match region.1 with
  | none => (false, region.2)
  | some r =>
      let mapped := mapFileContent kalloc read memoryHandler base ph r region.2
      if mapped.1 then
        vmemRegionResize kalloc (some r) (programHeader (read mapped.2) ph).memSize mapped.2
      else (false, mapped.2)

/-- The loop over the program headers; the address `0` ends the iteration. -/
def allocateProgramHeaders (kalloc : Kalloc) (read : Kernel → Memory) (memoryHandler base : Nat)
    (moduleMemoryHandler : Option Nat) : List Nat → Kernel → Bool × Kernel
  | [], k => (true, k)
  | ph :: rest, k =>
      if ph = 0 then (true, k)
      else if (programHeader (read k) ph).type = elfPtLoad then
        let allocated := allocateProgramHeader kalloc read memoryHandler base ph moduleMemoryHandler k
        if allocated.1 then
          allocateProgramHeaders kalloc read memoryHandler base moduleMemoryHandler rest allocated.2
        else (false, allocated.2)
      else allocateProgramHeaders kalloc read memoryHandler base moduleMemoryHandler rest k

/-- `module_task_initialize`: a file that is no ELF is skipped, any other failure ends the loop. -/
def moduleTaskInitialize (kalloc : Kalloc) (read : Kernel → Memory) (memoryHandler : Nat) :
    List InfoModule → TaskSystem → Bool × TaskSystem
  | [], s => (true, s)
  | module :: rest, s =>
      let region := vmemRegionCreate kalloc (some memoryHandler) (some "module-loading") 0 0 true true true
        s.kernel
      let vaddr := vmemRegionMapPhysicalAddress kalloc region.1 module.region.addrStart
        (alignNext module.region.size systemPageSize) region.2
      if vaddr.1 = 0 then (false, s.setKernel vaddr.2)
      else
        let parsed := elfParser kalloc (read vaddr.2) vaddr.1 module.region.size vaddr.2
        match parsed.1 with
        | .error _ => moduleTaskInitialize kalloc read memoryHandler rest (s.setKernel parsed.2)
        | .ok elf =>
            let space := vmemCreate kalloc parsed.2
            let loaded := allocateProgramHeaders kalloc read memoryHandler elf.base space.1
              elf.programHeaders.items space.2
            if loaded.1 then
              let task := taskCreate kalloc module.param space.1 (s.setKernel loaded.2)
              moduleTaskInitialize kalloc read memoryHandler rest
                (taskRun kalloc task.1 elf.entryPoint task.2).2
            else (false, s.setKernel loaded.2)

end BubackOS
