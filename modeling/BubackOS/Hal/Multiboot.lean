import BubackOS.Core.EarlyAlloc
import BubackOS.Libc.Strings

/-!
# The boot information

`platform_initialize` and `common/multiboot2.c`.  The parser walks the tags of the
information block in memory and copies what the kernel needs to memory of its own, which
`kalloc` clears when it hands it out.  A tag is read when the source reads it.  The records
and list nodes the parser allocates are values of the model; the command line is copied
byte by byte.
-/

namespace BubackOS.Multiboot

open Library Libc

/-- `info_module_t`; `param` is the address of a string. -/
structure InfoModule where
  param : Nat
  region : Region
  deriving DecidableEq, Repr

/-- The kernel during the boot, what the parser fills in of `platform_t`, and the tags visited, the last
one first. -/
structure Boot where
  kernel : Kernel
  totalMemory : Nat
  modules : LinkedList InfoModule
  reservedSegments : LinkedList Region
  visited : List Nat

/-- `sizeof(info_module_t)`. -/
def sizeofInfoModule : Nat := 32

/-- `sizeof(region_t)`. -/
def sizeofRegion : Nat := 24

/-- `platform_initialize`, after the kernel was loaded: kernel data begins on the next page. -/
def platformInitialize (kernelStart kernelEnd : Nat) (pmem : Pmem) (m : Memory) : Boot :=
  let dataStart := wrap (memAlign kernelEnd + systemPageSize)
  let reserved := linkedlistCreate kalloc (.start
    { kernel := { addrStart := kernelStart, addrEnd := kernelEnd, size := wrapSub kernelEnd kernelStart }
      kernelData := { addrStart := dataStart, addrEnd := dataStart, size := 0 } } pmem m)
  let modules := linkedlistCreate kalloc reserved.2
  { kernel := modules.2, totalMemory := 0, modules := modules.1, reservedSegments := reserved.1, visited := [] }

/-! ## Tags -/

/-- `MULTIBOOT2_BOOTLOADER_MAGIC`. -/
def bootloaderMagic : Nat := 0x36d76289

/-- `MULTIBOOT_TAG_TYPE_END`, `MODULE`, `BASIC_MEMINFO` and `MMAP`, the types that are not only logged. -/
def tagTypeEnd : Nat := 0

def tagTypeModule : Nat := 3

def tagTypeBasicMeminfo : Nat := 4

def tagTypeMmap : Nat := 6

/-- `MULTIBOOT_MEMORY_AVAILABLE`. -/
def memoryAvailable : Nat := 1

/-- `tag->type`. -/
def tagType (m : Memory) (tag : Nat) : Nat := m.load tag 4

/-- `tag->size`. -/
def tagSize (m : Memory) (tag : Nat) : Nat := m.load (tag + 4) 4

/-- The tag behind a tag: the size is rounded up in 32 bits. -/
def nextTag (m : Memory) (tag : Nat) : Nat := wrap (tag + align ((tagSize m tag + 7) % 2 ^ 32) 8)

/-- The difference of two `multiboot_uint32_t`. -/
def difference32 (left right : Nat) : Nat := (left + (2 ^ 32 - right)) % 2 ^ 32

/-! ## The parser -/

/-- `linkedlist_append` to a list of the platform. -/
def append {α : Type} (list : LinkedList α) (data : α) (k : Kernel) : LinkedList α × Kernel :=
  if list.isNone then (list, k)
  else
    let node := kalloc sizeofLinkedlistNode k
    (if node.1 = 0 then list else list.map (· ++ [data]), node.2)

/-- A `MODULE` tag. -/
def addModule (rounds tag : Nat) (s : Boot) : Option Boot :=
  let module := kalloc sizeofInfoModule s.kernel
  (strlen rounds module.2.mem (tag + 16)).map fun paramSize =>
    let param := kalloc (wrap (paramSize + 1)) module.2
    let copied := { param.2 with mem := (strncpy param.2.mem param.1 (tag + 16) paramSize).2 }
    let modStart := copied.mem.load (tag + 8) 4
    let modEnd := copied.mem.load (tag + 12) 4
    let appended := append s.modules
      { param := param.1
        region := { addrStart := modStart, addrEnd := modEnd, size := difference32 modEnd modStart } } copied
    { s with kernel := appended.2, modules := appended.1 }

/-- An entry of the memory map that is not available. -/
def reserveSegment (mmap : Nat) (s : Boot) : Boot :=
  let region := kalloc sizeofRegion s.kernel
  let addr := region.2.mem.load64 mmap
  let len := region.2.mem.load64 (mmap + 8)
  let appended := append s.reservedSegments { addrStart := addr, addrEnd := wrap (addr + len), size := len } region.2
  { s with kernel := appended.2, reservedSegments := appended.1 }

/-- The loop of a `MMAP` tag over its entries. -/
def mmapLoop (tag : Nat) : Nat → Nat → Boot → Option Boot
  | 0, _, _ => none
  | rounds + 1, mmap, s =>
      if mmap < wrap (tag + tagSize s.kernel.mem tag) then
        let visited := if s.kernel.mem.load (mmap + 16) 4 = memoryAvailable then s else reserveSegment mmap s
        mmapLoop tag rounds (wrap (mmap + visited.kernel.mem.load (tag + 8) 4)) visited
      else some s

/-- The `switch` over the type of a tag. -/
def visitTag (rounds tag : Nat) (s : Boot) : Option Boot :=
  let type := tagType s.kernel.mem tag
  if type = tagTypeModule then addModule rounds tag s
  else if type = tagTypeBasicMeminfo then
    some { s with totalMemory := (s.kernel.mem.load (tag + 12) 4 + 1024) * 1024 % 2 ^ 32 }
  else if type = tagTypeMmap then mmapLoop tag rounds (wrap (tag + 16)) s
  else some s

/-- The loop over the tags. -/
def tagLoop (rounds : Nat) : Nat → Nat → Boot → Option Boot
  | 0, _, _ => none
  | left + 1, tag, s =>
      if tagType s.kernel.mem tag = tagTypeEnd then some s
      else
        (visitTag rounds tag { s with visited := tag :: s.visited }).bind fun next =>
          tagLoop rounds left (nextTag next.kernel.mem tag) next

/-- `multiboot2_parser`. -/
def multiboot2Parser (rounds magic addr : Nat) (s : Boot) : Option (Bool × Boot) :=
  if magic % 2 ^ 32 ≠ bootloaderMagic then some (false, s)
  else if addr % 2 ^ 32 &&& 7 ≠ 0 then some (false, s)
  else (tagLoop rounds rounds (wrap (addr + 8)) s).map fun parsed => (true, parsed)

end BubackOS.Multiboot
