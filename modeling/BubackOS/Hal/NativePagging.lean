import BubackOS.Libutils.LinkedList

/-!
# x86-64 page tables

`x86_64/native_pagging.c`.  Tables are arrays of 512 entries of eight bytes in
memory; they are carved out of 40 KB buffers that each page table asks `kalloc`
for.  `kalloc` can grow the kernel data region, which maps pages through the very
page table being extended, so every field is read again after an allocation.
-/

namespace BubackOS

open Library

/-- `page_entry_t`, with its unnamed bits. -/
structure PageEntry where
  present : Bool
  writable : Bool
  user : Bool
  writeThrough : Bool
  cacheDisable : Bool
  accessed : Bool
  dirty : Bool
  entryOrPat : Bool
  ignoredLow : BitVec 4
  addr12Shifted : BitVec 48
  ignoredHigh : BitVec 3
  executeDisable : Bool
  deriving DecidableEq

namespace PageEntry

/-- The 64-bit word of an entry. -/
def toWord (entry : PageEntry) : Nat :=
  entry.present.toNat + 2 * entry.writable.toNat + 4 * entry.user.toNat +
    8 * entry.writeThrough.toNat + 16 * entry.cacheDisable.toNat + 32 * entry.accessed.toNat +
    64 * entry.dirty.toNat + 128 * entry.entryOrPat.toNat + 256 * entry.ignoredLow.toNat +
    2 ^ 12 * entry.addr12Shifted.toNat + 2 ^ 60 * entry.ignoredHigh.toNat +
    2 ^ 63 * entry.executeDisable.toNat

/-- One bit of a word. -/
def bit (word position : Nat) : Bool := word / 2 ^ position % 2 == 1

/-- The entry stored as a 64-bit word. -/
def ofWord (word : Nat) : PageEntry where
  present := bit word 0
  writable := bit word 1
  user := bit word 2
  writeThrough := bit word 3
  cacheDisable := bit word 4
  accessed := bit word 5
  dirty := bit word 6
  entryOrPat := bit word 7
  ignoredLow := BitVec.ofNat 4 (word / 2 ^ 8)
  addr12Shifted := BitVec.ofNat 48 (word / 2 ^ 12)
  ignoredHigh := BitVec.ofNat 3 (word / 2 ^ 60)
  executeDisable := bit word 63

/-- `addr_12_shifted << 12`, a shift in the 48-bit type of the field: the bits of
`PAGE_ENTRY_ADDR_MASK`. -/
def frame (entry : PageEntry) : Nat := entry.addr12Shifted.toNat * 2 ^ 12 % 2 ^ 48

end PageEntry

/-- `permission_t`. -/
abbrev Permission : Type := BitVec 8

/-- `READ_BIT`. -/
def readBit (permission : Permission) (position : Nat) : Bool := permission.getLsbD position

/-- `SET_BIT` or `CLEAR_BIT`, as the `PERM_SET_*` macros choose. -/
def putBit (permission : Permission) (position : Nat) (value : Bool) : Permission :=
  if value then permission ||| (1#8 <<< position) else permission &&& ~~~(1#8 <<< position)

def permIsWrite (permission : Permission) : Bool := readBit permission 1
def permIsExec (permission : Permission) : Bool := readBit permission 2
def permIsKernelMode (permission : Permission) : Bool := readBit permission 3
def permSetRead (permission : Permission) (value : Bool) : Permission := putBit permission 0 value
def permSetWrite (permission : Permission) (value : Bool) : Permission := putBit permission 1 value
def permSetExec (permission : Permission) (value : Bool) : Permission := putBit permission 2 value
def permSetKernelMode (permission : Permission) (value : Bool) : Permission :=
  putBit permission 3 value

/-- `page_map_entry_t`; its `present` flag is read by no mapping function. -/
structure PageMapEntry where
  virtualAddr : Nat
  physicalAddr : Nat
  size : Nat
  permission : Permission

/-- `NATIVE_PAGETABLE_MEM_BUFFER_SIZE`: ten tables. -/
def nativePagetableMemBufferSize : Nat := 10 * 512 * 8

/-- `PAGE_TABLE_ENTRIES_ALIGNMENT`. -/
def pageTableEntriesAlignment : Nat := 4096

/-- `PAGE_TABLE_NATIVE_SIZE_SMALL`. -/
def pageTableNativeSizeSmall : Nat := 4096

/-- `sizeof(native_page_table_t)`. -/
def sizeofNativePageTable : Nat := 32

/-- `shifting_bits`. -/
def shiftingBits (level : Nat) : Nat := level * 9 + 12

/-- `index_for_level`. -/
def indexForLevel (level virtualAddr : Nat) : Nat :=
  virtualAddr % 2 ^ shiftingBits level / 2 ^ shiftingBits (level - 1)

/-- `entries[index]`. -/
def readEntry (m : Memory) (entries index : Nat) : PageEntry :=
  .ofWord (m.load64 (entries + 8 * index))

/-- The assignment to `entries[index]`. -/
def Kernel.writeEntry (entries index : Nat) (entry : PageEntry) (k : Kernel) : Kernel :=
  { k with mem := k.mem.store64 (entries + 8 * index) entry.toWord }

/-- The buffer list of an address space's page table. -/
def allocatedMemoryOf (v : Nat) : ListField Nat where
  get k := (k.native v).allocatedMemory
  modify change := Kernel.modifyNative v fun pt =>
    { pt with allocatedMemory := pt.allocatedMemory.map change }

/-- The buffer bookkeeping after a new block: the part before the first aligned address is
given up. -/
def NativePageTable.useBlock (newBlock : Nat) (pt : NativePageTable) : NativePageTable :=
  let aligned := align newBlock pageTableEntriesAlignment
  if aligned = newBlock then
    { pt with memAvailableAddr := aligned, memAvailableSize := nativePagetableMemBufferSize }
  else
    let next := wrap (aligned + pageTableEntriesAlignment)
    { pt with
      memAvailableAddr := next
      memAvailableSize := wrapSub nativePagetableMemBufferSize (wrapSub next newBlock) }

/-- Hand out the next `size` bytes of the buffer. -/
def NativePageTable.take (size : Nat) (pt : NativePageTable) : NativePageTable :=
  { pt with
    memAvailableSize := wrapSub pt.memAvailableSize size
    memAvailableAddr := wrap (pt.memAvailableAddr + size) }

/-- Note a table in the history. -/
def NativePageTable.install (level addr : Nat) (pt : NativePageTable) : NativePageTable :=
  { pt with tables := { level := level, addr := addr } :: pt.tables }

/-- `allocated_aligned_memory`. -/
def allocatedAlignedMemory (kalloc : Kalloc) (v size : Nat) (k : Kernel) : Nat × Kernel :=
  let ready :=
    if size > (k.native v).memAvailableSize then
      let block := kalloc nativePagetableMemBufferSize k
      let listed := linkedlistAppend kalloc (allocatedMemoryOf v) block.1 block.2
      listed.2.modifyNative v (NativePageTable.useBlock block.1)
    else k
  ((ready.native v).memAvailableAddr, ready.modifyNative v (NativePageTable.take size))

/-- `create_entries`: 512 entries of eight bytes. -/
def createEntries (kalloc : Kalloc) (v : Nat) (k : Kernel) : Nat × Kernel :=
  allocatedAlignedMemory kalloc v (8 * 512) k

/-- `fill_entry_value`: the requested permissions are overridden at the end. -/
def fillEntryValue (entry : PageEntry) (ptr : Nat) (user code writable : Bool) : PageEntry :=
  let filled : PageEntry :=
    { entry with present := true, addr12Shifted := BitVec.ofNat 48 (ptr / 2 ^ 12) }
  let filled := if user then { filled with user := true } else filled
  let filled := if writable then { filled with writable := true } else filled
  let filled := if code then filled else { filled with executeDisable := true }
  { filled with user := true, writable := true, executeDisable := false }

/-- `set_entry`, from `level` down to the leaf table. -/
def setEntry (kalloc : Kalloc) (v : Nat) :
    Nat → Nat → Nat → Nat → Bool → Bool → Bool → Kernel → Kernel
  | 0, _, _, _, _, _, _, k => k
  | 1, entries, virtualAddr, physicalAddr, user, code, writable, k =>
      let index := indexForLevel 1 virtualAddr
      k.writeEntry entries index
        (fillEntryValue (readEntry k.mem entries index) physicalAddr user code writable)
  | level + 2, entries, virtualAddr, physicalAddr, user, code, writable, k =>
      let index := indexForLevel (level + 2) virtualAddr
      let entry := readEntry k.mem entries index
      if entry.present then
        setEntry kalloc v (level + 1) entry.frame virtualAddr physicalAddr user code writable k
      else
        let table := createEntries kalloc v k
        -- the slot is read again: a nested mapping may have filled it meanwhile
        let linked := table.2.writeEntry entries index
          (fillEntryValue (readEntry table.2.mem entries index) table.1 true true true)
        let noted := linked.modifyNative v (NativePageTable.install (level + 1) table.1)
        setEntry kalloc v (level + 1) table.1 virtualAddr physicalAddr user code writable noted

/-- `native_vmem_create`. -/
def nativeVmemCreate (kalloc : Kalloc) (v : Nat) (k : Kernel) : Bool × Kernel :=
  let pt := kalloc sizeofNativePageTable k
  if pt.1 = 0 then (false, pt.2)
  else
    let list := linkedlistCreate (α := Nat) kalloc pt.2
    if list.1.isNone then (false, list.2)
    else
      let blank := list.2.modifyNative v fun _ => { NativePageTable.zero with allocatedMemory := list.1 }
      let root := createEntries kalloc v blank
      let rooted := root.2.modifyNative v fun pt => { pt with entries := root.1 }
      (true, rooted.modifyNative v (NativePageTable.install 4 root.1))

/-- The loop of `native_vmem_set`: every round maps the same page. -/
def nativeVmemSetLoop (kalloc : Kalloc) (v : Nat) (entry : PageMapEntry) : Nat → Kernel → Kernel
  | 0, k => k
  | count + 1, k =>
      nativeVmemSetLoop kalloc v entry count
        (setEntry kalloc v 4 (k.native v).entries entry.virtualAddr entry.physicalAddr
          (!permIsKernelMode entry.permission) (permIsExec entry.permission)
          (permIsWrite entry.permission) k)

/-- `native_vmem_set`. -/
def nativeVmemSet (kalloc : Kalloc) (v : Nat) (entry : PageMapEntry) (k : Kernel) : Bool × Kernel :=
  if entry.virtualAddr ≠ memAlign entry.virtualAddr ∨
      entry.physicalAddr ≠ memAlign entry.physicalAddr then (false, k)
  else (true, nativeVmemSetLoop kalloc v entry (entry.size / pageTableNativeSizeSmall) k)

/-- `native_vmem_switch`: load `cr3` unless it already holds the table. -/
def nativeVmemSwitch (v : Nat) (k : Kernel) : Kernel :=
  if k.core.cr3 = (k.native v).entries then k
  else k.setCr3 (k.native v).entries

/-- The processor's walk from a table of `level` down: the frame the leaf entry names, or
`none` at the first entry that is not present. -/
def walkFrom (m : Memory) (virtualAddr : Nat) : Nat → Nat → Option Nat
  | 0, table => some table
  | level + 1, table =>
      let entry := readEntry m table (indexForLevel (level + 1) virtualAddr)
      if entry.present then walkFrom m virtualAddr level entry.frame else none

/-- The four-level walk of an address space's tables: the physical page of an address. -/
def walk (k : Kernel) (v virtualAddr : Nat) : Option Nat :=
  walkFrom k.mem virtualAddr 4 (k.native v).entries

end BubackOS
