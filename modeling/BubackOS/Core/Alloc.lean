import BubackOS.Core.Vmem

/-!
# The kernel allocator

`alloc.c`.  Once initialised, `kalloc` grows the kernel data region through
`vmem_region_resize`, which allocates list nodes, map entries and page tables
with `kalloc` again.  `kallocBody` is one level of that recursion, `kallocFuel`
ties it up to a depth, and `kalloc` uses one level more than there are physical
pages.
-/

namespace BubackOS

open Library

/-- `get_current_memory_ptr`: the first call takes the pointer from the platform. -/
def getCurrentMemoryPtr (a : Allocator) : Allocator :=
  if a.currentMemPtr = 0 then { a with currentMemPtr := a.platform.kernelData.addrEnd } else a

/-- The size `ensure_free_memory` compares with: the region's once there is one. -/
def Kernel.kernelDataSize (k : Kernel) : Nat :=
  match k.core.kernelDataVmemRegion with
  | some r => (k.region r).allocatedSize
  | none => k.alloc.platform.kernelData.size

/-- `minimum_required_size` of a request. -/
def minimumRequiredSize (a : Allocator) (size : Nat) : Nat :=
  wrapSub (wrap (a.currentMemPtr + size + kernelMemoryPageReserve)) a.platform.kernelData.addrStart

/-- Move the platform's end of kernel data. -/
def Allocator.expand (newSize : Nat) (a : Allocator) : Allocator :=
  { a with platform := { a.platform with kernelData :=
    { a.platform.kernelData with
      addrEnd := wrap (a.platform.kernelData.addrStart + newSize), size := newSize } } }

/-- The state once the heap pointer is known. -/
def Kernel.located (k : Kernel) : Kernel := k.setAlloc (getCurrentMemoryPtr k.alloc)

/-- `new_size`: what is required and the reserve once more, in whole pages. -/
def grownSize (required : Nat) : Nat :=
  alignNext (wrap (required + kernelMemoryPageReserve)) systemPageSize

/-- The growth branch of `ensure_free_memory`. -/
def expandKernelData (kalloc : Kalloc) (newSize : Nat) (k : Kernel) : Bool × Kernel :=
  if k.alloc.memAllocatorInitialised then
    vmemRegionResize kalloc k.core.kernelDataVmemRegion newSize (k.setAlloc (k.alloc.expand newSize))
  else (true, k.setAlloc (k.alloc.expand newSize))

/-- `ensure_free_memory`. -/
def ensureFreeMemory (kalloc : Kalloc) (size : Nat) (k : Kernel) : Bool × Kernel :=
  if k.located.kernelDataSize < minimumRequiredSize k.located.alloc size then
    expandKernelData kalloc (grownSize (minimumRequiredSize k.located.alloc size)) k.located
  else (true, k.located)

/-- Note a block in the log. -/
def Allocator.log (addr size : Nat) (a : Allocator) : Allocator :=
  { a with blocks := { addr := addr, size := size } :: a.blocks }

/-- Move the heap pointer past a block. -/
def Allocator.advance (size : Nat) (a : Allocator) : Allocator :=
  { a with currentMemPtr := wrap (a.currentMemPtr + size) }

/-- Take a block at the heap pointer and fill it with zeros. -/
def Kernel.takeBlock (size : Nat) (k : Kernel) : Nat × Kernel :=
  (k.located.alloc.currentMemPtr,
    { k with
      mem := k.mem.clear k.located.alloc.currentMemPtr size
      alloc := (k.located.alloc.log k.located.alloc.currentMemPtr size).advance size })

/-- A call that returns `NULL`. -/
def Kernel.refuse (size : Nat) (k : Kernel) : Nat × Kernel :=
  (0, k.setAlloc (k.alloc.log 0 size))

/-- One level of `kalloc`; the calls made while the region grows go to `kalloc`. -/
def kallocBody (kalloc : Kalloc) : Kalloc := fun size k =>
  let ensured := ensureFreeMemory kalloc size k
  if ensured.1 then ensured.2.takeBlock size else ensured.2.refuse size

/-- `kalloc` up to a depth of nested growth, with `bottom` in place of deeper calls. -/
def kallocFuel (bottom : Kalloc) : Nat → Kalloc
  | 0 => bottom
  | fuel + 1 => kallocBody (kallocFuel bottom fuel)

/-- The end of the model's recursion. -/
def cutOff : Kalloc := fun _ k => (0, k.setDiverged)

/-- `kalloc`. -/
def kalloc : Kalloc := fun size k => kallocFuel cutOff (k.core.pmem.totalOfPages + 1) size k

/-! ## Initialisation -/

/-- The state the kernel starts in: all statics are zero. -/
def Kernel.start (platform : Platform) (pmem : Pmem) (m : Memory) : Kernel where
  mem := m
  alloc := { platform := platform, currentMemPtr := 0, memAllocatorInitialised := false, blocks := [] }
  core := .blank pmem

/-- A small machine: one page of kernel code at one megabyte, kernel data on the next page but
one, and 17000 free pages. -/
def sampleKernel : Kernel :=
  .start
    { kernel := { addrStart := 0x100000, addrEnd := 0x101000, size := 0x1000 }
      kernelData := { addrStart := 0x102000, addrEnd := 0x102000, size := 0 } }
    { totalOfPages := 17000, pages := fun _ => .free } (fun _ => 0)

/-- `platform->memory.kernel_data.size = new_size` alone, as the error path has it. -/
def Allocator.setSize (newSize : Nat) (a : Allocator) : Allocator :=
  { a with platform := { a.platform with kernelData :=
    { a.platform.kernelData with size := newSize } } }

/-- `vmem_map_current_kernel_memory_address`. -/
def vmemMapCurrentKernelMemoryAddress (k : Kernel) : Bool × Kernel :=
  let platform := k.alloc.platform
  let code := vmemRegionCreate kalloc k.core.kernelVmem (some "kernel-code")
    platform.kernel.addrStart 0 false true true k
  let coded := code.2.setKernelCode code.1
  let codeMapped := vmemRegionMapPhysicalAddress kalloc code.1 platform.kernel.addrStart
    (alignNext platform.kernel.size systemPageSize) coded
  if codeMapped.1 = 0 then (false, codeMapped.2)
  else
    let dataAddr := codeMapped.2.alloc.platform.kernelData.addrStart
    let data := vmemRegionCreate kalloc codeMapped.2.core.kernelVmem (some "kernel-data")
      dataAddr 0 false true true codeMapped.2
    let dated := data.2.setKernelData data.1
    let newSize := alignNext
      (wrap (dated.alloc.platform.kernelData.size + kernelMemoryPageReserve)) systemPageSize
    let dataMapped := vmemRegionMapPhysicalAddress kalloc data.1
      dated.alloc.platform.kernelData.addrStart newSize dated
    if dataMapped.1 = 0 then
      (false, dataMapped.2.setAlloc (dataMapped.2.alloc.setSize newSize))
    else (true, dataMapped.2)

/-- `memory_allocator_initialize`. -/
def memoryAllocatorInitialize (k : Kernel) : Bool × Kernel :=
  let mapped := vmemMapCurrentKernelMemoryAddress k
  if mapped.1 then
    let allocatedSize := vmemRegionCurrentSize mapped.2.core.kernelDataVmemRegion mapped.2
    if allocatedSize < mapped.2.alloc.platform.kernelData.size then (false, mapped.2)
    else
      let initialised := mapped.2.setAlloc { mapped.2.alloc with memAllocatorInitialised := true }
      match initialised.core.kernelVmem with
      | some kernel => (true, nativeVmemSwitch kernel initialised)
      | none => (true, initialised)
  else (false, mapped.2)

end BubackOS
