import BubackOS.Library.ByteMemory
import BubackOS.Library.Store
import BubackOS.Libutils.Words

/-!
# The state of the kernel's memory services

The records follow `core/types.h`, `core/hal/platform.h`, `core/vmem/services.h`,
`core/vmem/region_services.h`, `libutils/id_mapper.h` and
`x86_64/native_pagging.h`.  A pointer to an address space or a region is a
reference into a store of objects (`kfree` reclaims nothing, so a reference
stays valid); page tables live in memory, at the addresses `kalloc` returned.

The state has three parts: the bytes of memory, what `alloc.c` keeps, and
everything else.  Four histories are kept beside the source's own data: the
blocks `kalloc` has returned, the tables a page table has installed, the
events of the page services, and the results their callers do not look at.
-/

namespace BubackOS

open Library

/-- `linkedlist_t*`: `none` is the `NULL` list, and the chain is its sequence of values. -/
abbrev LinkedList (α : Type) : Type := Option (List α)

/-- The values a traversal of the list visits; a `NULL` list has none. -/
def LinkedList.items {α : Type} (list : LinkedList α) : List α := list.getD []

/-- `region_t`. -/
structure Region where
  addrStart : Nat
  addrEnd : Nat
  size : Nat
  deriving DecidableEq, Repr

/-- The part of `platform_t` the memory services read. -/
structure Platform where
  kernel : Region
  kernelData : Region
  deriving DecidableEq, Repr

/-- A block returned by `kalloc`; the address `0` is a failed call. -/
structure Block where
  addr : Nat
  size : Nat
  deriving DecidableEq, Repr

/-- The statics of `alloc.c`, the platform counters it moves, and the blocks returned
so far, the last one first. -/
structure Allocator where
  platform : Platform
  currentMemPtr : Nat
  memAllocatorInitialised : Bool
  blocks : List Block

/-- `PAGE_TYPE_FREE`, `PAGE_TYPE_SYSTEM` and `PAGE_TYPE_USER`. -/
inductive PageType where
  | free
  | system
  | user
  deriving DecidableEq, Repr

/-- The page array of `pmem/services.c`. -/
structure Pmem where
  totalOfPages : Nat
  pages : Nat → PageType

/-- `id_mapper_t`; the values are references. -/
structure IdMapper where
  next : Nat
  list : LinkedList (Nat × Nat)

/-- A table of page entries: the root has level `4`, the tables of leaf entries level `1`. -/
structure Table where
  level : Nat
  addr : Nat
  deriving DecidableEq, Repr

/-- `native_page_table_t`, with the tables installed so far, the last one first. -/
structure NativePageTable where
  entries : Nat
  allocatedMemory : LinkedList Nat
  memAvailableAddr : Nat
  memAvailableSize : Nat
  tables : List Table

/-- `vmem_map_t`. -/
structure VmemMap where
  virtualAddr : Nat
  physicalAddr : Nat
  region : Nat
  deriving DecidableEq, Repr

/-- `vmem_t`; the record behind `native_vmem` belongs to this address space alone. -/
structure Vmem where
  vmemId : Nat
  nativeVmem : NativePageTable
  regions : LinkedList Nat
  map : LinkedList VmemMap
  nextStartAddress : Nat

/-- `vmem_region_t`. -/
structure VmemRegion where
  vmemRegionId : Nat
  attached : LinkedList Nat
  name : String
  start : Nat
  size : Nat
  allocatedSize : Nat
  user : Bool
  writable : Bool
  executable : Bool
  pages : LinkedList Nat

/-- What the page services did: a page handed to `vmem_region_assoc_physical_address`
together with the heap pointer and the region's allocated size at that moment, or a
`pmem_allocate` that found no page. -/
inductive Event where
  | associate (region paddr memPtr allocatedSize : Nat)
  | outOfPages
  deriving DecidableEq, Repr

/-- How a call of `vmem_region_assoc_physical_address` ended: the page is in the list of the
region, and in the maps of its address spaces. -/
structure Association where
  region : Nat
  listed : Bool
  mapped : Bool
  deriving DecidableEq, Repr

/-- The statics of the vmem and pmem modules and the objects they manage; `diverged`
records a recursion cut off by the model's depth bound. -/
structure Core where
  kernelVmem : Option Nat
  kernelCodeVmemRegion : Option Nat
  kernelDataVmemRegion : Option Nat
  vmems : Store Vmem
  vmemRegions : Store VmemRegion
  vmemIdMapper : IdMapper
  vmemRegionMapper : IdMapper
  pmem : Pmem
  cr3 : Nat
  trace : List Event
  associations : List Association
  diverged : Bool

/-- The whole state. -/
structure Kernel where
  mem : Memory
  alloc : Allocator
  core : Core

/-- `kalloc` as the other modules see it: `0` is `NULL`. -/
abbrev Kalloc : Type := Nat → Kernel → Nat × Kernel

namespace NativePageTable

/-- A freshly allocated, hence zeroed, record. -/
def zero : NativePageTable where
  entries := 0
  allocatedMemory := none
  memAvailableAddr := 0
  memAvailableSize := 0
  tables := []

end NativePageTable

namespace Vmem

def zero : Vmem where
  vmemId := 0
  nativeVmem := .zero
  regions := none
  map := none
  nextStartAddress := 0

end Vmem

namespace VmemRegion

def zero : VmemRegion where
  vmemRegionId := 0
  attached := none
  name := ""
  start := 0
  size := 0
  allocatedSize := 0
  user := false
  writable := false
  executable := false
  pages := none

end VmemRegion

/-- The statics as they are before any service ran: all zero, but for the page array. -/
def Core.blank (pmem : Pmem) : Core where
  kernelVmem := none
  kernelCodeVmemRegion := none
  kernelDataVmemRegion := none
  vmems := { count := 0, get := fun _ => .zero }
  vmemRegions := { count := 0, get := fun _ => .zero }
  vmemIdMapper := { next := 0, list := none }
  vmemRegionMapper := { next := 0, list := none }
  pmem := pmem
  cr3 := 0
  trace := []
  associations := []
  diverged := false

namespace Kernel

/-- The address space behind a reference. -/
def vmem (k : Kernel) (v : Nat) : Vmem := k.core.vmems.get v

/-- The region behind a reference. -/
def region (k : Kernel) (r : Nat) : VmemRegion := k.core.vmemRegions.get r

/-- The page table of an address space. -/
def native (k : Kernel) (v : Nat) : NativePageTable := (k.vmem v).nativeVmem

def modifyVmem (v : Nat) (change : Vmem → Vmem) (k : Kernel) : Kernel :=
  { k with core := { k.core with vmems := k.core.vmems.modify v change } }

def modifyRegion (r : Nat) (change : VmemRegion → VmemRegion) (k : Kernel) : Kernel :=
  { k with core := { k.core with vmemRegions := k.core.vmemRegions.modify r change } }

def modifyNative (v : Nat) (change : NativePageTable → NativePageTable) (k : Kernel) : Kernel :=
  k.modifyVmem v fun vmem => { vmem with nativeVmem := change vmem.nativeVmem }

def newVmem (object : Vmem) (k : Kernel) : Kernel :=
  { k with core := { k.core with vmems := k.core.vmems.new object } }

def newRegion (object : VmemRegion) (k : Kernel) : Kernel :=
  { k with core := { k.core with vmemRegions := k.core.vmemRegions.new object } }

def record (event : Event) (k : Kernel) : Kernel :=
  { k with core := { k.core with trace := event :: k.core.trace } }

def setAlloc (a : Allocator) (k : Kernel) : Kernel := { k with alloc := a }

def setPmem (pmem : Pmem) (k : Kernel) : Kernel := { k with core := { k.core with pmem := pmem } }

def setKernelVmem (vmem : Option Nat) (k : Kernel) : Kernel :=
  { k with core := { k.core with kernelVmem := vmem } }

def setKernelCode (region : Option Nat) (k : Kernel) : Kernel :=
  { k with core := { k.core with kernelCodeVmemRegion := region } }

def setKernelData (region : Option Nat) (k : Kernel) : Kernel :=
  { k with core := { k.core with kernelDataVmemRegion := region } }

def setCr3 (table : Nat) (k : Kernel) : Kernel := { k with core := { k.core with cr3 := table } }

def setDiverged (k : Kernel) : Kernel := { k with core := { k.core with diverged := true } }

/-- An association that has ended is noted. -/
def conclude (association : Association) (k : Kernel) : Kernel :=
  { k with core := { k.core with associations := association :: k.core.associations } }

/-! ### Reading an updated state -/

variable (k : Kernel) (v w r s : Nat)

theorem vmem_modifyVmem (change : Vmem → Vmem) :
    (k.modifyVmem v change).vmem w = if w = v then change (k.vmem w) else k.vmem w := rfl

theorem region_modifyRegion (change : VmemRegion → VmemRegion) :
    (k.modifyRegion r change).region s = if s = r then change (k.region s) else k.region s := rfl

@[simp] theorem vmem_modifyVmem_self (change : Vmem → Vmem) :
    (k.modifyVmem v change).vmem v = change (k.vmem v) := if_pos rfl

@[simp] theorem region_modifyRegion_self (change : VmemRegion → VmemRegion) :
    (k.modifyRegion r change).region r = change (k.region r) := if_pos rfl

@[simp] theorem region_modifyVmem (change : Vmem → Vmem) :
    (k.modifyVmem v change).region r = k.region r := rfl

@[simp] theorem vmem_modifyRegion (change : VmemRegion → VmemRegion) :
    (k.modifyRegion r change).vmem v = k.vmem v := rfl

@[simp] theorem vmem_record (event : Event) : (k.record event).vmem v = k.vmem v := rfl

@[simp] theorem region_record (event : Event) : (k.record event).region r = k.region r := rfl

@[simp] theorem native_modifyNative_self (change : NativePageTable → NativePageTable) :
    (k.modifyNative v change).native v = change (k.native v) := by
  simp [modifyNative, native]

variable {k v w r s}

theorem vmem_modifyVmem_of_ne {change : Vmem → Vmem} (other : w ≠ v) :
    (k.modifyVmem v change).vmem w = k.vmem w := if_neg other

theorem region_modifyRegion_of_ne {change : VmemRegion → VmemRegion} (other : s ≠ r) :
    (k.modifyRegion r change).region s = k.region s := if_neg other

theorem native_modifyNative_of_ne {change : NativePageTable → NativePageTable} (other : w ≠ v) :
    (k.modifyNative v change).native w = k.native w := by
  rw [native, modifyNative, vmem_modifyVmem_of_ne other, native]

end Kernel
end BubackOS
