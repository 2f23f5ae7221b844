import BubackOS.Core.Pmem
import BubackOS.Hal.NativePagging

/-!
# Address spaces and regions

`vmem/services.c` and `vmem/region_services.c`.  Every function that allocates
takes `kalloc` as an argument: the allocator of `alloc.c` itself calls
`vmem_region_resize`, and that knot is tied there.
-/

namespace BubackOS

/-- `sizeof(vmem_t)`. -/
def sizeofVmem : Nat := 40

/-- `sizeof(vmem_region_t)`. -/
def sizeofVmemRegion : Nat := 64

/-- `sizeof(vmem_map_t)`. -/
def sizeofVmemMap : Nat := 24

/-! ## The lists of an address space and of a region -/

def regionsOf (v : Nat) : ListField Nat where
  get k := (k.vmem v).regions
  modify change := Kernel.modifyVmem v fun vmem => { vmem with regions := vmem.regions.map change }

def mapOf (v : Nat) : ListField VmemMap where
  get k := (k.vmem v).map
  modify change := Kernel.modifyVmem v fun vmem => { vmem with map := vmem.map.map change }

def attachedOf (r : Nat) : ListField Nat where
  get k := (k.region r).attached
  modify change := Kernel.modifyRegion r fun region =>
    { region with attached := region.attached.map change }

def pagesOf (r : Nat) : ListField Nat where
  get k := (k.region r).pages
  modify change := Kernel.modifyRegion r fun region =>
    { region with pages := region.pages.map change }

/-- `vmem_id_mapper`. -/
def vmemIdMapper : MapperField where
  get k := k.core.vmemIdMapper
  modify change k := { k with core := { k.core with vmemIdMapper := change k.core.vmemIdMapper } }

/-- `vmem_region_mapper`. -/
def vmemRegionMapper : MapperField where
  get k := k.core.vmemRegionMapper
  modify change k :=
    { k with core := { k.core with vmemRegionMapper := change k.core.vmemRegionMapper } }

/-! ## Mapping one page -/

/-- The permission bits `vmem_notify_change` derives from the region. -/
def regionPermission (region : VmemRegion) : Permission :=
  permSetRead (permSetExec (permSetWrite (permSetKernelMode 0 (!region.user)) region.writable)
    region.executable) true

/-- `vmem_notify_change`. -/
def vmemNotifyChange (kalloc : Kalloc) (v r paddr vaddr : Nat) (k : Kernel) : Bool × Kernel :=
  let map := kalloc sizeofVmemMap k
  if map.1 = 0 then (false, map.2)
  else
    let listed := linkedlistAppend kalloc (mapOf v)
      { virtualAddr := vaddr, physicalAddr := paddr, region := r } map.2
    if listed.1 then
      (true, (nativeVmemSet kalloc v
        { virtualAddr := vaddr
          physicalAddr := paddr
          size := systemPageSize
          permission := regionPermission (listed.2.region r) } listed.2).2)
    else (false, listed.2)

/-- The first entry of a map at a page. -/
def findMap (map : List VmemMap) (aligned : Nat) : Option VmemMap :=
  map.find? (·.virtualAddr = aligned)

/-- `vmem_get_physical_address`. -/
def vmemGetPhysicalAddress (k : Kernel) (v vaddr : Nat) : Nat :=
  match findMap (k.vmem v).map.items (memAlign vaddr) with
  | some map => wrap (map.physicalAddr + (vaddr - memAlign vaddr))
  | none => 0

/-! ## Growing a region -/

/-- The notification loop over the address spaces of a region. -/
def notifyAttached (kalloc : Kalloc) (r paddr vaddr : Nat) : List Nat → Kernel → Bool × Kernel
  | [], k => (true, k)
  | v :: rest, k =>
      let notified := vmemNotifyChange kalloc v r paddr vaddr k
      if notified.1 then notifyAttached kalloc r paddr vaddr rest notified.2
      else (false, notified.2)

/-- `vmem_region_assoc_physical_address`: the size grows before the list does, and the result of
`linkedlist_append` is not looked at. -/
def vmemRegionAssocPhysicalAddress (kalloc : Kalloc) (r paddr : Nat) (k : Kernel) : Nat × Kernel :=
  let vaddr := wrap ((k.region r).start + (k.region r).allocatedSize)
  let called := k.record
    (.associate r paddr k.alloc.currentMemPtr (k.region r).allocatedSize)
  let grown := called.modifyRegion r fun region =>
    { region with allocatedSize := wrap (region.allocatedSize + systemPageSize) }
  let stored := linkedlistAppend kalloc (pagesOf r) paddr grown
  let notified := notifyAttached kalloc r paddr vaddr (stored.2.region r).attached.items stored.2
  let concluded := notified.2.conclude { region := r, listed := stored.1, mapped := notified.1 }
  if notified.1 then (vaddr, concluded) else (0, concluded)

/-- The loop of `vmem_region_map_physical_address` over `count` remaining pages. -/
def mapPhysicalLoop (kalloc : Kalloc) (r physicalStartAddr : Nat) :
    Nat → Nat → Nat → Kernel → Nat × Kernel
  | 0, _, returningAddr, k => (returningAddr, k)
  | count + 1, paddr, returningAddr, k =>
      let associated := vmemRegionAssocPhysicalAddress kalloc r paddr k
      if associated.1 = 0 then (0, associated.2)
      else
        let sized := associated.2.modifyRegion r fun region =>
          { region with size := region.allocatedSize }
        mapPhysicalLoop kalloc r physicalStartAddr count (wrap (paddr + systemPageSize))
          (if paddr = physicalStartAddr then associated.1 else returningAddr) sized

/-- `vmem_region_map_physical_address`; an aligned size is a whole number of pages. -/
def vmemRegionMapPhysicalAddress (kalloc : Kalloc) (region : Option Nat)
    (physicalStartAddr size : Nat) (k : Kernel) : Nat × Kernel :=
  match region with
  | none => (0, k)
  | some r =>
      if physicalStartAddr ≠ memAlign physicalStartAddr ∨ size ≠ memAlign size then (0, k)
      else mapPhysicalLoop kalloc r physicalStartAddr (size / systemPageSize) physicalStartAddr 0 k

/-- The allocation loop of `vmem_region_resize` for `count` missing pages; `false` when
physical memory ran out. -/
def resizeLoop (kalloc : Kalloc) (r : Nat) : Nat → Kernel → Bool × Kernel
  | 0, k => (true, k)
  | count + 1, k =>
      let page := pmemAllocate k
      if page.1 = 0 then (false, page.2)
      else resizeLoop kalloc r count (vmemRegionAssocPhysicalAddress kalloc r page.1 page.2).2

/-- Adopt a size the allocated pages can hold. -/
def adoptSize (newSize : Nat) (region : VmemRegion) : VmemRegion :=
  if newSize ≤ region.allocatedSize then { region with size := newSize } else region

/-- `vmem_region_resize`.  Both sizes are whole pages, so the missing space is as well. -/
def vmemRegionResize (kalloc : Kalloc) (region : Option Nat) (newSize : Nat) (k : Kernel) :
    Bool × Kernel :=
  match region with
  | none => (false, k)
  | some r =>
      let newAllocatedSize := alignNext newSize systemPageSize
      let resized :=
        if newAllocatedSize < (k.region r).allocatedSize then
          (true, k.modifyRegion r fun region => { region with size := newSize })
        else
          resizeLoop kalloc r
            (wrapSub newAllocatedSize (k.region r).allocatedSize / systemPageSize) k
      (resized.1, resized.2.modifyRegion r (adoptSize newSize))

/-! ## Attaching -/

/-- The replay loop of `vmem_attach`.  The iterator holds the next node, fetched before the
body runs; a page `0` ends it like the end of the list. -/
def attachPages (kalloc : Kalloc) (v r : Nat) : Nat → Option Nat → Nat → Kernel → Bool × Kernel
  | _, none, _, k => (true, k)
  | 0, some _, _, k => (false, k.setDiverged)
  | fuel + 1, some node, vaddr, k =>
      let pages := (k.region r).pages.items
      let paddr := pages.getD node 0
      if paddr = 0 then (true, k)
      else
        let notified := vmemNotifyChange kalloc v r paddr vaddr k
        if notified.1 then
          attachPages kalloc v r fuel (if node + 1 < pages.length then some (node + 1) else none)
            (wrap (vaddr + systemPageSize)) notified.2
        else (false, notified.2)

/-- The rounds the replay loop can make: the pages there are, and those that physical memory
can still add. -/
def attachFuel (r : Nat) (k : Kernel) : Nat :=
  (k.region r).pages.items.length + k.core.pmem.totalOfPages + 1

/-- The replay of all pages of a region, from its start address on. -/
def replayPages (kalloc : Kalloc) (v r : Nat) (k : Kernel) : Bool × Kernel :=
  attachPages kalloc v r (attachFuel r k)
    (if 0 < (k.region r).pages.items.length then some 0 else none) (k.region r).start k

/-- The `error` label of `vmem_attach`. -/
def detach (v r : Nat) (k : Kernel) : Kernel :=
  linkedlistRemoveElement (attachedOf r) v (linkedlistRemoveElement (regionsOf v) r k)

/-- `vmem_attach`. -/
def vmemAttach (kalloc : Kalloc) (vmem region : Option Nat) (k : Kernel) : Bool × Kernel :=
  match vmem, region with
  | some v, some r =>
      if linkedlistFind (k.vmem v).regions r ≠ -1 then (true, k)
      else
        let listed := linkedlistAppend kalloc (regionsOf v) r k
        if listed.1 then
          let linked := linkedlistAppend kalloc (attachedOf r) v listed.2
          if linked.1 then
            let mapped := replayPages kalloc v r linked.2
            if mapped.1 then (true, mapped.2) else (false, detach v r mapped.2)
          else (false, detach v r linked.2)
        else (false, detach v r listed.2)
  | _, _ => (false, k)

/-! ## Creation -/

/-- `find_next_memory_address`: a bump that looks at no region. -/
def findNextMemoryAddress (v : Nat) (k : Kernel) : Nat × Kernel :=
  ((k.vmem v).nextStartAddress, k.modifyVmem v fun vmem =>
    { vmem with nextStartAddress := wrap (vmem.nextStartAddress + regionAddressIncrement) })

/-- The address a region is created at, and the state after the choice. -/
def placeRegion (v start : Nat) (k : Kernel) : Nat × Kernel :=
  if start = 0 then findNextMemoryAddress v k else (start, k)

/-- The record of a new region with its two lists, once its memory is there. -/
def regionRecord (kalloc : Kalloc) (name : String) (start : Nat) (user writable executable : Bool)
    (k : Kernel) : Kernel :=
  let r := k.core.vmemRegions.count
  let created := k.newRegion
    { VmemRegion.zero with
      name := name, start := start, user := user, writable := writable, executable := executable }
  let pages := linkedlistCreate kalloc created
  let paged := pages.2.modifyRegion r fun region => { region with pages := pages.1 }
  let attached := linkedlistCreate kalloc paged
  attached.2.modifyRegion r fun region => { region with attached := attached.1 }

/-- `vmem_region_create`.  Releasing the lists on the error path reclaims nothing. -/
def vmemRegionCreate (kalloc : Kalloc) (vmem : Option Nat) (name : Option String)
    (start size : Nat) (user writable executable : Bool) (k : Kernel) : Option Nat × Kernel :=
  match vmem, name with
  | some v, some name =>
      let placed := placeRegion v start k
      if memAlign placed.1 ≠ placed.1 then (none, placed.2)
      else
        let object := kalloc sizeofVmemRegion placed.2
        if object.1 = 0 then (none, object.2)
        else
          let r := object.2.core.vmemRegions.count
          let listed := regionRecord kalloc name placed.1 user writable executable object.2
          let linked := vmemAttach kalloc (some v) (some r) listed
          if linked.1 then
            let resized := vmemRegionResize kalloc (some r) size linked.2
            if resized.1 then
              let id := idMapperAdd kalloc vmemRegionMapper r resized.2
              let named := id.2.modifyRegion r fun region => { region with vmemRegionId := id.1 }
              if id.1 = 0 then (none, named) else (some r, named)
            else (none, resized.2)
          else (none, linked.2)
  | _, _ => (none, k)

/-- The loop of `vmem_create` over the kernel's regions. -/
def attachRegions (kalloc : Kalloc) (v : Nat) : List Nat → Kernel → Bool × Kernel
  | [], k => (true, k)
  | r :: rest, k =>
      let attached := vmemAttach kalloc (some v) (some r) k
      if attached.1 then attachRegions kalloc v rest attached.2 else (false, attached.2)

/-- `kernel_vmem->regions`, empty before there is a kernel address space. -/
def Kernel.kernelRegions (k : Kernel) : List Nat :=
  match k.core.kernelVmem with
  | some kernel => (k.vmem kernel).regions.items
  | none => []

/-- The record of a new address space with its two lists, once its memory is there. -/
def vmemRecord (kalloc : Kalloc) (k : Kernel) : Kernel :=
  let v := k.core.vmems.count
  let created := k.newVmem { Vmem.zero with nextStartAddress := regionAddressIncrement }
  let regions := linkedlistCreate kalloc created
  let listed := regions.2.modifyVmem v fun vmem => { vmem with regions := regions.1 }
  let map := linkedlistCreate kalloc listed
  map.2.modifyVmem v fun vmem => { vmem with map := map.1 }

/-- `vmem_create`.  `vmem_destroy` on the error path reclaims nothing. -/
def vmemCreate (kalloc : Kalloc) (k : Kernel) : Option Nat × Kernel :=
  let object := kalloc sizeofVmem k
  if object.1 = 0 then (none, object.2)
  else
    let v := object.2.core.vmems.count
    let native := nativeVmemCreate kalloc v (vmemRecord kalloc object.2)
    if native.1 then
      let attached := attachRegions kalloc v native.2.kernelRegions native.2
      if attached.1 then
        let id := idMapperAdd kalloc vmemIdMapper v attached.2
        let named := id.2.modifyVmem v fun vmem => { vmem with vmemId := id.1 }
        if id.1 = 0 then (none, named) else (some v, named)
      else (none, attached.2)
    else (none, native.2)

/-- `vmem_destroy`: the two lists and the record go to `kfree`; the regions are not looked at. -/
def vmemDestroy (vmem : Option Nat) (k : Kernel) : Kernel :=
  match vmem with
  | some v =>
      let listless := linkedlistDestroy (k.vmem v).regions k
      kfree (linkedlistDestroy (listless.vmem v).map listless)
  | none => k

/-- `vmem_initialize`. -/
def vmemInitialize (kalloc : Kalloc) (k : Kernel) : Kernel :=
  let created := vmemCreate kalloc (idMapperCreate kalloc vmemIdMapper k)
  created.2.setKernelVmem created.1

/-- `vmem_region_initialize`. -/
def vmemRegionInitialize (kalloc : Kalloc) (k : Kernel) : Kernel :=
  idMapperCreate kalloc vmemRegionMapper k

/-- `vmem_region_current_size`. -/
def vmemRegionCurrentSize (region : Option Nat) (k : Kernel) : Nat :=
  match region with
  | some r => (k.region r).size
  | none => 0

end BubackOS
