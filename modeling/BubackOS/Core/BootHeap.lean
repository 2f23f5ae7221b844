import BubackOS.Core.DataGrowth
import BubackOS.Core.KallocBlocks
import BubackOS.Core.Settled

/-!
# The heap while the kernel regions are mapped

Until `memory_allocator_initialize` is done, `kalloc` takes its blocks one after the other from
the start of kernel data on.  It keeps the reserve free below a limit: the size the platform
notes, or the size of the data region once there is one.  The region is empty when it becomes
the limit, and the requests made while it is filled move the platform's size instead, so only
the larger of the two is a limit all along.
-/

namespace BubackOS

open Library

variable {S : Nat} {image : Region} {k k' : Kernel} {r : Nat}

/-- The size of the kernel data region; there may be none yet. -/
def Kernel.dataAllocated (k : Kernel) : Nat :=
  match k.core.kernelDataVmemRegion with
  | some r => (k.region r).allocatedSize
  | none => 0

/-- No request comes near the end of the addresses: the reserve fits behind it twice. -/
def Roomy (log : List Block) : Prop :=
  ∀ block ∈ log, block.addr + block.size + 2 * kernelMemoryPageReserve < 2 ^ 64

instance (log : List Block) : Decidable (Roomy log) :=
  inferInstanceAs (Decidable (∀ block ∈ log, block.addr + block.size + 2 * kernelMemoryPageReserve < 2 ^ 64))

theorem Roomy.of_suffix {log log' : List Block} (roomy : Roomy log') (grown : log <:+ log') : Roomy log :=
  fun block member => roomy block (grown.subset member)

theorem Roomy.noWrap {log : List Block} (roomy : Roomy log) : NoWrap log := fun block member =>
  Nat.lt_of_le_of_lt (Nat.le_add_right _ _) (roomy block member)

/-- The heap of an allocator that is not initialised: blocks from the start of kernel data up to
the heap pointer, and the reserve between the pointer and the limit. -/
structure Heap (S : Nat) (image : Region) (k : Kernel) : Prop where
  early : Early k.alloc
  base : k.alloc.platform.kernelData.addrStart = S
  kernel : k.alloc.platform.kernel = image
  place : S ≤ k.located.alloc.currentMemPtr
  inside : ∀ block ∈ k.alloc.blocks,
    S ≤ block.addr ∧ block.addr + block.size ≤ k.located.alloc.currentMemPtr
  room : k.alloc.blocks ≠ [] → k.located.alloc.currentMemPtr + kernelMemoryPageReserve ≤
    S + max k.alloc.platform.kernelData.size k.dataAllocated
  tidy : Tidy k.alloc

/-! ## One request -/

theorem Kernel.located_of_ne (placed : k.alloc.currentMemPtr ≠ 0) : k.located.alloc = k.alloc := by
  rw [k.located_alloc, getCurrentMemoryPtr, if_neg placed]

theorem Kernel.located_platform (k : Kernel) : k.located.alloc.platform = k.alloc.platform := by
  rw [k.located_alloc, getCurrentMemoryPtr]
  split <;> rfl

theorem Kernel.dataAllocated_congr (core : k'.core = k.core) : k'.dataAllocated = k.dataAllocated := by
  unfold Kernel.dataAllocated Kernel.region
  rw [core]

/-- What `ensure_free_memory` compares with is below the limit. -/
theorem Kernel.kernelDataSize_le (k : Kernel) :
    k.kernelDataSize ≤ max k.alloc.platform.kernelData.size k.dataAllocated := by
  unfold Kernel.kernelDataSize Kernel.dataAllocated
  cases k.core.kernelDataVmemRegion with
  | some r => exact Nat.le_max_right _ _
  | none => exact Nat.le_max_left _ _

namespace Allocator

variable (newSize : Nat) (a : Allocator)

theorem expand_pointer : (a.expand newSize).currentMemPtr = a.currentMemPtr := rfl

theorem expand_start : (a.expand newSize).platform.kernelData.addrStart = a.platform.kernelData.addrStart := rfl

theorem expand_size : (a.expand newSize).platform.kernelData.size = newSize := rfl

theorem expand_kernel : (a.expand newSize).platform.kernel = a.platform.kernel := rfl

end Allocator

theorem ensureEarly_pointer (size : Nat) (k : Kernel) :
    (k.ensureEarly size).alloc.currentMemPtr = k.located.alloc.currentMemPtr := by
  unfold Kernel.ensureEarly
  split
  · rw [Kernel.setAlloc_alloc, Allocator.expand_pointer]
  · rfl

theorem ensureEarly_start (size : Nat) (k : Kernel) :
    (k.ensureEarly size).alloc.platform.kernelData.addrStart = k.alloc.platform.kernelData.addrStart := by
  rw [← k.located_platform]
  unfold Kernel.ensureEarly
  split
  · rw [Kernel.setAlloc_alloc, Allocator.expand_start]
  · rfl

theorem ensureEarly_kernel (size : Nat) (k : Kernel) :
    (k.ensureEarly size).alloc.platform.kernel = k.alloc.platform.kernel := by
  rw [← k.located_platform]
  unfold Kernel.ensureEarly
  split
  · rw [Kernel.setAlloc_alloc, Allocator.expand_kernel]
  · rfl

theorem minimumRequiredSize_eq (base : k.alloc.platform.kernelData.addrStart = S) {size : Nat}
    (place : S ≤ k.alloc.currentMemPtr)
    (fits : k.alloc.currentMemPtr + size + 2 * kernelMemoryPageReserve < 2 ^ 64) :
    minimumRequiredSize k.alloc size = k.alloc.currentMemPtr + size + kernelMemoryPageReserve - S := by
  have reserve : kernelMemoryPageReserve = 40960 := rfl
  unfold minimumRequiredSize
  rw [base, wrap_of_lt (by omega), wrapSub_of_le (by omega) (by omega)]

theorem le_grownSize (required : Nat) (fits : required + kernelMemoryPageReserve + 4095 < 2 ^ 64) :
    required + kernelMemoryPageReserve ≤ grownSize required := by
  unfold grownSize
  rw [wrap_of_lt (by omega), alignNext_eq fits]
  omega

theorem Kernel.takeBlock_platform (size : Nat) (k : Kernel) :
    (k.takeBlock size).2.alloc.platform = k.alloc.platform := k.located_platform

/-- After `ensure_free_memory` there is room for the request and the reserve. -/
theorem ensureEarly_room (base : k.alloc.platform.kernelData.addrStart = S) (positive : 4096 ≤ S) {size : Nat}
    (place : S ≤ k.located.alloc.currentMemPtr)
    (fits : k.located.alloc.currentMemPtr + size + 2 * kernelMemoryPageReserve < 2 ^ 64) :
    k.located.alloc.currentMemPtr + size + kernelMemoryPageReserve ≤
      S + max (k.ensureEarly size).alloc.platform.kernelData.size (k.ensureEarly size).dataAllocated := by
  have reserve : kernelMemoryPageReserve = 40960 := rfl
  have base' : k.located.alloc.platform.kernelData.addrStart = S := by rw [k.located_platform, base]
  have required := minimumRequiredSize_eq base' place fits
  unfold Kernel.ensureEarly
  split
  · have grown := le_grownSize (minimumRequiredSize k.located.alloc size) (by omega)
    rw [Kernel.setAlloc_alloc, Allocator.expand_size]
    generalize grownSize (minimumRequiredSize k.located.alloc size) = newSize at grown ⊢
    have limit := Nat.le_max_left newSize (k.located.setAlloc (k.located.alloc.expand newSize)).dataAllocated
    omega
  · rename_i enough
    have limit := k.located.kernelDataSize_le
    omega

/-- A request leaves a heap with one more block. -/
theorem Heap.call (heap : Heap S image k) (positive : 4096 ≤ S) (size : Nat)
    (roomy : Roomy (kalloc size k).2.alloc.blocks) : Heap S image (kalloc size k).2 := by
  have tidy := (keepsTidy_closed.growth.calls.kalloc size k).tidy roomy.noWrap heap.tidy
  rw [kalloc_early heap.early] at roomy tidy ⊢
  have pointer := ensureEarly_pointer size k
  have placed : (k.ensureEarly size).alloc.currentMemPtr ≠ 0 := by
    have place := heap.place
    omega
  have located := Kernel.located_of_ne placed
  have taken : ((k.ensureEarly size).takeBlock size).1 = k.located.alloc.currentMemPtr := by
    rw [Kernel.takeBlock_fst, located, pointer]
  have blocks := (k.ensureEarly size).takeBlock_blocks size
  rw [taken, ensureEarly_blocks] at blocks
  have fits := roomy { addr := k.located.alloc.currentMemPtr, size := size } (by rw [blocks]; exact List.mem_cons_self)
  dsimp only at fits
  have moved : ((k.ensureEarly size).takeBlock size).2.alloc.currentMemPtr = k.located.alloc.currentMemPtr + size := by
    rw [Kernel.takeBlock_pointer, taken, wrap_of_lt (by omega)]
  have located' : ((k.ensureEarly size).takeBlock size).2.located.alloc =
      ((k.ensureEarly size).takeBlock size).2.alloc := by
    have place := heap.place
    exact Kernel.located_of_ne (k := ((k.ensureEarly size).takeBlock size).2) (by omega)
  have platform := (k.ensureEarly size).takeBlock_platform size
  have limit : ((k.ensureEarly size).takeBlock size).2.dataAllocated = (k.ensureEarly size).dataAllocated :=
    Kernel.dataAllocated_congr (Kernel.takeBlock_core _ _)
  constructor
  · rw [Early, Kernel.takeBlock_initialised]
    exact ensureEarly_early heap.early size
  · rw [platform, ensureEarly_start, heap.base]
  · rw [platform, ensureEarly_kernel, heap.kernel]
  · rw [located', moved]
    exact Nat.le_trans heap.place (Nat.le_add_right _ _)
  · intro block member
    rw [blocks] at member
    rw [located', moved]
    rcases List.mem_cons.mp member with rfl | older
    · exact ⟨heap.place, Nat.le_refl _⟩
    · have before := heap.inside block older
      exact ⟨before.1, Nat.le_trans before.2 (Nat.le_add_right _ _)⟩
  · intro _
    rw [located', moved, platform, limit]
    exact ensureEarly_room heap.base positive heap.place fits
  · exact tidy

/-! ## Paths -/

/-- A step beside the allocator that takes no pages from kernel data. -/
theorem Heap.still (heap : Heap S image k) (alloc : k'.alloc = k.alloc)
    (data : k.dataAllocated ≤ k'.dataAllocated) : Heap S image k' := by
  have located : k'.located.alloc = k.located.alloc := by rw [k'.located_alloc, alloc, k.located_alloc]
  refine ⟨alloc ▸ heap.early, alloc ▸ heap.base, alloc ▸ heap.kernel, located ▸ heap.place, ?_, ?_, alloc ▸ heap.tidy⟩
  · rw [alloc, located]
    exact heap.inside
  · rw [alloc, located]
    exact fun some => Nat.le_trans (heap.room some) (Nat.add_le_add_left (max_le_max_left _ data) _)

theorem dataAllocated_of_none (noData : k.core.kernelDataVmemRegion = none) : k.dataAllocated = 0 := by
  rw [Kernel.dataAllocated, noData]

theorem Heap.along (heap : Heap S image k) (positive : 4096 ≤ S) (noData : k.core.kernelDataVmemRegion = none)
    (path : AnyPath kalloc k k') (roomy : Roomy k'.alloc.blocks) : Heap S image k' := by
  induction path with
  | refl => exact heap
  | @tail middle last path step ih =>
      have steps : AnyPath kalloc middle last := Relation.ReflTransGen.single step
      have mode := (kalloc_quiet.along path heap.early).1
      have heap' := ih (roomy.of_suffix (kalloc_quiet.along steps mode).2)
      have calls := kernelData_closed.growth.calls.kalloc
      have none := (kernelData_closed.path calls path).trans noData
      have data : middle.dataAllocated ≤ last.dataAllocated := by
        rw [dataAllocated_of_none none]
        exact Nat.zero_le _
      cases step with
      | table step =>
          cases step with
          | call size => exact heap'.call positive size roomy
          | write => exact heap'.still rfl data
          | native => exact heap'.still rfl data
      | grow found => exact heap'.still (pmemAllocate_alloc _) data
      | exhaust failed => exact heap'.still (pmemAllocate_alloc _) data
      | _ => exact heap'.still rfl data

/-! ## Filling the data region -/

/-- A step on which a heap stays one, with the same size of the data region. -/
structure KeepsHeap (S : Nat) (image : Region) (k k' : Kernel) : Prop where
  log : k.alloc.blocks <:+ k'.alloc.blocks
  heap : Roomy k'.alloc.blocks → Heap S image k → Heap S image k' ∧ k'.dataAllocated = k.dataAllocated

namespace KeepsHeap

theorem trans {k'' : Kernel} (first : KeepsHeap S image k k') (second : KeepsHeap S image k' k'') :
    KeepsHeap S image k k'' where
  log := first.log.trans second.log
  heap := by
    intro roomy heap
    obtain ⟨heap', same⟩ := first.heap (roomy.of_suffix second.log) heap
    obtain ⟨heap'', same'⟩ := second.heap roomy heap'
    exact ⟨heap'', same'.trans same⟩

theorem still (alloc : k'.alloc = k.alloc) (data : k'.dataAllocated = k.dataAllocated) : KeepsHeap S image k k' where
  log := by rw [alloc]
  heap := fun _ heap => ⟨heap.still alloc (Nat.le_of_eq data.symm), data⟩

theorem call (positive : 4096 ≤ S) (size : Nat) (k : Kernel) : KeepsHeap S image k (kalloc size k).2 where
  log := (keepsTidy_closed.growth.calls.kalloc size k).log
  heap := fun roomy heap => ⟨heap.call positive size roomy,
    Kernel.dataAllocated_congr (kalloc_quiet.core size k heap.early)⟩

theorem path (path : Relation.ReflTransGen (KeepsHeap S image) k k') : KeepsHeap S image k k' := by
  induction path with
  | refl => exact still rfl rfl
  | tail _ step ih => exact ih.trans step

theorem notify (positive : 4096 ≤ S) (path : NotifyPath kalloc k k') : KeepsHeap S image k k' := by
  induction path with
  | refl => exact still rfl rfl
  | tail _ step ih =>
      refine ih.trans ?_
      cases step with
      | table step =>
          cases step with
          | call size => exact call positive size _
          | write => exact still rfl rfl
          | native => exact still rfl rfl
      | appendMap => exact still rfl rfl
      | annotate => exact still rfl rfl

/-- An edit of a region that leaves its allocated size. -/
theorem modifyRegion {change : VmemRegion → VmemRegion}
    (size : (change (k.region r)).allocatedSize = (k.region r).allocatedSize) :
    KeepsHeap S image k (k.modifyRegion r change) := by
  refine still rfl ?_
  have data : (k.modifyRegion r change).core.kernelDataVmemRegion = k.core.kernelDataVmemRegion := rfl
  unfold Kernel.dataAllocated
  rw [data]
  cases k.core.kernelDataVmemRegion with
  | none => rfl
  | some d =>
      by_cases here : d = r
      · subst here
        dsimp only
        rw [Kernel.region_modifyRegion_self, size]
      · dsimp only
        rw [Kernel.region_modifyRegion_of_ne here]

/-- The rest of an association, once the allocated size has moved. -/
theorem associate_rest (positive : 4096 ≤ S) (r paddr : Nat) (k : Kernel) :
    KeepsHeap S image (k.beginAssociate r paddr) (vmemRegionAssocPhysicalAddress kalloc r paddr k).2 := by
  rw [vmemRegionAssocPhysicalAddress_snd]
  have stored : KeepsHeap S image (k.beginAssociate r paddr)
      (linkedlistAppend kalloc (pagesOf r) paddr (k.beginAssociate r paddr)).2 :=
    path (linkedlistAppend_steps (call positive) (pagesOf r) paddr (fun _ => modifyRegion rfl) _)
  exact stored.trans (notify positive (notifyPage_notifyPath r paddr k))

end KeepsHeap

theorem dataAllocated_of_some (isData : k.core.kernelDataVmemRegion = some r) :
    k.dataAllocated = (k.region r).allocatedSize := by
  rw [Kernel.dataAllocated, isData]

/-- One page for the data region. -/
theorem Heap.associate (heap : Heap S image k) (positive : 4096 ≤ S) (isData : k.core.kernelDataVmemRegion = some r)
    (fits : k.dataAllocated + 4096 < 2 ^ 64) (paddr : Nat) {result : Nat × Kernel}
    (isResult : result = vmemRegionAssocPhysicalAddress kalloc r paddr k) (roomy : Roomy result.2.alloc.blocks) :
    Heap S image result.2 ∧ result.2.core.kernelDataVmemRegion = some r ∧
      result.2.dataAllocated = k.dataAllocated + 4096 := by
  have same : (k.beginAssociate r paddr).core.kernelDataVmemRegion = some r := isData
  have begun : (k.beginAssociate r paddr).dataAllocated = k.dataAllocated + 4096 := by
    rw [dataAllocated_of_some isData] at fits ⊢
    rw [dataAllocated_of_some same, region_beginAssociate_self]
    exact wrap_of_lt fits
  have rest : KeepsHeap S image _ _ := KeepsHeap.associate_rest positive r paddr k
  have path : AnyPath kalloc k (vmemRegionAssocPhysicalAddress kalloc r paddr k).2 :=
    associate_path r paddr k
  have data := (kernelData_closed.path kernelData_closed.growth.calls.kalloc path).trans isData
  rw [← isResult] at rest data
  obtain ⟨heap', size⟩ := rest.heap roomy (heap.still rfl (begun ▸ Nat.le_add_right _ _))
  exact ⟨heap', data, size.trans begun⟩

theorem mapPhysicalLoop_heap (positive : 4096 ≤ S) (first count : Nat) : ∀ (paddr returning : Nat) (k : Kernel),
    Heap S image k → k.core.kernelDataVmemRegion = some r → k.dataAllocated + 4096 * count < 2 ^ 64 →
      Roomy (mapPhysicalLoop kalloc r first count paddr returning k).2.alloc.blocks →
        Heap S image (mapPhysicalLoop kalloc r first count paddr returning k).2 := by
  induction count with
  | zero => exact fun _ _ _ heap _ _ _ => heap
  | succ count ih =>
      intro paddr returning k heap isData fits roomy
      have path : AnyPath kalloc k (vmemRegionAssocPhysicalAddress kalloc r paddr k).2 :=
        associate_path r paddr k
      have mode := (kalloc_quiet.along path heap.early).1
      have one : k.dataAllocated + 4096 ≤ k.dataAllocated + 4096 * (count + 1) :=
        Nat.add_le_add_left (Nat.le_mul_of_pos_right 4096 (Nat.succ_pos count)) _
      have page := fun roomy => heap.associate positive isData (Nat.lt_of_le_of_lt one fits) paddr rfl roomy
      unfold mapPhysicalLoop at roomy ⊢
      dsimp only at roomy ⊢
      generalize vmemRegionAssocPhysicalAddress kalloc r paddr k = associated at mode page roomy ⊢
      split
      · rename_i failed
        rw [if_pos failed] at roomy
        exact (page roomy).1
      · rename_i found
        rw [if_neg found] at roomy
        have rest := (kalloc_quiet.along (mapPhysicalLoop_path r first count (Set.mem_univ r)
          (wrap (paddr + systemPageSize)) (if paddr = first then associated.1 else returning)
          (associated.2.modifyRegion r fun region => { region with size := region.allocatedSize })) mode).2
        obtain ⟨heap', data', size'⟩ := page (roomy.of_suffix rest)
        have sized : KeepsHeap S image associated.2 (associated.2.modifyRegion r fun region =>
          { region with size := region.allocatedSize }) := KeepsHeap.modifyRegion rfl
        obtain ⟨heap'', size''⟩ := sized.heap (roomy.of_suffix rest) heap'
        exact ih _ _ _ heap'' data' (by rw [size'', size']; omega) roomy

end BubackOS
