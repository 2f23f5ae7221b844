import BubackOS.Core.Creation
import BubackOS.Core.EarlyAlloc

/-!
# Runs of the vmem services

A run starts with `vmem_initialize` and `vmem_region_initialize` and continues with
the services in any order.
-/

namespace BubackOS

open Library

/-- A call of one of the services. -/
inductive VmemOp where
  | create
  | createRegion (vmem : Option Nat) (name : Option String) (start size : Nat)
      (user writable executable : Bool)
  | resize (region : Option Nat) (newSize : Nat)
  | mapPhysical (region : Option Nat) (physicalStartAddr size : Nat)
  | attach (vmem region : Option Nat)

/-- The state after a call. -/
def VmemOp.run (kalloc : Kalloc) (k : Kernel) : VmemOp → Kernel
  | create => (vmemCreate kalloc k).2
  | createRegion vmem name start size user writable executable =>
      (vmemRegionCreate kalloc vmem name start size user writable executable k).2
  | resize region newSize => (vmemRegionResize kalloc region newSize k).2
  | mapPhysical region physicalStartAddr size =>
      (vmemRegionMapPhysicalAddress kalloc region physicalStartAddr size k).2
  | attach vmem region => (vmemAttach kalloc vmem region k).2

theorem VmemOp.run_create (kalloc : Kalloc) (k : Kernel) : VmemOp.create.run kalloc k = (vmemCreate kalloc k).2 := rfl

/-- The pointers of a call are `NULL` or valid, mapped physical pages are not page `0`, and
no size or address wraps. -/
def VmemOp.Proper (k : Kernel) : VmemOp → Prop
  | create => True
  | createRegion vmem _ start size _ _ _ =>
      ∀ v ∈ vmem, v < k.core.vmems.count ∧ CreateFits k v start size
  | resize region newSize =>
      ∀ r ∈ region, r < k.core.vmemRegions.count ∧ ResizeFits k r newSize
  | mapPhysical region physicalStartAddr size =>
      ∀ r ∈ region, r < k.core.vmemRegions.count ∧ MapFits k r physicalStartAddr size
  | attach vmem region =>
      (∀ v ∈ vmem, v < k.core.vmems.count) ∧ ∀ r ∈ region, r < k.core.vmemRegions.count

/-- The state after `vmem_initialize` and `vmem_region_initialize`. -/
def vmemStart (kalloc : Kalloc) (k : Kernel) : Kernel :=
  vmemRegionInitialize kalloc (vmemInitialize kalloc k)

/-- The states a run of proper calls reaches. -/
inductive Reached (kalloc : Kalloc) (k₀ : Kernel) : Kernel → Prop where
  | start : Reached kalloc k₀ (vmemStart kalloc k₀)
  | step {k : Kernel} {op : VmemOp} (reached : Reached kalloc k₀ k) (proper : op.Proper k) :
      Reached kalloc k₀ (op.run kalloc k)

variable {P : Allocator → Prop} {kalloc : Kalloc} {k k₀ : Kernel} {pmem : Pmem}

/-- A relation that chains and holds for the parts of both initialisations holds for them. -/
theorem vmemStart_steps (R : Kernel → Kernel → Prop) (trans : ∀ {k k' k''}, R k k' → R k' k'' → R k k'')
    (list : ∀ k, R k (linkedlistCreate (α := Nat × Nat) kalloc k).2)
    (vmemIds : ∀ change k, R k (vmemIdMapper.modify change k))
    (regionIds : ∀ change k, R k (vmemRegionMapper.modify change k)) (create : ∀ k, R k (vmemCreate kalloc k).2)
    (setKernel : ∀ v k, R k (k.setKernelVmem v)) (k : Kernel) : R k (vmemStart kalloc k) := by
  have mapper : ∀ (mapper : MapperField), (∀ change k, R k (mapper.modify change k)) →
      ∀ k, R k (idMapperCreate kalloc mapper k) := fun _ edit k => trans (list k) (edit _ _)
  have initialized : R k (vmemInitialize kalloc k) :=
    trans (trans (mapper vmemIdMapper vmemIds k) (create _)) (setKernel _ _)
  exact trans initialized (mapper vmemRegionMapper regionIds _)

/-! ## One step -/

/-- The changes a call makes. -/
theorem VmemOp.path (op : VmemOp) (kalloc : Kalloc) (k : Kernel) : AnyPath kalloc k (op.run kalloc k) := by
  cases op with
  | create => exact vmemCreate_path k (Nat.zero_le _)
  | createRegion =>
      exact vmemRegionCreate_path _ _ _ _ _ _ _ k fun _ _ => ⟨Nat.zero_le _, Set.mem_univ _⟩
  | resize region newSize => exact vmemRegionResize_path region (fun r _ => Set.mem_univ r) newSize k
  | mapPhysical region physicalStartAddr size =>
      exact vmemRegionMapPhysicalAddress_path region (fun r _ => Set.mem_univ r) physicalStartAddr size k
  | attach vmem region => exact vmemAttach_path vmem region k

theorem vmemAttach_refines (quiet : Quiet P kalloc) (mode : P k.alloc) (orderly : Orderly k)
    {vmem region : Option Nat} (knownV : ∀ v ∈ vmem, v < k.core.vmems.count)
    (knownR : ∀ r ∈ region, r < k.core.vmemRegions.count)
    (served : Served (vmemAttach kalloc vmem region k).2.alloc.blocks) :
    Refines P k (vmemAttach kalloc vmem region k).2 := by
  cases vmem with
  | none => exact Refines.refl mode
  | some v =>
      cases region with
      | none => exact Refines.refl mode
      | some r =>
          exact .of_step (vmemAttach_acts quiet mode orderly (knownV v rfl) (knownR r rfl) served).2
            (.attach (knownV v rfl) (knownR r rfl))

/-- A proper call all of whose allocations succeed refines the operations on the lists. -/
theorem VmemOp.refines {op : VmemOp} (quiet : Quiet P kalloc) (mode : P k.alloc) (orderly : Orderly k)
    (proper : op.Proper k) (served : Served (op.run kalloc k).alloc.blocks) :
    Refines P k (op.run kalloc k) := by
  cases op with
  | create => exact vmemCreate_refines quiet mode orderly served
  | createRegion vmem =>
      exact vmemRegionCreate_refines quiet mode orderly (fun v isV => (proper v isV).1)
        (fun v isV => (proper v isV).2) served
  | resize region newSize =>
      exact vmemRegionResize_refines region newSize quiet mode orderly (fun r isR => (proper r isR).1)
        (fun r isR => (proper r isR).2) served
  | mapPhysical region physicalStartAddr size =>
      exact vmemRegionMapPhysicalAddress_refines region physicalStartAddr size quiet mode orderly
        (fun r isR => (proper r isR).1) (fun r isR => (proper r isR).2) served
  | attach vmem region => exact vmemAttach_refines quiet mode orderly proper.1 proper.2 served

/-! ## The start -/

theorem blank_vmem (blank : k.core = Core.blank pmem) (v : Nat) : k.vmem v = Vmem.zero := by
  rw [Kernel.vmem, blank]
  rfl

theorem blank_region (blank : k.core = Core.blank pmem) (r : Nat) : k.region r = VmemRegion.zero := by
  rw [Kernel.region, blank]
  rfl

theorem blank_orderly (blank : k.core = Core.blank pmem) : Orderly k := by
  have vmems : k.core.vmems.count = 0 := by rw [blank]; rfl
  have regions : k.core.vmemRegions.count = 0 := by rw [blank]; rfl
  have noVmem : ∀ v, ¬ v < k.core.vmems.count := fun v bound => by omega
  have noRegion : ∀ r, ¬ r < k.core.vmemRegions.count := fun r bound => by omega
  refine ⟨⟨fun v bound => absurd bound (noVmem v), fun r bound => absurd bound (noRegion r)⟩, ?_,
    ⟨fun r bound => absurd bound (noRegion r), fun r bound => absurd bound (noRegion r),
      fun r bound => absurd bound (noRegion r), fun r bound => absurd bound (noRegion r)⟩⟩
  constructor
  all_goals simp [Kernel.space, blank_vmem blank, blank_region blank, VmemRegion.zero, Vmem.zero,
    LinkedList.items]

theorem blank_mirror (blank : k.core = Core.blank pmem) : Mirror k := by
  have none : ∀ v, v ∉ k.vmemSet := by
    intro v member
    have bound : v < k.core.vmems.count := member
    rw [blank] at bound
    exact Nat.not_lt_zero v bound
  refine ⟨?_, fun v member => absurd member (none v), fun v member => absurd member (none v)⟩
  constructor
  case inLog =>
    rintro a ⟨v, member, -⟩
    exact absurd member (none v)
  case wired => exact fun r member => absurd member (Set.notMem_empty r)
  all_goals exact fun v member => absurd member (none v)

theorem idMapperCreate_acts (mapper : MapperField) (quiet : Quiet P kalloc) (mode : P k.alloc)
    (edit : ∀ {k : Kernel}, P k.alloc → ∀ change, Acts P (fun s => s) k (mapper.modify change k)) :
    Acts P (fun s => s) k (idMapperCreate kalloc mapper k) := by
  have created := linkedlistCreate_moves (α := Nat × Nat) quiet mode
  exact created.trans (edit created.mode _)

/-- The stages of the initialisation: the modes, and the logs of the last two. -/
theorem vmemStart_stages (quiet : Quiet P kalloc) (mode : P k.alloc) :
    P (vmemCreate kalloc (idMapperCreate kalloc vmemIdMapper k)).2.alloc ∧
      Acts P (fun s => s) (vmemInitialize kalloc k) (vmemStart kalloc k) := by
  have ids := (idMapperCreate_acts vmemIdMapper quiet mode Acts.vmemIds).mode
  have created := (quiet.along (vmemCreate_path _ (Nat.zero_le _)) ids).1
  exact ⟨created, idMapperCreate_acts vmemRegionMapper quiet created Acts.regionIds⟩

theorem vmemStart_refines (quiet : Quiet P kalloc) (mode : P k.alloc) (orderly : Orderly k)
    (served : Served (vmemStart kalloc k).alloc.blocks) : Refines P k (vmemStart kalloc k) := by
  obtain ⟨-, regionIds⟩ := vmemStart_stages quiet mode
  have ids : Refines P k (idMapperCreate kalloc vmemIdMapper k) :=
    .of_still (idMapperCreate_acts vmemIdMapper quiet mode Acts.vmemIds)
  have created : Served (vmemCreate kalloc (idMapperCreate kalloc vmemIdMapper k)).2.alloc.blocks :=
    served.of_suffix regionIds.log
  have kernel := ids.trans (vmemCreate_refines quiet ids.mode (ids.orderly orderly) created)
  have initialized := kernel.trans (.of_still (Acts.setKernelVmem kernel.mode
    (vmemCreate kalloc (idMapperCreate kalloc vmemIdMapper k)).1))
  exact initialized.trans (.of_still regionIds)

/-! ## Whole runs -/

theorem Reached.mode (quiet : Quiet P kalloc) (mode : P k₀.alloc) (reached : Reached kalloc k₀ k) :
    P k.alloc := by
  induction reached with
  | start => exact (vmemStart_stages quiet mode).2.mode
  | step _ _ ih => exact (quiet.along (VmemOp.path _ kalloc _) ih).1

/-- A run of successful allocations refines the operations on the lists. -/
theorem Reached.refines (quiet : Quiet P kalloc) (mode : P k₀.alloc) (blank : k₀.core = Core.blank pmem)
    (reached : Reached kalloc k₀ k) : Served k.alloc.blocks → Refines P k₀ k := by
  induction reached with
  | start => exact vmemStart_refines quiet mode (blank_orderly blank)
  | @step k op reached proper ih =>
      intro served
      have before := quiet.served_before (op.path kalloc k) (reached.mode quiet mode) served
      have refines := ih before
      exact refines.trans (VmemOp.refines quiet refines.mode (refines.orderly (blank_orderly blank))
        proper served)

/-- In every state of such a run the five kinds of lists agree. -/
theorem lists_agree (quiet : Quiet P kalloc) (mode : P k₀.alloc) (blank : k₀.core = Core.blank pmem)
    (reached : Reached kalloc k₀ k) (served : Served k.alloc.blocks) :
    (∀ r, (k.region r).allocatedSize = 4096 * (k.region r).pages.items.length ∧
      (k.region r).size ≤ (k.region r).allocatedSize) ∧
    (∀ v r, r ∈ (k.vmem v).regions.items ↔ v ∈ (k.region r).attached.items) ∧
    (∀ v, (k.vmem v).regions.items.Nodup) ∧ (∀ r, (k.region r).attached.items.Nodup) ∧
    ∀ v r, v ∈ (k.region r).attached.items →
      (k.vmem v).map.items.filter (·.region = r) =
        (k.region r).pages.items.mapIdx fun i page =>
          { virtualAddr := (k.region r).start + 4096 * i, physicalAddr := page, region := r } := by
  have orderly := (reached.refines quiet mode blank served).orderly (blank_orderly blank)
  have coherent := orderly.coherent
  exact ⟨fun r => ⟨coherent.allocated r, coherent.size r⟩, coherent.symmetric, coherent.regionsNodup,
    coherent.attachedNodup, coherent.mapped⟩

/-- Two address spaces and a region of two pages, before the initialisation of the allocator. -/
def sampleVmems : Kernel :=
  VmemOp.run BubackOS.kalloc (VmemOp.run BubackOS.kalloc (VmemOp.run BubackOS.kalloc
    (vmemStart BubackOS.kalloc sampleKernel)
    (.createRegion (some 0) (some "heap") 0x200000 8192 false true false)) .create)
    (.attach (some 1) (some 0))

theorem sampleVmems_reached : Reached BubackOS.kalloc sampleKernel sampleVmems := by
  refine .step (.step (.step .start ?_) trivial) ?_
  · rintro v ⟨⟩
    exact ⟨by decide +kernel, ⟨by decide, by decide⟩⟩
  · exact ⟨by rintro v ⟨⟩; decide +kernel, by rintro r ⟨⟩; decide +kernel⟩

theorem lists_agree_sampleVmems :
    (sampleVmems.vmem 1).map.items.filter (·.region = 0) =
      (sampleVmems.region 0).pages.items.mapIdx fun i page =>
        { virtualAddr := (sampleVmems.region 0).start + 4096 * i, physicalAddr := page, region := 0 } := by
  have early : Early sampleKernel.alloc := rfl
  have blank : sampleKernel.core = Core.blank sampleKernel.core.pmem := rfl
  have served : Served sampleVmems.alloc.blocks := by
    unfold Served
    decide +kernel
  exact (lists_agree kalloc_quiet early blank sampleVmems_reached served).2.2.2.2 1 0 (by decide +kernel)

end BubackOS
