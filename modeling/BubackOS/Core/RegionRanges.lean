import BubackOS.Core.RegionGrowth
import BubackOS.Core.ServiceRuns
import Mathlib.Order.CompletePartialOrder
import Mathlib.Order.Interval.Set.Disjoint

/-!
# The ranges of attached regions

No service compares the range of a region with those of the others: an automatic start comes
from a counter, an explicit one from the caller, and a region grows from where it is.  Two
regions of an address space stay apart as long as the callers ask for ranges that are apart.
The kernel data region grows without being asked; it is counted with all the pages physical
memory can still give it.
-/

namespace BubackOS

open Library

/-- The bytes a region has, and for kernel data those it can still get from physical memory. -/
def Kernel.reach (k : Kernel) (r : Nat) : Nat :=
  (k.region r).allocatedSize +
    if k.core.kernelDataVmemRegion = some r then 4096 * k.core.pmem.freePages else 0

/-- The virtual range of a region. -/
def Kernel.range (k : Kernel) (r : Nat) : Set Nat :=
  Set.Ico (k.region r).start ((k.region r).start + (k.region r).allocatedSize)

/-- The virtual range a region can come to have without being grown by a caller. -/
def Kernel.span (k : Kernel) (r : Nat) : Set Nat := Set.Ico (k.region r).start ((k.region r).start + k.reach r)

variable {kalloc : Kalloc} {T : Set Nat} {k k' k'' : Kernel} {v r s : Nat}

/-- Regions stay where they are, and those outside `T` get no pages but kernel data those of physical memory. -/
structure Steady (T : Set Nat) (k k' : Kernel) : Prop where
  data : k'.core.kernelDataVmemRegion = k.core.kernelDataVmemRegion
  regions : k.core.vmemRegions.count ≤ k'.core.vmemRegions.count
  start : ∀ r < k.core.vmemRegions.count, (k'.region r).start = (k.region r).start
  reach : ∀ r < k.core.vmemRegions.count, r ∉ T → k'.reach r ≤ k.reach r

namespace Steady

theorem trans (first : Steady T k k') (second : Steady T k' k'') : Steady T k k'' where
  data := second.data.trans first.data
  regions := first.regions.trans second.regions
  start := fun r known =>
    (second.start r (Nat.lt_of_lt_of_le known first.regions)).trans (first.start r known)
  reach := fun r known spared =>
    (second.reach r (Nat.lt_of_lt_of_le known first.regions) spared).trans (first.reach r known spared)

theorem mono {S : Set Nat} (steady : Steady T k k') (more : T ⊆ S) : Steady S k k' :=
  ⟨steady.data, steady.regions, steady.start,
    fun r known spared => steady.reach r known fun member => spared (more member)⟩

theorem path (path : Relation.ReflTransGen (Steady T) k k') (refl : Steady T k k) : Steady T k k' := by
  induction path with
  | refl => exact refl
  | tail _ step ih => exact ih.trans step

/-- Old regions keep start and allocated size, and no physical page becomes free. -/
theorem of_sizes (data : k'.core.kernelDataVmemRegion = k.core.kernelDataVmemRegion)
    (regions : k.core.vmemRegions.count ≤ k'.core.vmemRegions.count)
    (free : k'.core.pmem.freePages ≤ k.core.pmem.freePages)
    (start : ∀ r < k.core.vmemRegions.count, (k'.region r).start = (k.region r).start)
    (size : ∀ r < k.core.vmemRegions.count, (k'.region r).allocatedSize = (k.region r).allocatedSize) :
    Steady T k k' := by
  refine ⟨data, regions, start, fun r known _ => ?_⟩
  unfold Kernel.reach
  rw [data, size r known]
  split <;> omega

theorem of_core (core : k'.core = k.core) : Steady T k k' := by
  refine of_sizes (by rw [core]) (by rw [core]) (by rw [core]) (fun r _ => ?_) (fun r _ => ?_)
  all_goals rw [Kernel.region, Kernel.region, core]

theorem refl (k : Kernel) : Steady T k k := of_core rfl

theorem of_regions (data : k'.core.kernelDataVmemRegion = k.core.kernelDataVmemRegion)
    (regions : k'.core.vmemRegions = k.core.vmemRegions) (pmem : k'.core.pmem = k.core.pmem) : Steady T k k' := by
  refine of_sizes data (by rw [regions]) (by rw [pmem]) (fun r _ => ?_) (fun r _ => ?_)
  all_goals rw [Kernel.region, Kernel.region, regions]

theorem modifyRegion {change : VmemRegion → VmemRegion} (start : (change (k.region s)).start = (k.region s).start)
    (size : (change (k.region s)).allocatedSize = (k.region s).allocatedSize) :
    Steady T k (k.modifyRegion s change) := by
  refine of_sizes rfl (Nat.le_refl _) (Nat.le_refl _) (fun r _ => ?_) (fun r _ => ?_)
  all_goals
    by_cases here : r = s
    · subst here
      rw [Kernel.region_modifyRegion_self]
      assumption
    · rw [Kernel.region_modifyRegion_of_ne here]

theorem newRegion (object : VmemRegion) (k : Kernel) : Steady T k (k.newRegion object) := by
  have same : ∀ r < k.core.vmemRegions.count, (k.newRegion object).region r = k.region r :=
    fun r known => Store.new_get_of_ne (Nat.ne_of_lt known)
  exact of_sizes rfl (Nat.le_succ _) (Nat.le_refl _) (fun r known => by rw [same r known])
    (fun r known => by rw [same r known])

theorem pmemAllocate (k : Kernel) : Steady T k (pmemAllocate k).2 := by
  refine of_sizes (Frame.pmemAllocate k).kernelData (Nat.le_of_eq (Frame.pmemAllocate k).vmemRegions.symm) ?_
    (fun r _ => by rw [region_pmemAllocate]) (fun r _ => by rw [region_pmemAllocate])
  exact pmemAllocate_cases (P := fun k' => k'.core.pmem.freePages ≤ k.core.pmem.freePages)
    k.core.pmem.allocate_freePages_le k.core.pmem.allocate_freePages_le

/-- The region that gets a page is in `T`. -/
theorem beginAssociate (target : r ∈ T) (paddr : Nat) (k : Kernel) : Steady T k (k.beginAssociate r paddr) := by
  refine ⟨rfl, Nat.le_refl _, fun s _ => ?_, fun s _ spared => ?_⟩
  · by_cases here : s = r
    · rw [here, region_beginAssociate_self]
    · rw [region_beginAssociate_of_ne paddr k here]
  · have other : s ≠ r := fun here => spared (here ▸ target)
    unfold Kernel.reach
    rw [region_beginAssociate_of_ne paddr k other]
    exact Nat.le_refl _

theorem reach_beginAssociate (r paddr : Nat) (k : Kernel) : (k.beginAssociate r paddr).reach r ≤ k.reach r + 4096 := by
  have size : wrap ((k.region r).allocatedSize + systemPageSize) ≤ (k.region r).allocatedSize + 4096 :=
    Nat.mod_le _ _
  have data : (k.beginAssociate r paddr).core.kernelDataVmemRegion = k.core.kernelDataVmemRegion := rfl
  have pmem : (k.beginAssociate r paddr).core.pmem = k.core.pmem := rfl
  unfold Kernel.reach
  rw [region_beginAssociate_self, data, pmem]
  dsimp only
  omega

/-- A page of physical memory for kernel data was counted before. -/
theorem grow (isData : k.core.kernelDataVmemRegion = some r) (found : (BubackOS.pmemAllocate k).1 ≠ 0) :
    Steady T k ((BubackOS.pmemAllocate k).2.beginAssociate r (BubackOS.pmemAllocate k).1) := by
  have spent := grow_freePages r (BubackOS.pmemAllocate k).1 found
  have before : Steady {r} k ((BubackOS.pmemAllocate k).2.beginAssociate r (BubackOS.pmemAllocate k).1) :=
    (pmemAllocate k).trans (beginAssociate (Set.mem_singleton r) _ _)
  refine ⟨before.data, before.regions, before.start, fun s known _ => ?_⟩
  by_cases here : s = r
  · subst here
    have size : wrap ((k.region s).allocatedSize + systemPageSize) ≤ (k.region s).allocatedSize + 4096 :=
      Nat.mod_le _ _
    unfold Kernel.reach
    rw [before.data, if_pos isData, if_pos isData, region_beginAssociate_self, region_pmemAllocate]
    dsimp only
    omega
  · exact before.reach s known here

theorem notifyStep (calls : ∀ size, Steady T k (kalloc size k).2) (step : NotifyStep kalloc k k') : Steady T k k' := by
  cases step with
  | table step =>
      cases step with
      | call size => exact calls size
      | write => exact of_core rfl
      | native => exact of_regions rfl rfl rfl
  | appendMap => exact of_regions rfl rfl rfl
  | annotate => exact of_regions rfl rfl rfl

theorem growthStep (calls : ∀ size, Steady T k (kalloc size k).2) (step : GrowthStep kalloc T k k') :
    Steady T k k' := by
  cases step with
  | notify step => exact notifyStep calls step
  | appendPage => exact modifyRegion rfl rfl
  | associate paddr target => exact beginAssociate target paddr k
  | grow _ target => exact (pmemAllocate k).trans (beginAssociate target _ _)
  | exhaust => exact pmemAllocate k
  | declare => exact modifyRegion rfl rfl

theorem recordStep {N M : Nat} (calls : ∀ size, Steady T k (kalloc size k).2) (step : RecordStep kalloc N M k k') :
    Steady T k k' := by
  cases step with
  | table step => exact notifyStep calls (.table step)
  | appendAttached => exact modifyRegion rfl rfl
  | detach v r =>
      have unlisted : Steady T k (linkedlistRemoveElement (regionsOf v) r k) := of_regions rfl rfl rfl
      exact unlisted.trans (modifyRegion rfl rfl)
  | newRegion => exact newRegion _ k
  | setPages => exact modifyRegion rfl rfl
  | setAttached => exact modifyRegion rfl rfl
  | setRegionId => exact modifyRegion rfl rfl
  | _ => exact of_regions rfl rfl rfl

section Calls

variable (calls : ∀ size k, Steady T k (kalloc size k).2)

include calls

theorem table (path : TablePath kalloc k k') : Steady T k k' := by
  induction path with
  | refl => exact refl k
  | tail _ step ih =>
      refine ih.trans ?_
      cases step with
      | call size => exact calls size _
      | write => exact of_core rfl
      | native => exact of_regions rfl rfl rfl

theorem notify (path : NotifyPath kalloc k k') : Steady T k k' := by
  induction path with
  | refl => exact refl k
  | tail _ step ih => exact ih.trans (notifyStep (fun size => calls size _) step)

theorem growth (path : GrowthPath kalloc T k k') : Steady T k k' := by
  induction path with
  | refl => exact refl k
  | tail _ step ih => exact ih.trans (growthStep (fun size => calls size _) step)

/-- The rest of an association, once the allocated size has moved. -/
theorem associate_rest (r paddr : Nat) (k : Kernel) :
    Steady T (k.beginAssociate r paddr) (vmemRegionAssocPhysicalAddress kalloc r paddr k).2 := by
  rw [vmemRegionAssocPhysicalAddress_snd]
  have stored : Steady T (k.beginAssociate r paddr)
      (linkedlistAppend kalloc (pagesOf r) paddr (k.beginAssociate r paddr)).2 :=
    path (linkedlistAppend_steps calls (pagesOf r) paddr (fun _ => modifyRegion rfl rfl) _) (refl _)
  exact stored.trans (notify calls (notifyPage_notifyPath r paddr k))

/-- The loop on kernel data. -/
theorem resizeLoop_data (count : Nat) : ∀ k : Kernel, k.core.kernelDataVmemRegion = some r →
    Steady T k (resizeLoop kalloc r count k).2 := by
  induction count with
  | zero => exact fun k _ => refl k
  | succ count ih =>
      intro k isData
      unfold resizeLoop
      dsimp only
      split
      · exact pmemAllocate k
      · rename_i found
        have page := (grow isData found).trans (associate_rest calls r (BubackOS.pmemAllocate k).1 _)
        exact page.trans (ih _ (page.data.trans isData))

theorem resize_data (isData : k.core.kernelDataVmemRegion = some r) (newSize : Nat) :
    Steady T k (vmemRegionResize kalloc (some r) newSize k).2 := by
  have adopt : ∀ k : Kernel, Steady T k (k.modifyRegion r (adoptSize newSize)) := by
    intro k
    rw [adoptSize_eq]
    exact modifyRegion rfl rfl
  rw [vmemRegionResize_eq]
  split
  · have declared : Steady T k (k.modifyRegion r fun region => { region with size := newSize }) := modifyRegion rfl rfl
    exact declared.trans (adopt _)
  · exact (resizeLoop_data calls _ k isData).trans (adopt _)

end Calls

end Steady

theorem steady_closed : CallClosed (Steady ∅) where
  toHeapClosed := .of_core Steady.trans Steady.of_core
  resize := fun _ calls _ _ isData newSize => Steady.resize_data calls isData newSize

theorem kalloc_steady (size : Nat) (k : Kernel) : Steady T k (BubackOS.kalloc size k).2 :=
  (steady_closed.kalloc size k).mono (Set.empty_subset T)

/-- What the parts of the services keep. -/
theorem steady_composed (calls : ∀ size k, Steady T k (kalloc size k).2) : Composed kalloc 0 0 T (Steady T) where
  refl := Steady.refl
  trans := Steady.trans
  record := fun step => Steady.recordStep (fun size => calls size _) step
  replay := fun v r k => Steady.notify calls (replayPages_notifyPath v r k)
  resize := fun {r} target newSize k => Steady.growth calls
    (vmemRegionResize_growthPath (some r) (fun _ isR => Option.mem_some.mp isR ▸ target) newSize k)

/-! ## The region an operation is about -/

theorem associate_reach (known : r < k.core.vmemRegions.count) (paddr : Nat) :
    (vmemRegionAssocPhysicalAddress BubackOS.kalloc r paddr k).2.reach r ≤ k.reach r + 4096 := by
  have rest : Steady ∅ _ _ := Steady.associate_rest kalloc_steady r paddr k
  exact (rest.reach r known (Set.notMem_empty r)).trans (Steady.reach_beginAssociate r paddr k)

theorem associate_count (r paddr : Nat) (k : Kernel) : k.core.vmemRegions.count ≤
    (vmemRegionAssocPhysicalAddress BubackOS.kalloc r paddr k).2.core.vmemRegions.count := by
  have rest : Steady ∅ _ _ := Steady.associate_rest kalloc_steady r paddr k
  exact rest.regions

theorem mapPhysicalLoop_reach (start count : Nat) : ∀ {k : Kernel} (paddr returning : Nat),
    r < k.core.vmemRegions.count →
      (mapPhysicalLoop BubackOS.kalloc r start count paddr returning k).2.reach r ≤ k.reach r + 4096 * count := by
  induction count with
  | zero => exact fun _ _ _ => Nat.le_refl _
  | succ count ih =>
      intro k paddr returning known
      have page := associate_reach known paddr
      have more := associate_count r paddr k
      unfold mapPhysicalLoop
      dsimp only
      generalize vmemRegionAssocPhysicalAddress BubackOS.kalloc r paddr k = associated at page more ⊢
      have first : k.reach r + 4096 ≤ k.reach r + 4096 * (count + 1) :=
        Nat.add_le_add_left (Nat.le_mul_of_pos_right 4096 (Nat.succ_pos count)) _
      split
      · exact page.trans first
      · have sized : Steady ∅ associated.2 (associated.2.modifyRegion r fun region =>
            { region with size := region.allocatedSize }) := Steady.modifyRegion rfl rfl
        have same := sized.reach r (Nat.lt_of_lt_of_le known more) (Set.notMem_empty r)
        have rest := ih (wrap (paddr + systemPageSize)) (if paddr = start then associated.1 else returning)
          (Nat.lt_of_lt_of_le known (more.trans sized.regions))
        have total : k.reach r + 4096 + 4096 * count = k.reach r + 4096 * (count + 1) := by
          clear rest same sized page
          omega
        rw [← total]
        exact rest.trans (Nat.add_le_add_right (same.trans page) _)

theorem resizeLoop_reach (count : Nat) : ∀ {k : Kernel}, r < k.core.vmemRegions.count →
    (resizeLoop BubackOS.kalloc r count k).2.reach r ≤ k.reach r + 4096 * count := by
  induction count with
  | zero => exact fun _ => Nat.le_refl _
  | succ count ih =>
      intro k known
      have found : Steady ∅ k (pmemAllocate k).2 := Steady.pmemAllocate k
      have before := found.reach r known (Set.notMem_empty r)
      have known' := Nat.lt_of_lt_of_le known found.regions
      unfold resizeLoop
      dsimp only
      generalize pmemAllocate k = page at before known' ⊢
      split
      · exact before.trans (Nat.le_add_right _ _)
      · have here := associate_reach known' page.1
        have rest := ih (Nat.lt_of_lt_of_le known' (associate_count r page.1 page.2))
        have total : k.reach r + 4096 + 4096 * count = k.reach r + 4096 * (count + 1) := by
          clear rest here before
          omega
        rw [← total]
        exact rest.trans (Nat.add_le_add_right (here.trans (Nat.add_le_add_right before _)) _)

/-- After a resize a region has what it had or what was asked for. -/
theorem resize_reach (known : r < k.core.vmemRegions.count) (newSize : Nat) :
    (vmemRegionResize BubackOS.kalloc (some r) newSize k).2.reach r ≤
      max (k.reach r) (alignNext newSize systemPageSize) := by
  by_cases isData : k.core.kernelDataVmemRegion = some r
  · have steady : Steady ∅ _ _ := Steady.resize_data kalloc_steady isData newSize
    exact (steady.reach r known (Set.notMem_empty r)).trans (Nat.le_max_left _ _)
  · have adopt : ∀ k : Kernel, Steady ∅ k (k.modifyRegion r (adoptSize newSize)) := by
      intro k
      rw [adoptSize_eq]
      exact Steady.modifyRegion rfl rfl
    have only : k.reach r = (k.region r).allocatedSize := by
      unfold Kernel.reach
      rw [if_neg isData]
      rfl
    rw [vmemRegionResize_eq]
    split
    · have declared : Steady ∅ k (k.modifyRegion r fun region => { region with size := newSize }) :=
        Steady.modifyRegion rfl rfl
      exact ((declared.trans (adopt _)).reach r known (Set.notMem_empty r)).trans (Nat.le_max_left _ _)
    · rename_i large
      have fits := missingPages_fits large
      have pages := resizeLoop_reach (missingPages newSize (k.region r)) known
      have loop : Steady {r} k (resizeLoop BubackOS.kalloc r (missingPages newSize (k.region r)) k).2 :=
        Steady.growth kalloc_steady (resizeLoop_growthPath r _ (Set.mem_singleton r) k)
      have last := (adopt (resizeLoop BubackOS.kalloc r (missingPages newSize (k.region r)) k).2).reach r
        (Nat.lt_of_lt_of_le known loop.regions) (Set.notMem_empty r)
      dsimp only
      omega

/-- After a mapping a region has what it had and what was mapped. -/
theorem mapPhysical_reach (known : r < k.core.vmemRegions.count) (paddr size : Nat) :
    (vmemRegionMapPhysicalAddress BubackOS.kalloc (some r) paddr size k).2.reach r ≤ k.reach r + size := by
  unfold vmemRegionMapPhysicalAddress
  dsimp only
  split
  · exact Nat.le_add_right _ _
  · have loop := mapPhysicalLoop_reach paddr (size / systemPageSize) paddr 0 known
    have pages : 4096 * (size / systemPageSize) ≤ size := Nat.mul_div_le size 4096
    omega

/-! ## A new region -/

/-- Kernel data is a region that exists. -/
def DataKnown (k : Kernel) : Prop := ∀ d ∈ k.core.kernelDataVmemRegion, d < k.core.vmemRegions.count

theorem Steady.dataKnown (steady : Steady T k k') (known : DataKnown k) : DataKnown k' := by
  intro d isData
  rw [steady.data] at isData
  exact Nat.lt_of_lt_of_le (known d isData) steady.regions

/-- A region without pages, where it was put. -/
structure Begun (n start : Nat) (k : Kernel) : Prop where
  known : n < k.core.vmemRegions.count
  place : (k.region n).start = start
  reach : k.reach n = 0

theorem Begun.of_steady {start n : Nat} (begun : Begun n start k) (steady : Steady ∅ k k') : Begun n start k' where
  known := Nat.lt_of_lt_of_le begun.known steady.regions
  place := (steady.start n begun.known).trans begun.place
  reach := Nat.eq_zero_of_le_zero (begun.reach ▸ steady.reach n begun.known (Set.notMem_empty n))

theorem Begun.newRegion (known : DataKnown k) (object : VmemRegion) {start : Nat} (place : object.start = start)
    (empty : object.allocatedSize = 0) : Begun k.core.vmemRegions.count start (k.newRegion object) := by
  have made : (k.newRegion object).region k.core.vmemRegions.count = object := Store.new_get_self _ _
  have notData : ¬ (k.newRegion object).core.kernelDataVmemRegion = some k.core.vmemRegions.count :=
    fun isData => Nat.lt_irrefl _ (known _ isData)
  refine ⟨Nat.lt_succ_self _, by rw [made, place], ?_⟩
  unfold Kernel.reach
  rw [made, if_neg notData, empty]

theorem regionRecord_begun (known : DataKnown k) (name : String) (start : Nat) (user writable executable : Bool) :
    Begun k.core.vmemRegions.count start (regionRecord BubackOS.kalloc name start user writable executable k) := by
  have lists : ∀ k : Kernel, Steady ∅ k (linkedlistCreate (α := Nat) BubackOS.kalloc k).2 := fun k =>
    Steady.notify kalloc_steady (linkedlistCreate_mapPath k).notify
  unfold regionRecord
  dsimp only
  refine Begun.of_steady ?_ (Steady.modifyRegion rfl rfl)
  refine Begun.of_steady ?_ (lists _)
  refine Begun.of_steady ?_ (Steady.modifyRegion rfl rfl)
  refine Begun.of_steady ?_ (lists _)
  exact Begun.newRegion known _ rfl rfl

theorem openRegion_begun (known : DataKnown k) (v : Nat) (name : String) (start : Nat) (user writable executable : Bool)
    {opened : Option Nat × Kernel} (isOpened : opened = openRegion BubackOS.kalloc v name start user writable executable k)
    (exists' : k.core.vmemRegions.count < opened.2.core.vmemRegions.count) :
    Begun k.core.vmemRegions.count start opened.2 := by
  obtain ⟨object, isObject⟩ : ∃ object, object = BubackOS.kalloc sizeofVmemRegion k := ⟨_, rfl⟩
  have called : Frame k object.2 := isObject ▸ kalloc_tame.frame sizeofVmemRegion k trivial
  have known' : DataKnown object.2 := by
    intro d isData
    rw [called.kernelData] at isData
    rw [called.vmemRegions]
    exact known d isData
  have begun := (regionRecord_begun known' name start user writable executable).of_steady
    ((steady_composed (T := ∅) kalloc_steady).attach (some v) (some object.2.core.vmemRegions.count) _)
  rw [isOpened] at exists' ⊢
  rcases @openRegion_cases BubackOS.kalloc k v name start user writable executable object isObject _ rfl with
    ⟨-, result⟩ | ⟨-, ⟨-, result⟩ | ⟨-, result⟩⟩
  · rw [result] at exists'
    exact absurd exists' (Nat.not_lt_of_le (Nat.le_of_eq called.vmemRegions))
  all_goals
    rw [result, ← called.vmemRegions]
    exact begun

theorem Begun.finishRegion {start : Nat} (begun : Begun r start k) (size : Nat) :
    ((finishRegion BubackOS.kalloc r size k).2.region r).start = start ∧
      (finishRegion BubackOS.kalloc r size k).2.reach r ≤ alignNext size systemPageSize := by
  have loop : Steady {r} k (vmemRegionResize BubackOS.kalloc (some r) size k).2 :=
    (steady_composed kalloc_steady).resize (Set.mem_singleton r) size k
  have place := (loop.start r begun.known).trans begun.place
  have grown := resize_reach begun.known size
  rw [begun.reach, Nat.zero_max] at grown
  have known := Nat.lt_of_lt_of_le begun.known loop.regions
  unfold BubackOS.finishRegion
  dsimp only
  generalize vmemRegionResize BubackOS.kalloc (some r) size k = resized at place grown known ⊢
  have named : ∀ id, Steady ∅ resized.2 ((idMapperAdd BubackOS.kalloc vmemRegionMapper r resized.2).2.modifyRegion r
      fun region => { region with vmemRegionId := id }) := fun id =>
    (steady_composed kalloc_steady).records
      ((RecordPath.idMapperAdd (fun change k => .regionIds change k) r resized.2).tail (.setRegionId r id _))
  have last := fun id => And.intro (((named id).start r known).trans place)
    (((named id).reach r known (Set.notMem_empty r)).trans grown)
  split
  · split <;> exact last _
  · exact ⟨place, grown⟩

/-- The new region is where it was put and has what was asked for. -/
theorem createRegion_new (known : DataKnown k) (v : Nat) (name : String) (start size : Nat)
    (user writable executable : Bool) {result : Option Nat × Kernel}
    (isResult : result = vmemRegionCreate BubackOS.kalloc (some v) (some name) start size user writable executable k)
    (exists' : k.core.vmemRegions.count < result.2.core.vmemRegions.count) :
    (result.2.region k.core.vmemRegions.count).start = (placeRegion v start k).1 ∧
      result.2.reach k.core.vmemRegions.count ≤ alignNext size systemPageSize := by
  obtain ⟨placed, isPlaced⟩ : ∃ placed, placed = placeRegion v start k := ⟨_, rfl⟩
  obtain ⟨opened, isOpened⟩ : ∃ opened, opened =
    openRegion BubackOS.kalloc v name placed.1 user writable executable placed.2 := ⟨_, rfl⟩
  have frame : Frame k placed.2 := isPlaced ▸ placeRegion_frame v start k
  have known' : DataKnown placed.2 := by
    intro d isData
    rw [frame.kernelData] at isData
    rw [frame.vmemRegions]
    exact known d isData
  have begun := openRegion_begun known' v name placed.1 user writable executable isOpened
  rw [frame.vmemRegions] at begun
  rw [← isPlaced]
  rcases vmemRegionCreate_cases isPlaced isOpened with ⟨-, outcome⟩ | ⟨-, ⟨-, outcome⟩ | ⟨r, isRegion, outcome⟩⟩
  · rw [isResult, outcome] at exists'
    exact absurd exists' (Nat.not_lt_of_le (Nat.le_of_eq frame.vmemRegions))
  · rw [isResult, outcome] at exists' ⊢
    have new := begun exists'
    exact ⟨new.place, new.reach ▸ Nat.zero_le _⟩
  · have isNew : r = k.core.vmemRegions.count := by
      rw [isOpened] at isRegion
      rw [openRegion_some isRegion, (kalloc_tame.frame sizeofVmemRegion placed.2 trivial).vmemRegions,
        frame.vmemRegions]
    rw [isResult, outcome] at exists' ⊢
    rw [(finishRegion_frame kalloc_tame trivial r size rfl).2.1.vmemRegions] at exists'
    rw [isNew]
    exact (begun exists').finishRegion size

/-! ## One call -/

/-- Any two regions of an address space are apart, kernel data with all it can get. -/
def SpansApart (k : Kernel) : Prop :=
  ∀ v, ∀ r ∈ (k.vmem v).regions.items, ∀ s ∈ (k.vmem v).regions.items, r ≠ s → Disjoint (k.span r) (k.span s)

/-- What a call asks for is apart from the regions of the address spaces it is asked for in. -/
def VmemOp.Clear (k : Kernel) : VmemOp → Prop
  | create => True
  | createRegion vmem _ start size _ _ _ =>
      ∀ v ∈ vmem, ∀ s ∈ (k.vmem v).regions.items,
        Disjoint (Set.Ico (placeRegion v start k).1 ((placeRegion v start k).1 + alignNext size systemPageSize)) (k.span s)
  | resize region newSize =>
      ∀ r ∈ region, ∀ v, r ∈ (k.vmem v).regions.items → ∀ s ∈ (k.vmem v).regions.items, s ≠ r →
        Disjoint (Set.Ico (k.region r).start
          ((k.region r).start + max (k.reach r) (alignNext newSize systemPageSize))) (k.span s)
  | mapPhysical region _ size =>
      ∀ r ∈ region, ∀ v, r ∈ (k.vmem v).regions.items → ∀ s ∈ (k.vmem v).regions.items, s ≠ r →
        Disjoint (Set.Ico (k.region r).start ((k.region r).start + (k.reach r + size))) (k.span s)
  | attach vmem region =>
      ∀ v ∈ vmem, ∀ r ∈ region, ∀ s ∈ (k.vmem v).regions.items, s ≠ r → Disjoint (k.span r) (k.span s)

theorem span_subset {bound : Nat} (start : (k'.region r).start = (k.region r).start) (reach : k'.reach r ≤ bound) :
    k'.span r ⊆ Set.Ico (k.region r).start ((k.region r).start + bound) := by
  unfold Kernel.span
  rw [start]
  exact Set.Ico_subset_Ico_right (Nat.add_le_add_left reach _)

theorem Steady.span (steady : Steady T k k') (known : r < k.core.vmemRegions.count) (spared : r ∉ T) :
    k'.span r ⊆ k.span r := span_subset (steady.start r known) (steady.reach r known spared)

/-- Every region but one has less than before, and that one is apart from the others. -/
theorem SpansApart.retarget (apart : SpansApart k) (t : Nat)
    (links : ∀ w, ∃ w₀, ∀ r ∈ (k'.vmem w).regions.items, r ≠ t → r ∈ (k.vmem w₀).regions.items)
    (shrinks : ∀ w, ∀ r ∈ (k'.vmem w).regions.items, r ≠ t → k'.span r ⊆ k.span r)
    (target : ∀ w, t ∈ (k'.vmem w).regions.items → ∀ s ∈ (k'.vmem w).regions.items, s ≠ t →
      Disjoint (k'.span t) (k.span s)) : SpansApart k' := by
  intro w r member s member' different
  by_cases isR : r = t
  · subst isR
    exact (target w member s member' (Ne.symm different)).mono_right (shrinks w s member' (Ne.symm different))
  by_cases isS : s = t
  · subst isS
    exact ((target w member' r member isR).mono_right (shrinks w r member isR)).symm
  obtain ⟨w₀, before⟩ := links w
  exact (apart w₀ r (before r member isR) s (before s member' isS) different).mono (shrinks w r member isR)
    (shrinks w s member' isS)

/-- No region is attached or grown by a caller. -/
theorem SpansApart.steady (apart : SpansApart k) (linked : k.space.Linked) (steady : Steady ∅ k k')
    (links : ∀ w, ∃ w₀, ∀ r ∈ (k'.vmem w).regions.items, r ∈ (k.vmem w₀).regions.items) : SpansApart k' := by
  intro w r member s member' different
  obtain ⟨w₀, before⟩ := links w
  have shrinks : ∀ r ∈ (k'.vmem w).regions.items, k'.span r ⊆ k.span r := fun r member =>
    steady.span (linked.known w₀ r (before r member)).2 (Set.notMem_empty r)
  exact (apart w₀ r (before r member) s (before s member') different).mono (shrinks r member) (shrinks s member')

theorem Relinks.mem_regions {f : Space → Space} (relinks : Relinks f k k') (w s : Nat) :
    s ∈ (k'.vmem w).regions.items ↔ s ∈ (f k.space).regions w :=
  Iff.of_eq (congrArg (s ∈ ·) (congrFun relinks.links.regions w))

theorem SpansApart.call (apart : SpansApart k) (linked : k.space.Linked) (size : Nat) :
    SpansApart (BubackOS.kalloc size k).2 := by
  refine apart.steady linked (kalloc_steady size k) fun w => ⟨w, fun r member => ?_⟩
  rw [(kalloc_tame.frame size k trivial).regions] at member
  exact member

/-- A region that grows. -/
theorem SpansApart.grows (apart : SpansApart k) (linked : k.space.Linked) (frame : Frame k k') (steady : Steady {r} k k')
    {bound : Nat} (reach : r < k.core.vmemRegions.count → k'.reach r ≤ bound)
    (clear : ∀ v, r ∈ (k.vmem v).regions.items → ∀ s ∈ (k.vmem v).regions.items, s ≠ r →
      Disjoint (Set.Ico (k.region r).start ((k.region r).start + bound)) (k.span s)) : SpansApart k' := by
  refine apart.retarget r (fun w => ⟨w, fun s member _ => ?_⟩) (fun w s member other => ?_)
    (fun w member s member' other => ?_)
  · rw [frame.regions] at member
    exact member
  · rw [frame.regions] at member
    exact steady.span (linked.known w s member).2 other
  · rw [frame.regions] at member member'
    have known := (linked.known w r member).2
    exact (clear w member s member' other).mono_left (span_subset (steady.start r known) (reach known))

theorem SpansApart.attach (apart : SpansApart k) (linked : k.space.Linked)
    (clear : ∀ s ∈ (k.vmem v).regions.items, s ≠ r → Disjoint (k.span r) (k.span s))
    (knownR : r < k.core.vmemRegions.count) : SpansApart (vmemAttach BubackOS.kalloc (some v) (some r) k).2 := by
  have steady := (steady_composed (T := ∅) kalloc_steady).attach (some v) (some r) k
  obtain ⟨-, result⟩ := vmemAttach_relinks kalloc_tame trivial linked.symmetric v r
  rcases result with ⟨-, relinks⟩ | ⟨-, relinks⟩
  · have member : ∀ w s, s ∈ ((vmemAttach BubackOS.kalloc (some v) (some r) k).2.vmem w).regions.items ↔
        s ∈ (k.vmem w).regions.items ∨ w = v ∧ s = r :=
      fun w s => (relinks.mem_regions w s).trans (Space.mem_attach k.space v r w s)
    refine apart.retarget r (fun w => ⟨w, fun s linked other => ?_⟩) (fun w s linked' other => ?_)
      (fun w member' s linked' other => ?_)
    · exact ((member w s).mp linked).resolve_right fun isR => other isR.2
    · have before := ((member w s).mp linked').resolve_right fun isR => other isR.2
      exact steady.span (linked.known w s before).2 (Set.notMem_empty s)
    · have before := ((member w s).mp linked').resolve_right fun isR => other isR.2
      refine Disjoint.mono_left (steady.span knownR (Set.notMem_empty r)) ?_
      rcases (member w r).mp member' with already | ⟨rfl, -⟩
      · exact apart w r already s before (Ne.symm other)
      · exact clear s before other
  · exact apart.steady linked steady fun w => ⟨w, fun s member => (relinks.mem_regions w s).mp member⟩

/-- A new address space has regions of the kernel's. -/
theorem SpansApart.create (apart : SpansApart k) (linked : k.space.Linked) (kernel : KernelKnown k) :
    SpansApart (vmemCreate BubackOS.kalloc k).2 := by
  have steady : Steady ∅ k (vmemCreate BubackOS.kalloc k).2 :=
    (steady_composed (T := ∅) kalloc_steady).create k (Nat.zero_le _)
    fun k' => Steady.table kalloc_steady (nativeVmemCreate_tablePath _ k')
  obtain ⟨-, result⟩ := vmemCreate_relinks kalloc_tame trivial linked kernel
  rcases result with ⟨-, relinks, -⟩ | ⟨done, some, -, relinks, -⟩
  · exact apart.steady linked steady fun w => ⟨w, fun s member => (relinks.mem_regions w s).mp member⟩
  · refine apart.steady linked steady fun w => ?_
    have member : ∀ s, s ∈ ((vmemCreate BubackOS.kalloc k).2.vmem w).regions.items →
        s ∈ k.space.newVmem.regions w ∨ w = k.core.vmems.count ∧ s ∈ done := fun s here =>
      (Space.mem_attachAll _ _ w s _).mp ((relinks.mem_regions w s).mp here)
    by_cases isNew : w = k.core.vmems.count
    · have inKernel : ∀ s ∈ ((vmemCreate BubackOS.kalloc k).2.vmem w).regions.items, s ∈ k.kernelRegions := by
        intro s here
        rcases member s here with old | ⟨-, new⟩
        · rw [isNew] at old
          have empty : k.space.newVmem.regions k.core.vmems.count = [] := Function.update_self _ _ _
          rw [empty] at old
          exact absurd old List.not_mem_nil
        · exact some.subset new
      unfold Kernel.kernelRegions at inKernel
      cases isKernel : k.core.kernelVmem with
      | none =>
          rw [isKernel] at inKernel
          exact ⟨w, fun s here => absurd (inKernel s here) List.not_mem_nil⟩
      | some w₀ =>
          rw [isKernel] at inKernel
          exact ⟨w₀, inKernel⟩
    · refine ⟨w, fun s here => ?_⟩
      rcases member s here with old | ⟨new, -⟩
      · have same : k.space.newVmem.regions w = k.space.regions w := Function.update_of_ne isNew _ _
        rw [same] at old
        exact old
      · exact absurd new isNew

/-- A new region is apart from the others of its address space. -/
theorem SpansApart.createRegion (apart : SpansApart k) (linked : k.space.Linked) (known : DataKnown k) (name : String)
    (start size : Nat) (user writable executable : Bool)
    (clear : ∀ s ∈ (k.vmem v).regions.items, Disjoint (Set.Ico (placeRegion v start k).1
      ((placeRegion v start k).1 + alignNext size systemPageSize)) (k.span s)) :
    SpansApart (vmemRegionCreate BubackOS.kalloc (some v) (some name) start size user writable executable k).2 := by
  obtain ⟨result, isResult⟩ : ∃ result, result =
      vmemRegionCreate BubackOS.kalloc (some v) (some name) start size user writable executable k := ⟨_, rfl⟩
  have steady : Steady {n | k.core.vmemRegions.count ≤ n} k result.2 := by
    rw [isResult]
    refine (steady_composed kalloc_steady).createRegion (some v) (some name) start size user writable executable k
      fun k' same => ⟨Nat.zero_le _, ?_⟩
    have count := (kalloc_tame.frame sizeofVmemRegion k' trivial).vmemRegions
    rw [same] at count
    exact Nat.le_of_eq count.symm
  have old : ∀ w s, s ∈ (k.vmem w).regions.items → result.2.span s ⊆ k.span s := fun w s member =>
    steady.span (linked.known w s member).2 (Nat.not_le_of_lt (linked.known w s member).2)
  obtain ⟨-, links⟩ := vmemRegionCreate_relinks kalloc_tame trivial linked v name start size user writable executable
    isResult
  rw [← isResult]
  have same : (∀ w s, s ∈ (result.2.vmem w).regions.items → s ∈ (k.vmem w).regions.items) → SpansApart result.2 := by
    intro before w r member s member' different
    exact (apart w r (before w r member) s (before w s member') different).mono (old w r (before w r member))
      (old w s (before w s member'))
  rcases links with ⟨-, relinks⟩ | ⟨-, relinks⟩ | ⟨-, relinks⟩
  · exact same fun w s member => (relinks.mem_regions w s).mp member
  · exact same fun w s member => (relinks.mem_regions w s).mp member
  · have member : ∀ w s, s ∈ (result.2.vmem w).regions.items ↔
        s ∈ (k.vmem w).regions.items ∨ w = v ∧ s = k.core.vmemRegions.count := fun w s =>
      (relinks.mem_regions w s).trans (Space.mem_attach _ v _ w s)
    have before : ∀ w s, s ∈ (result.2.vmem w).regions.items → s ≠ k.core.vmemRegions.count →
        s ∈ (k.vmem w).regions.items := fun w s here other =>
      ((member w s).mp here).resolve_right fun isNew => other isNew.2
    have made := createRegion_new known v name start size user writable executable isResult
    refine apart.retarget k.core.vmemRegions.count (fun w => ⟨w, before w⟩)
      (fun w s here other => old w s (before w s here other)) (fun w here s here' other => ?_)
    have fresh : ∀ w, k.core.vmemRegions.count ∉ (k.vmem w).regions.items := fun w old =>
      Nat.lt_irrefl _ (linked.known w _ old).2
    obtain ⟨rfl, -⟩ := ((member w _).mp here).resolve_left (fresh w)
    have count : result.2.core.vmemRegions.count = k.core.vmemRegions.count + 1 :=
      relinks.links.regionCount.trans (Space.attach_counts _ _ _).2
    obtain ⟨place, reach⟩ := made (by rw [count]; exact Nat.lt_succ_self _)
    refine (clear s (before w s here' other)).mono_left ?_
    unfold Kernel.span
    rw [place]
    exact Set.Ico_subset_Ico_right (Nat.add_le_add_left reach _)

/-- What the records of the services say about references. -/
structure Referenced (k : Kernel) : Prop where
  well : WellLinked (fun _ => True) k
  data : DataKnown k

theorem VmemOp.steady (calls : ∀ size k, Steady Set.univ k (kalloc size k).2) (op : VmemOp) (k : Kernel) :
    Steady Set.univ k (op.run kalloc k) := by
  have composed := steady_composed calls
  cases op with
  | create =>
      exact composed.create k (Nat.zero_le _) fun k' => Steady.table calls (nativeVmemCreate_tablePath _ k')
  | createRegion vmem name start size user writable executable =>
      exact composed.createRegion vmem name start size user writable executable k
        fun _ _ => ⟨Nat.zero_le _, Set.mem_univ _⟩
  | resize region newSize =>
      exact Steady.growth calls (vmemRegionResize_growthPath region (fun r _ => Set.mem_univ r) newSize k)
  | mapPhysical region physicalStartAddr size =>
      exact Steady.growth calls
        (vmemRegionMapPhysicalAddress_growthPath region (fun r _ => Set.mem_univ r) physicalStartAddr size k)
  | attach vmem region => exact composed.attach vmem region k

theorem VmemOp.referenced (tame : Tame (fun _ => True) kalloc) (calls : ∀ size k, Steady Set.univ k (kalloc size k).2)
    {op : VmemOp} (referenced : Referenced k) (valid : op.Valid k) : Referenced (op.run kalloc k) :=
  ⟨op.wellLinked tame referenced.well valid, (op.steady calls k).dataKnown referenced.data⟩

theorem Referenced.call (referenced : Referenced k) (size : Nat) : Referenced (BubackOS.kalloc size k).2 :=
  ⟨referenced.well.of_frame trivial (kalloc_tame.frame size k trivial),
    (kalloc_steady size k : Steady ∅ _ _).dataKnown referenced.data⟩

/-- A call that asks for clear ranges keeps the regions apart. -/
theorem VmemOp.spansApart {op : VmemOp} (referenced : Referenced k) (apart : SpansApart k) (valid : op.Valid k)
    (clear : op.Clear k) : SpansApart (op.run BubackOS.kalloc k) := by
  have linked := referenced.well.linked
  cases op with
  | create => exact apart.create linked referenced.well.kernel
  | createRegion vmem name start size user writable executable =>
      cases vmem with
      | none => exact apart
      | some v =>
          cases name with
          | none => exact apart
          | some name =>
              exact apart.createRegion linked referenced.data name start size user writable executable (clear v rfl)
  | resize region newSize =>
      cases region with
      | none => exact apart
      | some r =>
          have growth := @vmemRegionResize_growthPath BubackOS.kalloc {r} (some r)
            (fun _ isR => Option.mem_some.mp isR ▸ Set.mem_singleton _) newSize k
          exact apart.grows linked (kalloc_tame.growth growth trivial).2 (Steady.growth kalloc_steady growth)
            (fun known => resize_reach known newSize) (clear r rfl)
  | mapPhysical region physicalStartAddr size =>
      cases region with
      | none => exact apart
      | some r =>
          have growth := @vmemRegionMapPhysicalAddress_growthPath BubackOS.kalloc {r} (some r)
            (fun _ isR => Option.mem_some.mp isR ▸ Set.mem_singleton _) physicalStartAddr size k
          exact apart.grows linked (kalloc_tame.growth growth trivial).2 (Steady.growth kalloc_steady growth)
            (fun known => mapPhysical_reach known physicalStartAddr size) (clear r rfl)
  | attach vmem region =>
      cases vmem with
      | none => exact apart
      | some v =>
          cases region with
          | none => exact apart
          | some r => exact apart.attach linked (clear v rfl r rfl) (valid.2 r rfl)

/-! ## Whole runs -/

/-- The same lists and a kernel data region that exists. -/
theorem Referenced.of_frame (referenced : Referenced k) (frame : Frame k k') : Referenced k' := by
  refine ⟨referenced.well.of_frame trivial frame, fun d isData => ?_⟩
  rw [frame.kernelData] at isData
  rw [frame.vmemRegions]
  exact referenced.data d isData

/-- A region is created or refused; a region that is returned exists. -/
theorem Referenced.createRegion (referenced : Referenced k) {vmem : Option Nat}
    (valid : ∀ v ∈ vmem, v < k.core.vmems.count) (name : String) (start size : Nat) (user writable executable : Bool)
    {created : Option Nat × Kernel}
    (isCreated : created = vmemRegionCreate BubackOS.kalloc vmem (some name) start size user writable executable k) :
    Referenced created.2 ∧ ∀ r ∈ created.1, r < created.2.core.vmemRegions.count := by
  cases vmem with
  | none =>
      rw [isCreated]
      exact ⟨referenced, fun r isR => by cases isR⟩
  | some v =>
      have after := @VmemOp.referenced _ _ kalloc_tame kalloc_steady
        (.createRegion (some v) (some name) start size user writable executable) referenced valid
      obtain ⟨-, links⟩ := vmemRegionCreate_relinks kalloc_tame trivial referenced.well.linked v name start size user
        writable executable isCreated
      refine ⟨isCreated ▸ after, fun r isR => ?_⟩
      rcases links with ⟨none, -⟩ | ⟨none, -⟩ | ⟨new, relinks⟩
      · rw [none] at isR
        cases isR
      · rw [none] at isR
        cases isR
      · have count : created.2.core.vmemRegions.count = k.core.vmemRegions.count + 1 :=
          relinks.links.regionCount.trans (Space.attach_counts _ _ _).2
        rw [new r isR, count]
        exact Nat.lt_succ_self _

theorem referenced_boot : BootClosed fun k k' => Referenced k → Referenced k' where
  trans := fun first second referenced => second (first referenced)
  code := by
    intro name start k created isCreated referenced
    have made := (referenced.createRegion referenced.well.kernel name start 0 false true true isCreated).1
    exact ⟨⟨trivial, made.well.linked, made.well.kernel⟩, made.data⟩
  data := by
    intro name start k created isCreated referenced
    obtain ⟨made, known⟩ := referenced.createRegion referenced.well.kernel name start 0 false true true isCreated
    exact ⟨⟨trivial, made.well.linked, made.well.kernel⟩, known⟩
  map := fun r paddr size k referenced => referenced.of_frame (kalloc_tame.growth
    (@vmemRegionMapPhysicalAddress_growthPath _ Set.univ r (fun s _ => Set.mem_univ s) paddr size k) trivial).2
  setAlloc := fun _ _ _ referenced => referenced.of_frame (Frame.of_core rfl)
  switch := by
    intro v k referenced
    unfold nativeVmemSwitch
    split
    · exact referenced
    · exact ⟨⟨trivial, referenced.well.linked, referenced.well.kernel⟩, referenced.data⟩

theorem vmemStart_referenced {pmem : Pmem} (tame : Tame (fun _ => True) kalloc) (blank : k.core = Core.blank pmem) :
    Referenced (vmemStart kalloc k) := by
  have calls : ∀ size k, (kalloc size k).2.core.kernelDataVmemRegion = k.core.kernelDataVmemRegion :=
    fun size k => (tame.frame size k trivial).kernelData
  have data : (vmemStart kalloc k).core.kernelDataVmemRegion = k.core.kernelDataVmemRegion := by
    refine vmemStart_steps (fun k k' => k'.core.kernelDataVmemRegion = k.core.kernelDataVmemRegion)
      (fun first second => second.trans first) (fun k => ?_) (fun _ _ => rfl) (fun _ _ => rfl) (fun k => ?_)
      (fun _ _ => rfl) k
    · exact kernelData_closed.path calls (linkedlistCreate_tablePath k).path
    · exact kernelData_closed.path calls (vmemCreate_path k (Nat.zero_le _))
  refine ⟨(vmemStart_wellLinked tame trivial blank).1, fun d isData => ?_⟩
  rw [data, blank] at isData
  cases isData

theorem ServiceStep.referenced (step : ServiceStep k k') (referenced : Referenced k) : Referenced k' := by
  cases step with
  | call size => exact referenced.call size
  | service valid => exact VmemOp.referenced kalloc_tame kalloc_steady referenced valid
  | initialise => exact referenced_boot.initialise k referenced

theorem ServiceRun.referenced (run : ServiceRun k k') (referenced : Referenced k) : Referenced k' := by
  induction run with
  | refl => exact referenced
  | tail _ step ih => exact step.referenced ih

/-- A call of the allocator, or of a service that asks for clear ranges. -/
inductive ClearStep (k : Kernel) : Kernel → Prop where
  | call (size : Nat) : ClearStep k (BubackOS.kalloc size k).2
  | service {op : VmemOp} (valid : op.Valid k) (clear : op.Clear k) : ClearStep k (op.run BubackOS.kalloc k)

def ClearRun : Kernel → Kernel → Prop := Relation.ReflTransGen ClearStep

theorem ClearRun.spansApart (run : ClearRun k k') (referenced : Referenced k) (apart : SpansApart k) :
    Referenced k' ∧ SpansApart k' := by
  induction run with
  | refl => exact ⟨referenced, apart⟩
  | tail _ step ih =>
      obtain ⟨referenced, apart⟩ := ih
      cases step with
      | call size => exact ⟨referenced.call size, apart.call referenced.well.linked size⟩
      | service valid clear =>
          exact ⟨VmemOp.referenced kalloc_tame kalloc_steady referenced valid,
            VmemOp.spansApart referenced apart valid clear⟩

/-- From any state of the memory services in which the regions are apart, calls that ask for clear ranges keep the
ranges of any two regions of an address space disjoint. -/
theorem attached_ranges_disjoint {pmem : Pmem} {k₀ k₁ : Kernel} (blank : k₀.core = Core.blank pmem)
    (before : ServiceRun (vmemStart BubackOS.kalloc k₀) k₁) (apart : SpansApart k₁) (run : ClearRun k₁ k) :
    ∀ v, ∀ r ∈ (k.vmem v).regions.items, ∀ s ∈ (k.vmem v).regions.items, r ≠ s →
      Disjoint (k.range r) (k.range s) := by
  have inside : ∀ r, k.range r ⊆ k.span r := fun r =>
    Set.Ico_subset_Ico_right (Nat.add_le_add_left (Nat.le_add_right _ _) _)
  obtain ⟨-, apart'⟩ := run.spansApart (before.referenced (vmemStart_referenced kalloc_tame blank)) apart
  intro v r member s member' different
  exact (apart' v r member s member' different).mono (inside r) (inside s)

/-- A region of two pages at a given start, and then one that finds its start. -/
def heapAndStack (start : Nat) : Kernel :=
  VmemOp.run BubackOS.kalloc (VmemOp.run BubackOS.kalloc (vmemStart BubackOS.kalloc sampleKernel)
    (.createRegion (some 0) (some "heap") start 8192 false true false))
    (.createRegion (some 0) (some "stack") 0 4096 false true false)

theorem attached_ranges_disjoint_heapAndStack :
    Disjoint ((heapAndStack 0x200000).range 0) ((heapAndStack 0x200000).range 1) := by
  have blank : sampleKernel.core = Core.blank sampleKernel.core.pmem := rfl
  obtain ⟨none, one⟩ : (vmemStart BubackOS.kalloc sampleKernel).core.vmemRegions.count = 0 ∧
      0 < (vmemStart BubackOS.kalloc sampleKernel).core.vmems.count := by decide +kernel
  have known := (vmemStart_referenced kalloc_tame blank).well.linked.known
  have empty : ∀ v r, r ∉ ((vmemStart BubackOS.kalloc sampleKernel).vmem v).regions.items := by
    intro v r member
    have bound : r < (vmemStart BubackOS.kalloc sampleKernel).core.vmemRegions.count := (known v r member).2
    rw [none] at bound
    exact Nat.not_lt_zero r bound
  obtain ⟨heap, isHeap⟩ : ∃ heap, heap = VmemOp.run BubackOS.kalloc (vmemStart BubackOS.kalloc sampleKernel)
    (.createRegion (some 0) (some "heap") 0x200000 8192 false true false) := ⟨_, rfl⟩
  obtain ⟨listed, place, next, one'⟩ : (heap.vmem 0).regions.items = [0] ∧ (heap.region 0).start = 0x200000 ∧
      (placeRegion 0 0 heap).1 = 0x100000 ∧ 0 < heap.core.vmems.count := by
    rw [isHeap]
    decide +kernel
  have first : ClearStep (vmemStart BubackOS.kalloc sampleKernel) heap := by
    rw [isHeap]
    refine .service (fun v isV => ?_) fun v _ s member => absurd member (empty v s)
    cases isV
    exact one
  have second : ClearStep heap (heapAndStack 0x200000) := by
    unfold heapAndStack
    rw [← isHeap]
    refine .service (fun v isV => ?_) fun v isV s member => ?_
    · cases isV
      exact one'
    · cases isV
      rw [listed, List.mem_singleton] at member
      subst member
      unfold Kernel.span
      rw [next, place, Set.Ico_disjoint_Ico]
      exact Nat.le_trans (Nat.min_le_left _ _) (Nat.le_trans (by decide) (Nat.le_max_right _ _))
  have apart : SpansApart (vmemStart BubackOS.kalloc sampleKernel) := fun v r member => absurd member (empty v r)
  have both : ((heapAndStack 0x200000).vmem 0).regions.items = [0, 1] := by decide +kernel
  exact attached_ranges_disjoint blank .refl apart ((Relation.ReflTransGen.single first).tail second) 0 0
    (both ▸ List.mem_cons_self) 1 (both ▸ List.mem_cons_of_mem _ List.mem_cons_self) (by decide)

/-- The second region starts inside the first. -/
theorem automatic_start_overlaps :
    (((heapAndStack 0x100000).vmem 0).regions.items = [0, 1] ∧
      ((heapAndStack 0x100000).region 0).start = 0x100000 ∧ ((heapAndStack 0x100000).region 0).allocatedSize = 8192 ∧
      ((heapAndStack 0x100000).region 1).start = 0x100000 ∧ ((heapAndStack 0x100000).region 1).allocatedSize = 4096) ∧
    ¬ Disjoint ((heapAndStack 0x100000).range 0) ((heapAndStack 0x100000).range 1) := by
  have made : ((heapAndStack 0x100000).vmem 0).regions.items = [0, 1] ∧
      ((heapAndStack 0x100000).region 0).start = 0x100000 ∧ ((heapAndStack 0x100000).region 0).allocatedSize = 8192 ∧
      ((heapAndStack 0x100000).region 1).start = 0x100000 ∧
      ((heapAndStack 0x100000).region 1).allocatedSize = 4096 := by decide +kernel
  refine ⟨made, fun disjoint => ?_⟩
  obtain ⟨-, start, size, start', size'⟩ := made
  unfold Kernel.range at disjoint
  rw [start, size, start', size'] at disjoint
  exact Set.disjoint_left.mp disjoint (show 0x100000 ∈ Set.Ico 0x100000 _ from ⟨Nat.le_refl _, by decide⟩)
    ⟨Nat.le_refl _, by decide⟩

end BubackOS
