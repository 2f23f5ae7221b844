import BubackOS.Core.KallocBlocks
import BubackOS.Core.Links
import BubackOS.Core.PmemRuns

/-!
# What a growing heap leaves alone

Whatever `kalloc` does while the kernel-data region grows, it hands pages to that region
only, and it only adds to the maps.  So a service that works on another region finds it
after every call as it was before, and can be followed step by step as if the allocator
did nothing else.
-/

namespace BubackOS

open Library

/-- The page an event hands to a region. -/
def Event.pageFor (r : Nat) : Event → Option Nat
  | .associate region paddr _ _ => if region = r then some paddr else none
  | .outOfPages => none

/-- The pages handed to a region so far, the last one first. -/
def Kernel.handed (r : Nat) (k : Kernel) : List Nat := k.core.trace.filterMap (Event.pageFor r)

variable {kalloc : Kalloc} {T : Set Nat} {k k' k'' : Kernel} {v r s : Nat}

theorem handed_beginAssociate_self (r paddr : Nat) (k : Kernel) :
    (k.beginAssociate r paddr).handed r = paddr :: k.handed r := by
  have listed : Event.pageFor r (.associate r paddr k.alloc.currentMemPtr (k.region r).allocatedSize) =
      some paddr := if_pos rfl
  exact List.filterMap_cons_some listed

theorem handed_beginAssociate_of_ne (paddr : Nat) (k : Kernel) (other : s ≠ r) :
    (k.beginAssociate r paddr).handed s = k.handed s := by
  have skipped : Event.pageFor s (.associate r paddr k.alloc.currentMemPtr (k.region r).allocatedSize) =
      none := if_neg other.symm
  exact List.filterMap_cons_none skipped

theorem region_beginAssociate_self (r paddr : Nat) (k : Kernel) : (k.beginAssociate r paddr).region r =
    { k.region r with allocatedSize := wrap ((k.region r).allocatedSize + systemPageSize) } :=
  Kernel.region_modifyRegion_self _ _ _

theorem region_beginAssociate_of_ne (paddr : Nat) (k : Kernel) (other : s ≠ r) :
    (k.beginAssociate r paddr).region s = k.region s :=
  Kernel.region_modifyRegion_of_ne other

theorem handed_pmemAllocate (s : Nat) (k : Kernel) : (pmemAllocate k).2.handed s = k.handed s :=
  pmemAllocate_cases (P := fun k' => k'.handed s = k.handed s) rfl rfl

theorem region_pmemAllocate (s : Nat) (k : Kernel) : (pmemAllocate k).2.region s = k.region s :=
  pmemAllocate_cases (P := fun k' => k'.region s = k.region s) rfl rfl

theorem vmem_pmemAllocate (v : Nat) (k : Kernel) : (pmemAllocate k).2.vmem v = k.vmem v :=
  pmemAllocate_cases (P := fun k' => k'.vmem v = k.vmem v) rfl rfl

/-! ## Regions -/

/-- Only the kernel-data region changes and gets pages. -/
structure DataOnly (k k' : Kernel) : Prop where
  data : k'.core.kernelDataVmemRegion = k.core.kernelDataVmemRegion
  region : ∀ s, k.core.kernelDataVmemRegion ≠ some s → k'.region s = k.region s
  handed : ∀ s, k.core.kernelDataVmemRegion ≠ some s → k'.handed s = k.handed s

namespace DataOnly

theorem refl (k : Kernel) : DataOnly k k := ⟨rfl, fun _ _ => rfl, fun _ _ => rfl⟩

theorem trans (first : DataOnly k k') (second : DataOnly k' k'') : DataOnly k k'' := by
  refine ⟨second.data.trans first.data, fun s other => ?_, fun s other => ?_⟩
  all_goals
    have still : k'.core.kernelDataVmemRegion ≠ some s := by rw [first.data]; exact other
  · exact (second.region s still).trans (first.region s other)
  · exact (second.handed s still).trans (first.handed s other)

/-- A change outside the regions and the history. -/
theorem of_regions (data : k'.core.kernelDataVmemRegion = k.core.kernelDataVmemRegion)
    (regions : k'.core.vmemRegions = k.core.vmemRegions) (trace : k'.core.trace = k.core.trace) :
    DataOnly k k' := by
  refine ⟨data, fun s _ => ?_, fun s _ => ?_⟩
  · rw [Kernel.region, regions, Kernel.region]
  · rw [Kernel.handed, trace, Kernel.handed]

theorem of_core (core : k'.core = k.core) : DataOnly k k' :=
  of_regions (by rw [core]) (by rw [core]) (by rw [core])

theorem other (isData : k.core.kernelDataVmemRegion = some r) (notData : k.core.kernelDataVmemRegion ≠ some s) :
    s ≠ r := fun same => notData (same ▸ isData)

theorem modifyRegion (isData : k.core.kernelDataVmemRegion = some r) (change : VmemRegion → VmemRegion) :
    DataOnly k (k.modifyRegion r change) :=
  ⟨rfl, fun _ notData => Kernel.region_modifyRegion_of_ne (other isData notData), fun _ _ => rfl⟩

theorem pmemAllocate (k : Kernel) : DataOnly k (pmemAllocate k).2 :=
  ⟨(Frame.pmemAllocate k).kernelData, fun s _ => region_pmemAllocate s k, fun s _ => handed_pmemAllocate s k⟩

theorem beginAssociate (isData : k.core.kernelDataVmemRegion = some r) (paddr : Nat) :
    DataOnly k (k.beginAssociate r paddr) :=
  ⟨rfl, fun _ notData => region_beginAssociate_of_ne paddr k (other isData notData),
    fun _ notData => handed_beginAssociate_of_ne paddr k (other isData notData)⟩

theorem growthStep (calls : ∀ size, DataOnly k (kalloc size k).2)
    (isData : ∀ r ∈ T, k.core.kernelDataVmemRegion = some r) (step : GrowthStep kalloc T k k') :
    DataOnly k k' := by
  cases step with
  | notify step =>
      cases step with
      | table step =>
          cases step with
          | call size => exact calls size
          | write => exact of_core rfl
          | native => exact of_regions rfl rfl rfl
      | appendMap => exact of_regions rfl rfl rfl
      | annotate => exact of_regions rfl rfl rfl
  | appendPage target page => exact modifyRegion (isData _ target) _
  | associate paddr target => exact beginAssociate (isData _ target) paddr
  | grow found target =>
      have allocated := pmemAllocate k
      exact allocated.trans (beginAssociate (allocated.data.trans (isData _ target)) _)
  | exhaust failed => exact pmemAllocate k
  | declare target size => exact modifyRegion (isData _ target) _

theorem growth (calls : ∀ size k, DataOnly k (kalloc size k).2)
    (isData : ∀ r ∈ T, k.core.kernelDataVmemRegion = some r) (path : GrowthPath kalloc T k k') :
    DataOnly k k' := by
  induction path with
  | refl => exact refl k
  | tail _ step ih =>
      exact ih.trans (growthStep (fun size => calls size _) (fun r target => ih.data.trans (isData r target)) step)

end DataOnly

theorem dataOnly_closed : CallClosed DataOnly where
  toHeapClosed := .of_core DataOnly.trans DataOnly.of_core
  resize := by
    intro nested _ calls k r isData newSize
    refine DataOnly.growth (T := {r}) calls (fun s target => ?_)
      (vmemRegionResize_growthPath (some r) ?_ newSize k)
    · rw [Set.mem_singleton_iff.mp target]
      exact isData
    · rintro s ⟨⟩
      exact Set.mem_singleton r

/-- No service makes another region the kernel's data. -/
theorem kernelData_closed :
    Closed 0 0 fun k k' => k'.core.kernelDataVmemRegion = k.core.kernelDataVmemRegion where
  toHeapClosed := .of_core (fun first second => second.trans first) fun core => by rw [core]
  step := by
    intro nested calls k k' step
    cases step with
    | table step =>
        cases step with
        | call size => exact calls size k
        | write => rfl
        | native => rfl
    | grow found => exact (Frame.pmemAllocate k).kernelData
    | exhaust failed => exact (Frame.pmemAllocate k).kernelData
    | _ => rfl

/-! ## Maps -/

/-- The maps keep their entries, in their order, and get more at the end. -/
def MapsGrow (k k' : Kernel) : Prop := ∀ v, ∃ more, (k'.vmem v).map = (k.vmem v).map.map (· ++ more)

namespace MapsGrow

theorem of_map (map : ∀ v, (k'.vmem v).map = (k.vmem v).map) : MapsGrow k k' := by
  intro v
  refine ⟨[], ?_⟩
  rw [map]
  cases (k.vmem v).map with
  | none => rfl
  | some items => rw [Option.map_some, List.append_nil]

theorem refl (k : Kernel) : MapsGrow k k := of_map fun _ => rfl

theorem of_core (core : k'.core = k.core) : MapsGrow k k' :=
  of_map fun v => by rw [Kernel.vmem, core, Kernel.vmem]

theorem trans (first : MapsGrow k k') (second : MapsGrow k' k'') : MapsGrow k k'' := by
  intro v
  obtain ⟨more, grown⟩ := first v
  obtain ⟨more', grown'⟩ := second v
  refine ⟨more ++ more', ?_⟩
  rw [grown', grown]
  cases (k.vmem v).map with
  | none => rfl
  | some items => simp only [Option.map_some, List.append_assoc]

theorem isSome (grows : MapsGrow k k') (some : (k.vmem v).map.isSome) : (k'.vmem v).map.isSome := by
  obtain ⟨more, grown⟩ := grows v
  rw [grown, Option.isSome_map]
  exact some

theorem mem (grows : MapsGrow k k') {entry : VmemMap} (member : entry ∈ (k.vmem v).map.items) :
    entry ∈ (k'.vmem v).map.items := by
  obtain ⟨more, grown⟩ := grows v
  rw [grown]
  cases map : (k.vmem v).map with
  | none =>
      rw [map] at member
      exact absurd member List.not_mem_nil
  | some items =>
      rw [map] at member
      exact List.mem_append_left more member

theorem modifyVmem {change : Vmem → Vmem} (same : (change (k.vmem v)).map = (k.vmem v).map) :
    MapsGrow k (k.modifyVmem v change) := by
  refine of_map fun w => ?_
  by_cases here : w = v
  · subst here
    rw [Kernel.vmem_modifyVmem_self, same]
  · rw [Kernel.vmem_modifyVmem_of_ne here]

theorem append (v : Nat) (entry : VmemMap) (k : Kernel) : MapsGrow k ((mapOf v).modify (· ++ [entry]) k) := by
  intro w
  by_cases here : w = v
  · subst here
    refine ⟨[entry], ?_⟩
    rw [mapOf, Kernel.vmem_modifyVmem_self]
  · rw [mapOf, Kernel.vmem_modifyVmem_of_ne here]
    exact refl k w

theorem growthStep (calls : ∀ size, MapsGrow k (kalloc size k).2) (step : GrowthStep kalloc T k k') :
    MapsGrow k k' := by
  cases step with
  | notify step =>
      cases step with
      | table step =>
          cases step with
          | call size => exact calls size
          | write => exact of_core rfl
          | native => exact modifyVmem rfl
      | appendMap v entry => exact append v entry k
      | annotate => exact of_map fun _ => rfl
  | appendPage | associate | declare => exact of_map fun _ => rfl
  | grow => exact of_map fun v => congrArg Vmem.map (vmem_pmemAllocate v k)
  | exhaust => exact of_map fun v => congrArg Vmem.map (vmem_pmemAllocate v k)

end MapsGrow

theorem mapsGrow_closed : GrowthClosed MapsGrow where
  toHeapClosed := .of_core MapsGrow.trans MapsGrow.of_core
  grow := fun calls k _ step => MapsGrow.growthStep (fun size => calls size k) step

/-! ## Beside a region -/

/-- The allocator does not grow the region: it grows another one, or none yet. -/
def Kernel.Spares (r : Nat) (k : Kernel) : Prop := k.core.kernelDataVmemRegion ≠ some r ∨ Early k.alloc

/-- A step that leaves a region alone which the allocator does not grow. -/
structure Beside (r : Nat) (k k' : Kernel) : Prop where
  spares : k.Spares r → k'.Spares r
  region : k.Spares r → k'.region r = k.region r
  handed : k.Spares r → k'.handed r = k.handed r
  maps : MapsGrow k k'
  later : Later k k'

namespace Beside

theorem refl (r : Nat) (k : Kernel) : Beside r k k :=
  ⟨fun spares => spares, fun _ => rfl, fun _ => rfl, MapsGrow.refl k, Later.refl k⟩

theorem trans (first : Beside r k k') (second : Beside r k' k'') : Beside r k k'' where
  spares := fun spares => second.spares (first.spares spares)
  region := fun spares => (second.region (first.spares spares)).trans (first.region spares)
  handed := fun spares => (second.handed (first.spares spares)).trans (first.handed spares)
  maps := first.maps.trans second.maps
  later := first.later.trans second.later

/-- A change of one address space that adds nothing to its map but at the end. -/
theorem modifyVmem (r : Nat) {change : Vmem → Vmem} (maps : MapsGrow k (k.modifyVmem v change)) :
    Beside r k (k.modifyVmem v change) :=
  ⟨fun spares => spares, fun _ => rfl, fun _ => rfl, maps, .of_alloc rfl List.suffix_rfl⟩

/-- A change of another region. -/
theorem modifyRegion (other : r ≠ s) (change : VmemRegion → VmemRegion) : Beside r k (k.modifyRegion s change) :=
  ⟨fun spares => spares, fun _ => Kernel.region_modifyRegion_of_ne other, fun _ => rfl, .of_map fun _ => rfl,
    .of_alloc rfl List.suffix_rfl⟩

theorem beginAssociate (other : r ≠ s) (paddr : Nat) (k : Kernel) : Beside r k (k.beginAssociate s paddr) :=
  ⟨fun spares => spares, fun _ => region_beginAssociate_of_ne paddr k other,
    fun _ => handed_beginAssociate_of_ne paddr k other, .of_map fun _ => rfl, .of_alloc rfl (List.suffix_cons _ _)⟩

theorem pmemAllocate (r : Nat) (k : Kernel) : Beside r k (pmemAllocate k).2 where
  spares := by
    unfold Kernel.Spares
    rw [(Frame.pmemAllocate k).kernelData, pmemAllocate_alloc]
    exact id
  region := fun _ => region_pmemAllocate r k
  handed := fun _ => handed_pmemAllocate r k
  maps := .of_map fun v => congrArg Vmem.map (vmem_pmemAllocate v k)
  later := .pmemAllocate k

variable (calls : ∀ size k, Beside r k (kalloc size k).2)

include calls

/-- While other regions grow. -/
theorem growth (other : r ∉ T) (path : GrowthPath kalloc T k k') : Beside r k k' := by
  have ne : ∀ {s}, s ∈ T → r ≠ s := fun target same => other (same ▸ target)
  induction path with
  | refl => exact refl r k
  | tail _ step ih =>
      refine ih.trans ?_
      cases step with
      | notify step =>
          cases step with
          | table step =>
              cases step with
              | call size => exact calls size _
              | write =>
                  exact ⟨fun spares => spares, fun _ => rfl, fun _ => rfl, .of_core rfl, .of_alloc rfl List.suffix_rfl⟩
              | native => exact modifyVmem r (MapsGrow.modifyVmem rfl)
          | appendMap v entry => exact modifyVmem r (MapsGrow.append v entry _)
          | annotate =>
              exact ⟨fun spares => spares, fun _ => rfl, fun _ => rfl, .of_map fun _ => rfl,
                .of_alloc rfl List.suffix_rfl⟩
      | appendPage target => exact modifyRegion (ne target) _
      | associate paddr target => exact beginAssociate (ne target) paddr _
      | grow _ target => exact (pmemAllocate r _).trans (beginAssociate (ne target) _ _)
      | exhaust => exact pmemAllocate r _
      | declare target => exact modifyRegion (ne target) _

theorem notify (path : NotifyPath kalloc k k') : Beside r k k' := growth calls (T := ∅) (Set.notMem_empty r) path.growth

end Beside

/-- Before its initialisation `kalloc` changes no region, and later only the kernel's data. -/
theorem kalloc_beside (r size : Nat) (k : Kernel) : Beside r k (BubackOS.kalloc size k).2 := by
  have only := dataOnly_closed.kalloc size k
  have core : Early k.alloc → (BubackOS.kalloc size k).2.core = k.core := kalloc_quiet.core size k
  refine ⟨?_, ?_, ?_, mapsGrow_closed.calls.kalloc size k, later_closed.growth.calls.kalloc size k⟩
  · rintro (other | early)
    · exact Or.inl (by rw [only.data]; exact other)
    · exact Or.inr (kalloc_quiet.stays size k early)
  · rintro (other | early)
    · exact only.region r other
    · rw [Kernel.region, core early, Kernel.region]
  · rintro (other | early)
    · exact only.handed r other
    · rw [Kernel.handed, core early, Kernel.handed]

/-! ## One page -/

/-- A step that gives a page to a region: it is the next one behind the start address, whether or not
the list could record it. -/
structure Associates (r paddr : Nat) (k k' : Kernel) : Prop where
  spares : k'.Spares r
  region : k'.region r = { k.region r with
    allocatedSize := wrap ((k.region r).allocatedSize + systemPageSize), pages := (k'.region r).pages }
  handed : k'.handed r = paddr :: k.handed r
  maps : MapsGrow k k'

theorem Associates.begin (paddr : Nat) (spares : k.Spares r) : Associates r paddr k (k.beginAssociate r paddr) := by
  refine ⟨spares, ?_, handed_beginAssociate_self r paddr k, MapsGrow.of_map fun _ => rfl⟩
  rw [region_beginAssociate_self]

theorem Associates.beside (gets : Associates r paddr k k') (rest : Beside r k' k'') :
    Associates r paddr k k'' := by
  refine ⟨rest.spares gets.spares, ?_, (rest.handed gets.spares).trans gets.handed, gets.maps.trans rest.maps⟩
  rw [rest.region gets.spares]
  exact gets.region

/-- The list records the page. -/
theorem Associates.record (gets : Associates r paddr k k') :
    Associates r paddr k ((pagesOf r).modify (· ++ [paddr]) k') := by
  have region : ((pagesOf r).modify (· ++ [paddr]) k').region r =
      { k'.region r with pages := (k'.region r).pages.map (· ++ [paddr]) } :=
    Kernel.region_modifyRegion_self _ _ _
  refine ⟨gets.spares, ?_, gets.handed, gets.maps⟩
  rw [region, gets.region]

section Page

variable (calls : ∀ size k, Beside r k (kalloc size k).2)

include calls

/-- The state in which `vmem_region_assoc_physical_address` starts to notify. -/
theorem storePage_associates (paddr : Nat) (spares : k.Spares r) :
    Associates r paddr k (linkedlistAppend kalloc (pagesOf r) paddr (k.beginAssociate r paddr)).2 := by
  have begun := Associates.begin paddr spares
  have called := calls sizeofLinkedlistNode (k.beginAssociate r paddr)
  exact linkedlistAppend_snd begun (begun.beside called) (begun.beside called).record

theorem associate_associates (paddr : Nat) (spares : k.Spares r) :
    Associates r paddr k (vmemRegionAssocPhysicalAddress kalloc r paddr k).2 := by
  rw [vmemRegionAssocPhysicalAddress_snd]
  exact (storePage_associates calls paddr spares).beside (Beside.notify calls (notifyPage_notifyPath r paddr k))

/-- With memory for the node the list records the page. -/
theorem storePage_recorded (honest : Honest kalloc) {paddr : Nat} (spares : k.Spares r)
    (listed : (k.region r).pages.isSome)
    (served : Served (linkedlistAppend kalloc (pagesOf r) paddr (k.beginAssociate r paddr)).2.alloc.blocks) :
    ((linkedlistAppend kalloc (pagesOf r) paddr (k.beginAssociate r paddr)).2.region r).pages =
      (k.region r).pages.map (· ++ [paddr]) := by
  have unrecorded : ((kalloc sizeofLinkedlistNode (k.beginAssociate r paddr)).2.region r).pages =
      (k.region r).pages := by
    have begun := Associates.begin paddr spares
    rw [(calls _ _).region begun.spares, region_beginAssociate_self]
  have some : ((pagesOf r).get (k.beginAssociate r paddr)).isSome := by
    have listed' : ((k.beginAssociate r paddr).region r).pages.isSome := by
      rw [region_beginAssociate_self]
      exact listed
    exact listed'
  rw [linkedlistAppend_of_some some] at served ⊢
  by_cases failed : (kalloc sizeofLinkedlistNode (k.beginAssociate r paddr)).1 = 0
  · rw [if_pos failed] at served
    exact absurd failed (honest _ _ served)
  · rw [if_neg failed, pagesOf, Kernel.region_modifyRegion_self, unrecorded]

/-- With memory for the entry `vmem_notify_change` notes it. -/
theorem vmemNotifyChange_noted (honest : Honest kalloc) {paddr vaddr : Nat} (some : (k.vmem v).map.isSome)
    (served : Served (vmemNotifyChange kalloc v r paddr vaddr k).2.alloc.blocks) :
    (vmemNotifyChange kalloc v r paddr vaddr k).1 = true ∧
      { virtualAddr := vaddr, physicalAddr := paddr, region := r } ∈
        ((vmemNotifyChange kalloc v r paddr vaddr k).2.vmem v).map.items := by
  unfold vmemNotifyChange at served ⊢
  dsimp only at served ⊢
  by_cases failed : (kalloc sizeofVmemMap k).1 = 0
  · rw [if_pos failed] at served
    exact absurd failed (honest _ _ served)
  rw [if_neg failed] at served ⊢
  have some' : ((mapOf v).get (kalloc sizeofVmemMap k).2).isSome := (calls sizeofVmemMap k).maps.isSome some
  rw [linkedlistAppend_of_some some'] at served ⊢
  by_cases failed' : (kalloc sizeofLinkedlistNode (kalloc sizeofVmemMap k).2).1 = 0
  · rw [if_pos failed'] at served
    exact absurd failed' (honest _ _ served)
  rw [if_neg failed']
  have some'' := (calls sizeofLinkedlistNode (kalloc sizeofVmemMap k).2).maps.isSome some'
  refine ⟨rfl, (Beside.notify calls (nativeVmemSet_mapPath v _ _).notify).maps.mem ?_⟩
  dsimp only
  rw [mapOf_items some'']
  exact List.mem_append_right _ List.mem_cons_self

theorem notifyAttached_noted (honest : Honest kalloc) {paddr vaddr : Nat} (vs : List Nat) :
    ∀ k : Kernel, (∀ v ∈ vs, (k.vmem v).map.isSome) →
      Served (notifyAttached kalloc r paddr vaddr vs k).2.alloc.blocks →
      (notifyAttached kalloc r paddr vaddr vs k).1 = true ∧ ∀ v ∈ vs,
        { virtualAddr := vaddr, physicalAddr := paddr, region := r } ∈
          ((notifyAttached kalloc r paddr vaddr vs k).2.vmem v).map.items := by
  induction vs with
  | nil => exact fun k _ _ => ⟨rfl, fun v member => absurd member List.not_mem_nil⟩
  | cons v rest ih =>
      intro k some served
      have path := @vmemNotifyChange_notifyPath kalloc v r paddr vaddr k
      have served' : Served (vmemNotifyChange kalloc v r paddr vaddr k).2.alloc.blocks := by
        unfold notifyAttached at served
        dsimp only at served
        split at served
        · exact served.of_suffix (Beside.notify calls (notifyAttached_notifyPath r paddr vaddr rest _)).later.blocks
        · exact served
      obtain ⟨done, noted⟩ := vmemNotifyChange_noted calls honest (some v List.mem_cons_self) served'
      have unfolded : notifyAttached kalloc r paddr vaddr (v :: rest) k =
          notifyAttached kalloc r paddr vaddr rest (vmemNotifyChange kalloc v r paddr vaddr k).2 :=
        if_pos done
      rw [unfolded] at served ⊢
      obtain ⟨done', noted'⟩ := ih _ (fun w member =>
        (Beside.notify calls path).maps.isSome (some w (List.mem_cons_of_mem v member))) served
      refine ⟨done', fun w member => ?_⟩
      rcases List.mem_cons.mp member with rfl | later
      · exact (Beside.notify calls (notifyAttached_notifyPath r paddr vaddr rest _)).maps.mem noted
      · exact noted' w later

/-- With memory for the node the page is the last one of the list. -/
theorem associate_recorded (honest : Honest kalloc) {paddr : Nat} (spares : k.Spares r)
    (listed : (k.region r).pages.isSome)
    (served : Served (vmemRegionAssocPhysicalAddress kalloc r paddr k).2.alloc.blocks) :
    ((vmemRegionAssocPhysicalAddress kalloc r paddr k).2.region r).pages =
      (k.region r).pages.map (· ++ [paddr]) := by
  rw [vmemRegionAssocPhysicalAddress_snd] at served ⊢
  have rest : Beside r _ (notifyPage kalloc r paddr k).2 :=
    Beside.notify calls (notifyPage_notifyPath r paddr k)
  rw [rest.region (storePage_associates calls paddr spares).spares]
  exact storePage_recorded calls honest spares listed (served.of_suffix rest.later.blocks)

/-- With memory for the entries every address space the region is attached to notes the page. -/
theorem associate_noted (honest : Honest kalloc) {paddr : Nat} (spares : k.Spares r)
    (some : ∀ v ∈ (k.region r).attached.items, (k.vmem v).map.isSome)
    (served : Served (vmemRegionAssocPhysicalAddress kalloc r paddr k).2.alloc.blocks) :
    (vmemRegionAssocPhysicalAddress kalloc r paddr k).1 =
      wrap ((k.region r).start + (k.region r).allocatedSize) ∧
    ∀ v ∈ (k.region r).attached.items,
      { virtualAddr := wrap ((k.region r).start + (k.region r).allocatedSize), physicalAddr := paddr, region := r } ∈
        ((vmemRegionAssocPhysicalAddress kalloc r paddr k).2.vmem v).map.items := by
  have stored := storePage_associates calls paddr spares
  have attached : ((linkedlistAppend kalloc (pagesOf r) paddr (k.beginAssociate r paddr)).2.region r).attached =
      (k.region r).attached := by rw [stored.region]
  obtain ⟨notified, isNotified⟩ : ∃ notified, notified = notifyAttached kalloc r paddr
    (wrap ((k.region r).start + (k.region r).allocatedSize)) (k.region r).attached.items
    (linkedlistAppend kalloc (pagesOf r) paddr (k.beginAssociate r paddr)).2 := ⟨_, rfl⟩
  have page : notifyPage kalloc r paddr k = (notified.1, notified.2.conclude { region := r, listed :=
      (linkedlistAppend kalloc (pagesOf r) paddr (k.beginAssociate r paddr)).1, mapped := notified.1 }) := by
    rw [isNotified, ← attached]
    rfl
  rw [vmemRegionAssocPhysicalAddress_snd, page] at served ⊢
  rw [vmemRegionAssocPhysicalAddress_eq, page]
  obtain ⟨done, noted⟩ := notifyAttached_noted calls honest (k.region r).attached.items _
    (fun v member => stored.maps.isSome (some v member)) (isNotified ▸ served)
  rw [← isNotified] at done noted
  exact ⟨congrArg Prod.fst (if_pos done), noted⟩

end Page

end BubackOS
