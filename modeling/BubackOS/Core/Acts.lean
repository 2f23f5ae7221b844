import BubackOS.Core.Mirror
import BubackOS.Core.Space

/-!
# Steps of the vmem services, seen on their lists

`Acts P f k k'` relates the states before and after a step of the vmem services
under a quiet allocator: on the lists the step is `f`, and the page tables keep
mirroring the maps.  Steps compose, so the effect of a service is the composition
of the effects of its parts.
-/

namespace BubackOS

open Library

/-- The lists of all objects exist. -/
structure Ready (k : Kernel) : Prop where
  vmems : ∀ v, v < k.core.vmems.count → (k.vmem v).regions.isSome ∧ (k.vmem v).map.isSome
  regions : ∀ r, r < k.core.vmemRegions.count →
    (k.region r).pages.isSome ∧ (k.region r).attached.isSome

/-- All maps lead from page to page. -/
def AlignedMaps (k : Kernel) : Prop :=
  ∀ v, v < k.core.vmems.count → ∀ entry ∈ (k.vmem v).map.items, entry.Aligned

/-- The address spaces created so far. -/
def Kernel.vmemSet (k : Kernel) : Set Nat := { v | v < k.core.vmems.count }

/-- The page tables of all address spaces mirror their maps. -/
def Mirror (k : Kernel) : Prop := MirrorOn k.vmemSet k

/-- A step whose effect on the lists is `f`. -/
structure Moves (P : Allocator → Prop) (f : Space → Space) (k k' : Kernel) : Prop where
  mode : P k'.alloc
  log : k.alloc.blocks <:+ k'.alloc.blocks
  space : k'.space = f k.space
  aligned : AlignedMaps k' → AlignedMaps k
  mirror : Sound k'.alloc.blocks → AlignedMaps k' → Mirror k → Mirror k'

/-- A step that leaves no object without its lists. -/
structure Acts (P : Allocator → Prop) (f : Space → Space) (k k' : Kernel) : Prop
    extends Moves P f k k' where
  ready : Ready k → Ready k'

variable {P : Allocator → Prop} {kalloc : Kalloc} {k k' k'' : Kernel} {f g : Space → Space} {v r : Nat}

namespace Moves

theorem trans (first : Moves P f k k') (second : Moves P g k' k'') :
    Moves P (fun s => g (f s)) k k'' where
  mode := second.mode
  log := first.log.trans second.log
  space := by rw [second.space, first.space]
  aligned := first.aligned ∘ second.aligned
  mirror := fun sound aligned mirror =>
    second.mirror sound aligned (first.mirror (sound.of_suffix second.log) (second.aligned aligned) mirror)

/-- A change of the bookkeeping that concerns neither maps nor page tables. -/
theorem edit (mode : P k.alloc) (mem : k'.mem = k.mem) (alloc : k'.alloc = k.alloc)
    (count : k'.core.vmems.count = k.core.vmems.count) (native : ∀ w, k'.native w = k.native w)
    (map : ∀ w, (k'.vmem w).map.items = (k.vmem w).map.items) (space : k'.space = f k.space) :
    Moves P f k k' where
  mode := alloc ▸ mode
  log := by rw [alloc]
  space := space
  aligned := fun aligned v bound => by
    rw [← map]
    exact aligned v (by rw [count]; exact bound)
  mirror := fun _ _ mirror => by
    rw [Mirror, Kernel.vmemSet, count]
    exact MirrorOn.of_same mirror mem alloc (fun w _ => native w) fun w _ => map w

end Moves

namespace Acts

theorem refl (mode : P k.alloc) : Acts P (fun s => s) k k where
  mode := mode
  log := List.suffix_rfl
  space := rfl
  aligned := id
  mirror := fun _ _ mirror => mirror
  ready := id

theorem trans (first : Acts P f k k') (second : Acts P g k' k'') : Acts P (fun s => g (f s)) k k'' where
  toMoves := first.toMoves.trans second.toMoves
  ready := second.ready ∘ first.ready

/-- The same step under another description of its effect. -/
theorem congr (acts : Acts P f k k') (same : f k.space = g k.space) : Acts P g k k' :=
  { acts with space := acts.space.trans same }

theorem call (quiet : Quiet P kalloc) (mode : P k.alloc) (size : Nat) :
    Acts P (fun s => s) k (kalloc size k).2 := by
  have core := quiet.core size k mode
  have vmem := quiet.vmem mode size
  have region := quiet.region mode size
  refine ⟨⟨quiet.stays size k mode, quiet.log mode, ?_, ?_, ?_⟩, ?_⟩
  · simp only [Kernel.space, vmem, region, core]
  · intro aligned
    simpa only [AlignedMaps, vmem, core] using aligned
  · intro sound _ mirror
    rw [Mirror, Kernel.vmemSet, core]
    exact MirrorOn.call mirror quiet mode sound
  · intro ready
    exact ⟨by simpa only [vmem, core] using ready.vmems, by simpa only [region, core] using ready.regions⟩

theorem edit (mode : P k.alloc) (mem : k'.mem = k.mem) (alloc : k'.alloc = k.alloc)
    (count : k'.core.vmems.count = k.core.vmems.count) (native : ∀ w, k'.native w = k.native w)
    (map : ∀ w, (k'.vmem w).map.items = (k.vmem w).map.items) (space : k'.space = f k.space)
    (ready : Ready k → Ready k') : Acts P f k k' where
  toMoves := .edit mode mem alloc count native map space
  ready := ready

end Acts

/-! ## Edits of a region -/

theorem space_modifyRegion (change : VmemRegion → VmemRegion) (k : Kernel) (r : Nat) :
    (k.modifyRegion r change).space =
      { k.space with
        attached := Function.update k.space.attached r (change (k.region r)).attached.items
        pages := Function.update k.space.pages r (change (k.region r)).pages.items
        start := Function.update k.space.start r (change (k.region r)).start
        size := Function.update k.space.size r (change (k.region r)).size
        allocated := Function.update k.space.allocated r (change (k.region r)).allocatedSize } := by
  have pointwise : ∀ {α : Type} (field : VmemRegion → α),
      (fun s => field ((k.modifyRegion r change).region s)) =
        Function.update (fun s => field (k.region s)) r (field (change (k.region r))) := by
    intro α field
    funext s
    by_cases same : s = r
    · subst same
      simp
    · simp [Kernel.region_modifyRegion_of_ne same, Function.update_of_ne same]
  simp only [Kernel.space]
  rw [pointwise fun region => region.attached.items, pointwise fun region => region.pages.items,
    pointwise fun region => region.start, pointwise fun region => region.size,
    pointwise fun region => region.allocatedSize]
  rfl

theorem ready_modifyRegion {change : VmemRegion → VmemRegion} (ready : Ready k)
    (pages : (k.region r).pages.isSome → (change (k.region r)).pages.isSome)
    (attached : (k.region r).attached.isSome → (change (k.region r)).attached.isSome) :
    Ready (k.modifyRegion r change) where
  vmems := ready.vmems
  regions := by
    intro s bound
    by_cases same : s = r
    · subst same
      rw [Kernel.region_modifyRegion_self]
      exact ⟨pages (ready.regions s bound).1, attached (ready.regions s bound).2⟩
    · rw [Kernel.region_modifyRegion_of_ne same]
      exact ready.regions s bound

theorem Acts.modifyRegion {change : VmemRegion → VmemRegion} (mode : P k.alloc)
    (space : (k.modifyRegion r change).space = f k.space)
    (pages : (k.region r).pages.isSome → (change (k.region r)).pages.isSome)
    (attached : (k.region r).attached.isSome → (change (k.region r)).attached.isSome) :
    Acts P f k (k.modifyRegion r change) :=
  .edit mode rfl rfl rfl (fun _ => rfl) (fun _ => rfl) space fun ready =>
    ready_modifyRegion ready pages attached

/-! ## Edits of an address space -/

theorem space_modifyVmem (change : Vmem → Vmem) (k : Kernel) (v : Nat) :
    (k.modifyVmem v change).space =
      { k.space with
        regions := Function.update k.space.regions v (change (k.vmem v)).regions.items
        map := Function.update k.space.map v (change (k.vmem v)).map.items } := by
  have pointwise : ∀ {α : Type} (field : Vmem → α),
      (fun w => field ((k.modifyVmem v change).vmem w)) =
        Function.update (fun w => field (k.vmem w)) v (field (change (k.vmem v))) := by
    intro α field
    funext w
    by_cases same : w = v
    · subst same
      simp
    · simp [Kernel.vmem_modifyVmem_of_ne same, Function.update_of_ne same]
  simp only [Kernel.space]
  rw [pointwise fun vmem => vmem.regions.items, pointwise fun vmem => vmem.map.items]
  rfl

theorem ready_modifyVmem {change : Vmem → Vmem} (ready : Ready k)
    (regions : (k.vmem v).regions.isSome → (change (k.vmem v)).regions.isSome)
    (map : (k.vmem v).map.isSome → (change (k.vmem v)).map.isSome) :
    Ready (k.modifyVmem v change) where
  vmems := by
    intro w bound
    by_cases same : w = v
    · subst same
      rw [Kernel.vmem_modifyVmem_self]
      exact ⟨regions (ready.vmems w bound).1, map (ready.vmems w bound).2⟩
    · rw [Kernel.vmem_modifyVmem_of_ne same]
      exact ready.vmems w bound
  regions := ready.regions

/-- An edit of an address space outside its map and its page table. -/
theorem Acts.modifyVmem {change : Vmem → Vmem} (mode : P k.alloc)
    (space : (k.modifyVmem v change).space = f k.space)
    (native : (change (k.vmem v)).nativeVmem = (k.vmem v).nativeVmem)
    (map : (change (k.vmem v)).map = (k.vmem v).map)
    (regions : (k.vmem v).regions.isSome → (change (k.vmem v)).regions.isSome) :
    Acts P f k (k.modifyVmem v change) := by
  refine .edit mode rfl rfl rfl (fun w => ?_) (fun w => ?_) space fun ready =>
    ready_modifyVmem ready regions (by rw [map]; exact id)
  · by_cases same : w = v
    · subst same
      rw [Kernel.native, Kernel.vmem_modifyVmem_self, native, Kernel.native]
    · rw [Kernel.native, Kernel.vmem_modifyVmem_of_ne same, Kernel.native]
  · by_cases same : w = v
    · subst same
      rw [Kernel.vmem_modifyVmem_self, map]
    · rw [Kernel.vmem_modifyVmem_of_ne same]

/-! ## Edits the lists do not show -/

theorem Acts.record (mode : P k.alloc) (event : Event) : Acts P (fun s => s) k (k.record event) :=
  .edit mode rfl rfl rfl (fun _ => rfl) (fun _ => rfl) rfl fun ready =>
    ⟨ready.vmems, ready.regions⟩

theorem Acts.conclude (mode : P k.alloc) (association : Association) : Acts P (fun s => s) k (k.conclude association) :=
  .edit mode rfl rfl rfl (fun _ => rfl) (fun _ => rfl) rfl fun ready =>
    ⟨ready.vmems, ready.regions⟩

theorem Acts.setPmem (mode : P k.alloc) (pmem : Pmem) : Acts P (fun s => s) k (k.setPmem pmem) :=
  .edit mode rfl rfl rfl (fun _ => rfl) (fun _ => rfl) rfl fun ready =>
    ⟨ready.vmems, ready.regions⟩

theorem Acts.vmemIds (mode : P k.alloc) (change : IdMapper → IdMapper) :
    Acts P (fun s => s) k (vmemIdMapper.modify change k) :=
  .edit mode rfl rfl rfl (fun _ => rfl) (fun _ => rfl) rfl fun ready =>
    ⟨ready.vmems, ready.regions⟩

theorem Acts.regionIds (mode : P k.alloc) (change : IdMapper → IdMapper) :
    Acts P (fun s => s) k (vmemRegionMapper.modify change k) :=
  .edit mode rfl rfl rfl (fun _ => rfl) (fun _ => rfl) rfl fun ready =>
    ⟨ready.vmems, ready.regions⟩

theorem Acts.setKernelVmem (mode : P k.alloc) (vmem : Option Nat) :
    Acts P (fun s => s) k (k.setKernelVmem vmem) :=
  .edit mode rfl rfl rfl (fun _ => rfl) (fun _ => rfl) rfl fun ready =>
    ⟨ready.vmems, ready.regions⟩

/-- Only the page table of an address space changes, in a way that keeps the mirror. -/
theorem OnlyNative.space (only : OnlyNative v k k') : k'.space = k.space := by
  obtain ⟨pt, core⟩ := only
  have same : k'.space = (k.modifyVmem v fun vmem => { vmem with nativeVmem := pt }).space := by
    simp only [Kernel.space, Kernel.vmem, Kernel.region, core, Kernel.modifyVmem]
  rw [same, space_modifyVmem]
  have regions : Function.update k.space.regions v (k.vmem v).regions.items = k.space.regions :=
    Function.update_eq_self v k.space.regions
  have map : Function.update k.space.map v (k.vmem v).map.items = k.space.map :=
    Function.update_eq_self v k.space.map
  simp only [regions, map]

theorem OnlyNative.ready (only : OnlyNative v k k') (ready : Ready k) : Ready k' := by
  obtain ⟨pt, core⟩ := only
  have vmem : ∀ w, k'.vmem w = (k.modifyVmem v fun vmem => { vmem with nativeVmem := pt }).vmem w :=
    fun w => by rw [Kernel.vmem, core]; rfl
  have region : ∀ s, k'.region s = k.region s := fun s => by rw [Kernel.region, core]; rfl
  have edited : Ready (k.modifyVmem v fun vmem => { vmem with nativeVmem := pt }) :=
    ready_modifyVmem ready id id
  refine ⟨?_, ?_⟩
  · intro w bound
    rw [core] at bound
    rw [vmem]
    exact edited.vmems w bound
  · intro s bound
    rw [core] at bound
    rw [region]
    exact ready.regions s bound

end BubackOS
