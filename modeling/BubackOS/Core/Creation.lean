import BubackOS.Core.Refinement

/-!
# Creating regions and address spaces

A new region is one operation on the lists, then an attachment and a growth; a new
address space is one operation, a fresh page table and the attachment of the
kernel's regions.
-/

namespace BubackOS

open Library

variable {P : Allocator → Prop} {kalloc : Kalloc} {k k' : Kernel} {v r : Nat}

theorem Ready.of_core (ready : Ready k) (core : k'.core = k.core) : Ready k' := by
  refine ⟨?_, ?_⟩
  · simpa only [Kernel.vmem, core] using ready.vmems
  · simpa only [Kernel.region, core] using ready.regions

/-! ## The record of a region -/

section RegionRecord

variable {name : String} {start : Nat} {user writable executable : Bool}

theorem newRegion_space (object : VmemRegion) (k : Kernel) :
    (k.newRegion object).space =
      { k.space with
        regionCount := k.space.regionCount + 1
        attached := Function.update k.space.attached k.space.regionCount object.attached.items
        pages := Function.update k.space.pages k.space.regionCount object.pages.items
        start := Function.update k.space.start k.space.regionCount object.start
        size := Function.update k.space.size k.space.regionCount object.size
        allocated := Function.update k.space.allocated k.space.regionCount object.allocatedSize } := by
  have pointwise : ∀ {α : Type} (field : VmemRegion → α),
      (fun s => field ((k.newRegion object).region s)) =
        Function.update (fun s => field (k.region s)) k.space.regionCount (field object) := by
    intro α field
    funext s
    by_cases same : s = k.core.vmemRegions.count
    · subst same
      simp [Kernel.newRegion, Kernel.region, Kernel.space]
    · rw [Function.update_of_ne (by exact same), Kernel.region, Kernel.newRegion]
      dsimp only
      rw [Store.new_get_of_ne same, Kernel.region]
  simp only [Kernel.space]
  rw [pointwise fun region => region.attached.items, pointwise fun region => region.pages.items,
    pointwise fun region => region.start, pointwise fun region => region.size,
    pointwise fun region => region.allocatedSize]
  rfl

theorem Moves.newRegion (mode : P k.alloc) {object : VmemRegion} {start : Nat}
    (space : (k.newRegion object).space = k.space.newRegion start) :
    Moves P (Space.newRegion start) k (k.newRegion object) :=
  .edit mode rfl rfl rfl (fun _ => rfl) (fun _ => rfl) space

/-- Replacing an empty list of a region by an empty list is not seen. -/
theorem Moves.setPages (mode : P k.alloc) (empty : (k.region r).pages.items = []) :
    Moves P (fun s => s) k (k.modifyRegion r fun region => { region with pages := some [] }) := by
  refine .edit mode rfl rfl rfl (fun _ => rfl) (fun _ => rfl) ?_
  have pages : Function.update k.space.pages r [] = k.space.pages := by
    rw [← empty]
    exact Function.update_eq_self r k.space.pages
  rw [space_modifyRegion]
  simp only [Kernel.space] at pages ⊢
  rw [space_update_region (fun region => region.attached.items), space_update_region (·.start),
    space_update_region (·.size), space_update_region (·.allocatedSize)]
  rw [show LinkedList.items (some ([] : List Nat)) = [] from rfl, pages]

theorem Moves.setAttached (mode : P k.alloc) (empty : (k.region r).attached.items = []) :
    Moves P (fun s => s) k (k.modifyRegion r fun region => { region with attached := some [] }) := by
  refine .edit mode rfl rfl rfl (fun _ => rfl) (fun _ => rfl) ?_
  have attached : Function.update k.space.attached r [] = k.space.attached := by
    rw [← empty]
    exact Function.update_eq_self r k.space.attached
  rw [space_modifyRegion]
  simp only [Kernel.space] at attached ⊢
  rw [space_update_region (fun region => region.pages.items), space_update_region (·.start),
    space_update_region (·.size), space_update_region (·.allocatedSize)]
  rw [show LinkedList.items (some ([] : List Nat)) = [] from rfl, attached]

/-- A region as `vmem_region_create` fills it in. -/
def blankRegion (name : String) (start : Nat) (user writable executable : Bool) : VmemRegion :=
  { VmemRegion.zero with
    name := name, start := start, user := user, writable := writable, executable := executable }

theorem blankRegion_space (k : Kernel) :
    (k.newRegion (blankRegion name start user writable executable)).space = k.space.newRegion start :=
  newRegion_space _ k

theorem linkedlistCreate_moves {α : Type} (quiet : Quiet P kalloc) (mode : P k.alloc) :
    Acts P (fun s => s) k (linkedlistCreate (α := α) kalloc k).2 := by
  unfold linkedlistCreate
  dsimp only
  split <;> exact Acts.call quiet mode sizeofLinkedlist

theorem linkedlistCreate_core {α : Type} (quiet : Quiet P kalloc) (mode : P k.alloc) :
    (linkedlistCreate (α := α) kalloc k).2.core = k.core := by
  unfold linkedlistCreate
  dsimp only
  split <;> exact quiet.core _ k mode

/-- A new region with two empty lists leaves the others with theirs. -/
theorem Ready.record (ready : Ready k) (region : VmemRegion) :
    Ready (((k.newRegion region).modifyRegion k.core.vmemRegions.count fun region =>
      { region with pages := some [] }).modifyRegion k.core.vmemRegions.count fun region =>
        { region with attached := some [] }) := by
  refine ⟨ready.vmems, fun s bound => ?_⟩
  by_cases same : s = k.core.vmemRegions.count
  · subst same
    rw [Kernel.region_modifyRegion_self, Kernel.region_modifyRegion_self]
    exact ⟨rfl, rfl⟩
  · rw [Kernel.region_modifyRegion_of_ne same, Kernel.region_modifyRegion_of_ne same]
    have older : (k.newRegion region).region s = k.region s := Store.new_get_of_ne same
    have count : s < k.core.vmemRegions.count + 1 := bound
    rw [older]
    exact ready.regions s (by omega)

/-- The stages of `regionRecord`: both lists are created, by calls that leave the core alone. -/
theorem regionRecord_stages (quiet : Quiet P kalloc) (mode : P k.alloc)
    (served : Served (regionRecord kalloc name start user writable executable k).alloc.blocks) {created : Kernel} {r : Nat}
    (isCreated : created = k.newRegion (blankRegion name start user writable executable))
    (isR : r = k.core.vmemRegions.count) :
    ∃ listed linked, Acts P (fun s => s) created listed ∧ listed.core = created.core ∧
      Acts P (fun s => s) (listed.modifyRegion r fun region => { region with pages := some [] }) linked ∧
      linked.core = (listed.modifyRegion r fun region => { region with pages := some [] }).core ∧
      regionRecord kalloc name start user writable executable k =
        linked.modifyRegion r fun region => { region with attached := some [] } := by
  obtain ⟨pages, isPages⟩ : ∃ pages, pages = linkedlistCreate (α := Nat) kalloc created := ⟨_, rfl⟩
  obtain ⟨paged, isPaged⟩ : ∃ paged,
    paged = pages.2.modifyRegion r fun region => { region with pages := pages.1 } := ⟨_, rfl⟩
  obtain ⟨attached, isAttached⟩ : ∃ attached,
    attached = linkedlistCreate (α := Nat) kalloc paged := ⟨_, rfl⟩
  have result : regionRecord kalloc name start user writable executable k =
      attached.2.modifyRegion r fun region => { region with attached := attached.1 } := by
    rw [isAttached, isPaged, isPages, isCreated, isR]
    rfl
  rw [result] at served ⊢
  have createdMode : P created.alloc := isCreated ▸ mode
  have pagesActs : Acts P (fun s => s) created pages.2 := isPages ▸ linkedlistCreate_moves quiet createdMode
  have pagedMode : P paged.alloc := isPaged ▸ pagesActs.mode
  have attachedActs : Acts P (fun s => s) paged attached.2 := isAttached ▸ linkedlistCreate_moves quiet pagedMode
  have attachedServed : Served attached.2.alloc.blocks := served
  have pagesServed : Served pages.2.alloc.blocks := by
    have before := attachedServed.of_suffix attachedActs.log
    rw [isPaged] at before
    exact before
  have pagesList : pages.1 = some [] := by
    rw [isPages, linkedlistCreate_served quiet createdMode (by rw [← isPages]; exact pagesServed)]
  have attachedList : attached.1 = some [] := by
    rw [isAttached, linkedlistCreate_served quiet pagedMode (by rw [← isAttached]; exact attachedServed)]
  rw [pagesList] at isPaged
  rw [attachedList]
  refine ⟨pages.2, attached.2, pagesActs, ?_, isPaged ▸ attachedActs, ?_, rfl⟩
  · rw [isPages]
    exact linkedlistCreate_core quiet createdMode
  · rw [isAttached, ← isPaged]
    exact linkedlistCreate_core quiet pagedMode

/-- The record of a region with its lists is one operation. -/
theorem regionRecord_acts (quiet : Quiet P kalloc) (mode : P k.alloc)
    (served : Served (regionRecord kalloc name start user writable executable k).alloc.blocks) :
    Acts P (Space.newRegion start) k (regionRecord kalloc name start user writable executable k) := by
  obtain ⟨r, isR⟩ : ∃ r, r = k.core.vmemRegions.count := ⟨_, rfl⟩
  obtain ⟨created, isCreated⟩ : ∃ created,
    created = k.newRegion (blankRegion name start user writable executable) := ⟨_, rfl⟩
  obtain ⟨listed, linked, listedActs, listedCore, linkedActs, linkedCore, result⟩ :=
    regionRecord_stages quiet mode served isCreated isR
  rw [result]
  have createdMoves : Moves P (Space.newRegion start) k created := by
    rw [isCreated]
    exact Moves.newRegion mode (blankRegion_space k)
  have listedRegion : listed.region r = blankRegion name start user writable executable := by
    rw [Kernel.region, listedCore, isCreated, isR]
    exact Store.new_get_self _ _
  have pagedMoves : Moves P (fun s => s) listed
      (listed.modifyRegion r fun region => { region with pages := some [] }) := by
    refine Moves.setPages listedActs.mode ?_
    rw [listedRegion]
    rfl
  have linkedMoves : Moves P (fun s => s) linked
      (linked.modifyRegion r fun region => { region with attached := some [] }) := by
    refine Moves.setAttached linkedActs.mode ?_
    have linkedRegion : linked.region r =
        { blankRegion name start user writable executable with pages := some [] } := by
      rw [Kernel.region, linkedCore]
      exact (Kernel.region_modifyRegion_self listed r _).trans (by rw [listedRegion])
    rw [linkedRegion]
    rfl
  refine ⟨(((createdMoves.trans listedActs.toMoves).trans pagedMoves).trans linkedActs.toMoves).trans linkedMoves,
    fun ready => ?_⟩
  have core : (linked.modifyRegion r fun region => { region with attached := some [] }).core =
      (((k.newRegion (blankRegion name start user writable executable)).modifyRegion
        k.core.vmemRegions.count fun region => { region with pages := some [] }).modifyRegion
        k.core.vmemRegions.count fun region => { region with attached := some [] }).core := by
    rw [Kernel.modifyRegion, linkedCore, Kernel.modifyRegion, listedCore, isCreated, isR]
    rfl
  exact (ready.record _).of_core core

end RegionRecord

/-! ## Identifiers -/

/-- `id_mapper_add` is not seen on the lists, whether it succeeds or not. -/
theorem idMapperAdd_acts {mapper : MapperField} (quiet : Quiet P kalloc) (mode : P k.alloc)
    (edit : ∀ {k : Kernel}, P k.alloc → ∀ change, Acts P (fun s => s) k (mapper.modify change k))
    (val : Nat) : Acts P (fun s => s) k (idMapperAdd kalloc mapper val k).2 := by
  have called := Acts.call quiet mode sizeofIdMapperEntry
  unfold idMapperAdd
  dsimp only
  split
  · exact called
  · have drawn := called.trans (edit called.mode fun m => { m with next := wrap (m.next + 1) })
    generalize mapper.modify (fun m => { m with next := wrap (m.next + 1) })
      (kalloc sizeofIdMapperEntry k).2 = counted at drawn ⊢
    generalize (mapper.get (kalloc sizeofIdMapperEntry k).2).next = id
    have added : Acts P (fun s => s) k (linkedlistAppend kalloc mapper.list (id, val) counted).2 := by
      have node := drawn.trans (Acts.call quiet drawn.mode sizeofLinkedlistNode)
      exact linkedlistAppend_snd drawn node
        (node.trans (edit node.mode fun m => { m with list := m.list.map (· ++ [(id, val)]) }))
    split <;> exact added

theorem Acts.setRegionId (mode : P k.alloc) (r id : Nat) :
    Acts P (fun s => s) k (k.modifyRegion r fun region => { region with vmemRegionId := id }) := by
  refine Acts.modifyRegion mode ?_ (fun some => some) (fun some => some)
  rw [space_modifyRegion]
  simp only [Kernel.space]
  rw [space_update_region (fun region => region.pages.items), space_update_region (·.start),
    space_update_region (fun region => region.attached.items), space_update_region (·.allocatedSize),
    space_update_region (·.size)]

/-- An edit of an address space that touches neither lists nor page table. -/
theorem Acts.relabel {change : Vmem → Vmem} (mode : P k.alloc)
    (native : (change (k.vmem v)).nativeVmem = (k.vmem v).nativeVmem)
    (map : (change (k.vmem v)).map = (k.vmem v).map)
    (regions : (change (k.vmem v)).regions = (k.vmem v).regions) :
    Acts P (fun s => s) k (k.modifyVmem v change) := by
  refine Acts.modifyVmem mode ?_ native map (by rw [regions]; exact fun some => some)
  rw [space_modifyVmem, map, regions]
  have regions' : Function.update k.space.regions v (k.vmem v).regions.items = k.space.regions :=
    Function.update_eq_self v k.space.regions
  have map' : Function.update k.space.map v (k.vmem v).map.items = k.space.map :=
    Function.update_eq_self v k.space.map
  rw [regions', map']

/-! ## Regions -/

/-- A start and a size without wrap. -/
structure CreateFits (k : Kernel) (v start size : Nat) : Prop where
  noWrap : size + 4095 < 2 ^ 64
  range : (placeRegion v start k).1 + alignNext size systemPageSize ≤ 2 ^ 64

theorem placeRegion_acts (mode : P k.alloc) (v start : Nat) :
    Acts P (fun s => s) k (placeRegion v start k).2 := by
  unfold placeRegion
  split
  · exact Acts.relabel mode rfl rfl rfl
  · exact Acts.refl mode

/-- What creations are made of, on states with the invariant `I`: steps the lists do not show, new
objects, attachments and growth.  A new region has to fit its place. -/
structure Builds (P : Allocator → Prop) (kalloc : Kalloc) (I : Kernel → Prop) (Fits : Nat → Nat → Prop) :
    Prop where
  mode : ∀ {k}, I k → P k.alloc
  known : ∀ {k}, I k → ∀ v, ∀ r ∈ k.space.regions v, r < k.core.vmemRegions.count
  still : ∀ {k k'}, I k → Acts P (fun s => s) k k' → I k'
  newVmem : ∀ {k k'}, I k → Acts P Space.newVmem k k' → I k'
  newRegion : ∀ {k k' start size}, I k → start % 4096 = 0 → Fits start size →
    Acts P (Space.newRegion start) k k' → I k'
  attach : ∀ {k v r}, I k → v < k.core.vmems.count → r < k.core.vmemRegions.count →
    Served (vmemAttach kalloc (some v) (some r) k).2.alloc.blocks →
    (vmemAttach kalloc (some v) (some r) k).1 = true ∧
      Acts P (Space.join v r) k (vmemAttach kalloc (some v) (some r) k).2 ∧
      I (vmemAttach kalloc (some v) (some r) k).2
  resize : ∀ {k r size}, I k → r < k.core.vmemRegions.count → Fits (k.region r).start size →
    Served (vmemRegionResize kalloc (some r) size k).2.alloc.blocks →
    I (vmemRegionResize kalloc (some r) size k).2

section Builds

variable {I : Kernel → Prop} {Fits : Nat → Nat → Prop}

/-- What `vmem_region_create` does once the object is there. -/
theorem Builds.region_of_object (builds : Builds P kalloc I Fits) (quiet : Quiet P kalloc) (holds : I k)
    {name : String} {start size : Nat} {user writable executable : Bool}
    (known : v < k.core.vmems.count) (aligned : start % 4096 = 0) (fits : Fits start size)
    {record : Kernel} {r : Nat}
    (isRecord : record = regionRecord kalloc name start user writable executable k)
    (isR : r = k.core.vmemRegions.count)
    {linked resized : Bool × Kernel} (isLinked : linked = vmemAttach kalloc (some v) (some r) record)
    (isResized : resized = vmemRegionResize kalloc (some r) size linked.2)
    {last : Kernel} (isLast : last = linked.2 ∧ linked.1 = false ∨
      linked.1 = true ∧ AnyPath kalloc resized.2 last) (served : Served last.alloc.blocks) :
    linked.1 = true ∧ I resized.2 := by
  have resizedPath : AnyPath kalloc linked.2 resized.2 := by
    rw [isResized]
    exact vmemRegionResize_path (some r) (fun r _ => Set.mem_univ r) size linked.2
  have linkedPath : AnyPath kalloc record linked.2 := by
    rw [isLinked]
    exact vmemAttach_path (some v) (some r) record
  have recordMode : P record.alloc := by
    rw [isRecord]
    exact (quiet.along (regionRecord_recordPath name start user writable executable k (Nat.zero_le _)).path
      (builds.mode holds)).1
  have linkedMode := (quiet.along linkedPath recordMode).1
  have linkedServed : Served linked.2.alloc.blocks := by
    rcases isLast with ⟨same, -⟩ | ⟨-, path⟩
    · rw [← same]
      exact served
    · exact quiet.served_before (resizedPath.trans path) linkedMode served
  have recordActs : Acts P (Space.newRegion start) k record := by
    have before := quiet.served_before linkedPath recordMode linkedServed
    rw [isRecord] at before ⊢
    exact regionRecord_acts quiet (builds.mode holds) before
  have recorded := builds.newRegion holds aligned fits recordActs
  have recordKnown : r < record.core.vmemRegions.count := by
    have grown : record.space.regionCount = k.space.regionCount + 1 := by
      rw [recordActs.space]
      rfl
    have grown' : record.core.vmemRegions.count = k.core.vmemRegions.count + 1 := grown
    omega
  have recordKnownV : v < record.core.vmems.count := by
    rw [recordActs.vmemCount rfl]
    exact known
  have attach := builds.attach recorded recordKnownV recordKnown (by rw [← isLinked]; exact linkedServed)
  rw [← isLinked] at attach
  obtain ⟨done, attachActs, attached⟩ := attach
  have resizedServed : Served resized.2.alloc.blocks := by
    rcases isLast with ⟨-, failed⟩ | ⟨-, path⟩
    · rw [done] at failed
      cases failed
    · exact quiet.served_before path (quiet.along resizedPath linkedMode).1 served
  have linkedStart : (linked.2.region r).start = start := by
    have unmoved : linked.2.space.start r = record.space.start r := by
      rw [attachActs.space, (Space.join_region v r _).2.1]
    have fresh : record.space.start r = start := by
      rw [recordActs.space, Space.newRegion, isR]
      exact Function.update_self _ _ _
    exact unmoved.trans fresh
  have linkedKnown : r < linked.2.core.vmemRegions.count := by
    rw [attachActs.regionCount (Space.join_counts v r _).2]
    exact recordKnown
  have resizing := builds.resize attached linkedKnown (by rw [linkedStart]; exact fits)
    (by rw [← isResized]; exact resizedServed)
  rw [← isResized] at resizing
  exact ⟨done, resizing⟩

theorem Builds.vmemRegionCreate (builds : Builds P kalloc I Fits) (quiet : Quiet P kalloc) (holds : I k)
    {vmem : Option Nat} {name : Option String} {start size : Nat} {user writable executable : Bool}
    (known : ∀ v ∈ vmem, v < k.core.vmems.count) (fits : ∀ v ∈ vmem, Fits (placeRegion v start k).1 size)
    (served : Served (vmemRegionCreate kalloc vmem name start size user writable executable
      k).2.alloc.blocks) :
    I (vmemRegionCreate kalloc vmem name start size user writable executable k).2 := by
  cases vmem with
  | none => exact holds
  | some v =>
    cases name with
    | none => exact holds
    | some name =>
      have fits' := fits v rfl
      have placeActs := placeRegion_acts (builds.mode holds) v start
      have placed := builds.still holds placeActs
      have count := placeActs.vmemCount rfl
      unfold BubackOS.vmemRegionCreate at served ⊢
      dsimp only at served ⊢
      generalize placeRegion v start k = place at placed fits' count served ⊢
      by_cases misplaced : memAlign place.1 ≠ place.1
      · rw [if_pos misplaced]
        exact placed
      · rw [if_neg misplaced] at served ⊢
        have aligned := (memAlign_eq_iff place.1).mp (not_not.mp misplaced)
        have objectActs := Acts.call quiet (builds.mode placed) sizeofVmemRegion
        have called := builds.still placed objectActs
        have count' := (objectActs.vmemCount rfl).trans count
        generalize kalloc sizeofVmemRegion place.2 = object at called count' served ⊢
        by_cases failed : object.1 = 0
        · rw [if_pos failed]
          exact called
        · rw [if_neg failed] at served ⊢
          generalize isR : object.2.core.vmemRegions.count = r at served ⊢
          generalize isRecord : regionRecord kalloc name place.1 user writable executable object.2 =
            record at served ⊢
          generalize isLinked : vmemAttach kalloc (some v) (some r) record = linked at served ⊢
          generalize isResized : vmemRegionResize kalloc (some r) size linked.2 = resized at served ⊢
          have facts : ∀ last : Kernel, (last = linked.2 ∧ linked.1 = false ∨
              linked.1 = true ∧ AnyPath kalloc resized.2 last) → Served last.alloc.blocks →
              linked.1 = true ∧ I resized.2 := fun last isLast served =>
            builds.region_of_object quiet called (count' ▸ known v rfl) aligned fits' isRecord.symm isR.symm
              isLinked.symm isResized.symm isLast served
          cases linkedDone : linked.1 with
          | false =>
              rw [linkedDone] at served
              exact absurd (facts linked.2 (Or.inl ⟨rfl, linkedDone⟩) served).1 (by simp [linkedDone])
          | true =>
              rw [linkedDone] at served
              simp only [if_true] at served ⊢
              cases resizedDone : resized.1 with
              | false =>
                  rw [resizedDone] at served
                  exact (facts resized.2 (Or.inr ⟨linkedDone, .refl⟩) served).2
              | true =>
                  rw [resizedDone] at served
                  simp only [if_true] at served ⊢
                  have idPath : AnyPath kalloc resized.2 (idMapperAdd kalloc vmemRegionMapper r
                    resized.2).2 := Path.idMapperAdd (fun change k => .regionIds change k) r resized.2
                  have idServed : Served (idMapperAdd kalloc vmemRegionMapper r resized.2).2.alloc.blocks := by
                    split at served <;> exact served
                  have grown := (facts _ (Or.inr ⟨linkedDone, idPath⟩) idServed).2
                  have identified := idMapperAdd_acts quiet (builds.mode grown) Acts.regionIds r
                  have labelled := Acts.setRegionId identified.mode r
                    (idMapperAdd kalloc vmemRegionMapper r resized.2).1
                  have named := builds.still grown (identified.trans labelled)
                  split <;> exact named

end Builds

/-! ## The record of an address space -/

/-- An address space as `vmem_create` fills it in. -/
def blankVmem : Vmem := { Vmem.zero with nextStartAddress := regionAddressIncrement }

/-- The objects after the record of an address space. -/
def Kernel.withVmem (k : Kernel) : Kernel :=
  ((k.newVmem blankVmem).modifyVmem k.core.vmems.count fun vmem => { vmem with regions := some [] }).modifyVmem
    k.core.vmems.count fun vmem => { vmem with map := some [] }

theorem withVmem_vmem_self (k : Kernel) :
    k.withVmem.vmem k.core.vmems.count = { blankVmem with regions := some [], map := some [] } := by
  rw [Kernel.withVmem, Kernel.vmem_modifyVmem_self, Kernel.vmem_modifyVmem_self]
  have created : (k.newVmem blankVmem).vmem k.core.vmems.count = blankVmem := Store.new_get_self _ _
  rw [created]

theorem withVmem_vmem_of_ne {w : Nat} (other : w ≠ k.core.vmems.count) : k.withVmem.vmem w = k.vmem w := by
  rw [Kernel.withVmem, Kernel.vmem_modifyVmem_of_ne other, Kernel.vmem_modifyVmem_of_ne other]
  exact Store.new_get_of_ne other

theorem withVmem_space (k : Kernel) : k.withVmem.space = k.space.newVmem := by
  have pointwise : ∀ {α : Type} (field : Vmem → List α),
      field { blankVmem with regions := some [], map := some [] } = [] →
      (fun w => field (k.withVmem.vmem w)) =
        Function.update (fun w => field (k.vmem w)) k.space.vmemCount [] := by
    intro α field empty
    funext w
    by_cases same : w = k.core.vmems.count
    · rw [same, withVmem_vmem_self, empty]
      simp [Kernel.space]
    · rw [withVmem_vmem_of_ne same, Function.update_of_ne (by exact same)]
  simp only [Kernel.space] at pointwise ⊢
  rw [pointwise (fun vmem => vmem.regions.items) rfl, pointwise (fun vmem => vmem.map.items) rfl]
  rfl

theorem vmemRecord_facts (quiet : Quiet P kalloc) (mode : P k.alloc)
    (served : Served (vmemRecord kalloc k).alloc.blocks) :
    (vmemRecord kalloc k).core = k.withVmem.core ∧
      (Sound (vmemRecord kalloc k).alloc.blocks → Mirror k →
        MirrorOn k.vmemSet (vmemRecord kalloc k)) := by
  obtain ⟨v, isV⟩ : ∃ v, v = k.core.vmems.count := ⟨_, rfl⟩
  obtain ⟨created, isCreated⟩ : ∃ created, created = k.newVmem blankVmem := ⟨_, rfl⟩
  obtain ⟨regions, isRegions⟩ : ∃ regions,
    regions = linkedlistCreate (α := Nat) kalloc created := ⟨_, rfl⟩
  obtain ⟨listed, isListed⟩ : ∃ listed,
    listed = regions.2.modifyVmem v fun vmem => { vmem with regions := regions.1 } := ⟨_, rfl⟩
  obtain ⟨map, isMap⟩ : ∃ map, map = linkedlistCreate (α := VmemMap) kalloc listed := ⟨_, rfl⟩
  have result : vmemRecord kalloc k = map.2.modifyVmem v fun vmem => { vmem with map := map.1 } := by
    rw [isMap, isListed, isRegions, isCreated, isV]
    rfl
  rw [result] at served ⊢
  have served' : Served map.2.alloc.blocks := served
  have createdMode : P created.alloc := by
    rw [isCreated]
    exact mode
  have regionsLog : P regions.2.alloc ∧ created.alloc.blocks <:+ regions.2.alloc.blocks := by
    rw [isRegions]
    exact quiet.along (linkedlistCreate_tablePath created).path createdMode
  have listedMode : P listed.alloc := by
    rw [isListed]
    exact regionsLog.1
  have mapLog : listed.alloc.blocks <:+ map.2.alloc.blocks := by
    rw [isMap]
    exact (quiet.along (linkedlistCreate_tablePath listed).path listedMode).2
  have regionsServed : Served regions.2.alloc.blocks := by
    have before := served'.of_suffix mapLog
    rw [isListed] at before
    exact before
  have regionsEq : regions = (some [], (kalloc sizeofLinkedlist created).2) := by
    rw [isRegions]
    exact linkedlistCreate_served quiet createdMode (by rw [← isRegions]; exact regionsServed)
  have mapEq : map = (some [], (kalloc sizeofLinkedlist listed).2) := by
    rw [isMap]
    exact linkedlistCreate_served quiet listedMode (by rw [← isMap]; exact served')
  have listedCore : listed.core = ((k.newVmem blankVmem).modifyVmem v
      fun vmem => { vmem with regions := some [] }).core := by
    rw [isListed, regionsEq, Kernel.modifyVmem]
    dsimp only
    rw [quiet.core _ created createdMode, isCreated]
    rfl
  refine ⟨?_, fun sound mirror => ?_⟩
  · rw [mapEq, Kernel.modifyVmem]
    dsimp only
    rw [quiet.core _ listed listedMode, listedCore, Kernel.withVmem, isV]
    rfl
  · have other : ∀ w ∈ k.vmemSet, w ≠ v := fun w member same =>
      absurd (show w < k.core.vmems.count from member) (by omega)
    have soundMap : Sound map.2.alloc.blocks := sound
    have soundListed := soundMap.of_suffix mapLog
    have soundRegions : Sound regions.2.alloc.blocks := by
      rw [isListed] at soundListed
      exact soundListed
    have first : MirrorOn k.vmemSet created := by
      rw [isCreated]
      refine MirrorOn.of_same mirror rfl rfl (fun w member => ?_) fun w member => ?_
      · exact congrArg Vmem.nativeVmem (Store.new_get_of_ne (isV ▸ other w member))
      · exact congrArg (fun vmem => vmem.map.items) (Store.new_get_of_ne (isV ▸ other w member))
    have second : MirrorOn k.vmemSet regions.2 := by
      rw [regionsEq] at soundRegions ⊢
      exact first.call quiet createdMode soundRegions
    have third : MirrorOn k.vmemSet listed := by
      rw [isListed]
      refine second.of_same rfl rfl (fun w member => ?_) fun w member => ?_
      · exact congrArg Vmem.nativeVmem (Kernel.vmem_modifyVmem_of_ne (other w member))
      · exact congrArg (fun vmem => vmem.map.items) (Kernel.vmem_modifyVmem_of_ne (other w member))
    have fourth : MirrorOn k.vmemSet map.2 := by
      rw [mapEq] at soundMap ⊢
      exact third.call quiet listedMode soundMap
    refine fourth.of_same rfl rfl (fun w member => ?_) fun w member => ?_
    · exact congrArg Vmem.nativeVmem (Kernel.vmem_modifyVmem_of_ne (other w member))
    · exact congrArg (fun vmem => vmem.map.items) (Kernel.vmem_modifyVmem_of_ne (other w member))

theorem space_of_core (core : k'.core = k.core) : k'.space = k.space := by
  simp only [Kernel.space, Kernel.vmem, Kernel.region, core]

theorem withVmem_ready (ready : Ready k) : Ready k.withVmem := by
  refine ⟨fun w bound => ?_, ready.regions⟩
  by_cases same : w = k.core.vmems.count
  · rw [same, withVmem_vmem_self]
    exact ⟨rfl, rfl⟩
  · rw [withVmem_vmem_of_ne same]
    have count : w < k.core.vmems.count + 1 := bound
    exact ready.vmems w (by omega)

theorem nativeVmemCreate_onlyNative (quiet : Quiet P kalloc) (mode : P k.alloc)
    (served : Served (nativeVmemCreate kalloc v k).2.alloc.blocks) :
    OnlyNative v k (nativeVmemCreate kalloc v k).2 := by
  rw [nativeVmemCreate_of_present quiet mode served]
  have mode' := quiet.stays sizeofNativePageTable k mode
  have mode'' := quiet.stays sizeofLinkedlist _ mode'
  have core : (kalloc sizeofLinkedlist (kalloc sizeofNativePageTable k).2).2.core = k.core :=
    (quiet.core _ _ mode').trans (quiet.core _ k mode)
  have blank : OnlyNative v k (blankTable kalloc v k) :=
    (OnlyNative.of_core core).trans (OnlyNative.modifyNative _ v _)
  have modeBlank : P (blankTable kalloc v k).alloc := by
    rw [blankTable_alloc]
    exact mode''
  have entries := blank.trans (createEntries_onlyNative quiet modeBlank)
  exact (entries.trans (OnlyNative.modifyNative _ v _)).trans (OnlyNative.modifyNative _ v _)

/-- A new address space with its page table is one operation. -/
theorem addressSpace_acts (quiet : Quiet P kalloc) (mode : P k.alloc) {made : Bool × Kernel}
    (isMade : made = nativeVmemCreate kalloc k.core.vmems.count (vmemRecord kalloc k))
    (served : Served made.2.alloc.blocks) :
    made.1 = true ∧ Acts P Space.newVmem k made.2 := by
  obtain ⟨record, isRecord⟩ : ∃ record, record = vmemRecord kalloc k := ⟨_, rfl⟩
  have recordAlong : P record.alloc ∧ k.alloc.blocks <:+ record.alloc.blocks := by
    rw [isRecord]
    exact quiet.along (vmemRecord_recordPath k (Nat.zero_le _)).path mode
  rw [← isRecord] at isMade
  have madeAlong : P made.2.alloc ∧ record.alloc.blocks <:+ made.2.alloc.blocks := by
    rw [isMade]
    exact quiet.along (nativeVmemCreate_tablePath _ record).path recordAlong.1
  obtain ⟨core, recordMirror⟩ := vmemRecord_facts quiet mode
    (by rw [← isRecord]; exact served.of_suffix madeAlong.2)
  rw [← isRecord] at core recordMirror
  have only : OnlyNative k.core.vmems.count record made.2 := by
    rw [isMade] at served ⊢
    exact nativeVmemCreate_onlyNative quiet recordAlong.1 served
  have space : made.2.space = k.space.newVmem := by
    rw [only.space, space_of_core core, withVmem_space]
  have map : ∀ w, (made.2.vmem w).map = (k.withVmem.vmem w).map := by
    intro w
    rw [only.map, Kernel.vmem, core]
    rfl
  have count : made.2.core.vmems.count = k.core.vmems.count + 1 :=
    congrArg Space.vmemCount space
  have old : ∀ w, w < k.core.vmems.count → (made.2.vmem w).map = (k.vmem w).map := by
    intro w bound
    rw [map, withVmem_vmem_of_ne (by omega)]
  refine ⟨?_, ⟨⟨madeAlong.1, recordAlong.2.trans madeAlong.2, space, ?_, ?_⟩, ?_⟩⟩
  · rw [isMade] at served ⊢
    rw [nativeVmemCreate_of_present quiet recordAlong.1 served]
  · intro low w bound
    rw [← old w bound]
    exact low w (by omega)
  · intro sound _ mirror
    have before := recordMirror (sound.of_suffix madeAlong.2) mirror
    have fresh : FreshSpace k.vmemSet ∅ k.core.vmems.count record made.2 := by
      rw [isMade] at sound ⊢
      exact nativeVmemCreate_fresh quiet recordAlong.1 before.intact (Nat.lt_irrefl _) sound
    have all : made.2.vmemSet = insert k.core.vmems.count k.vmemSet := by
      ext w
      rw [Kernel.vmemSet, count, Set.mem_insert_iff]
      exact Nat.lt_succ_iff_lt_or_eq.trans or_comm
    rw [Mirror, all]
    refine ⟨fresh.intact, ?_, ?_⟩
    · rintro w (rfl | member)
      · exact fresh.root
      · exact fresh.roots w member (before.rooted w member)
    · rintro w (rfl | member) a lowA
      · rw [fresh.empty, map, withVmem_vmem_self]
        rfl
      · rw [fresh.walks w member (before.rooted w member), before.walks w member a lowA, map,
          Kernel.vmem, core]
        rfl
  · intro ready
    exact only.ready ((withVmem_ready ready).of_core core)

/-! ## Address spaces -/

section Builds

variable {I : Kernel → Prop} {Fits : Nat → Nat → Prop}

theorem Builds.attachRegions (builds : Builds P kalloc I Fits) (quiet : Quiet P kalloc) (v : Nat) (rs : List Nat) :
    ∀ k : Kernel, I k → v < k.core.vmems.count → (∀ r ∈ rs, r < k.core.vmemRegions.count) →
      Served (attachRegions kalloc v rs k).2.alloc.blocks →
      (attachRegions kalloc v rs k).1 = true ∧ I (attachRegions kalloc v rs k).2 := by
  induction rs with
  | nil => exact fun k holds _ _ _ => ⟨rfl, holds⟩
  | cons r rest ih =>
      intro k holds knownV known served
      obtain ⟨attached, isAttached⟩ : ∃ attached,
        attached = vmemAttach kalloc (some v) (some r) k := ⟨_, rfl⟩
      have unfolded : BubackOS.attachRegions kalloc v (r :: rest) k =
          if attached.1 then BubackOS.attachRegions kalloc v rest attached.2 else (false, attached.2) := by
        rw [isAttached]
        rfl
      have attachedMode : P attached.2.alloc := by
        rw [isAttached]
        exact (quiet.along (vmemAttach_path (some v) (some r) k) (builds.mode holds)).1
      rw [unfolded] at served ⊢
      have attachedServed : Served attached.2.alloc.blocks := by
        split at served
        · exact quiet.served_before (attachRegions_path v rest attached.2) attachedMode served
        · exact served
      have attach := builds.attach holds knownV (known r List.mem_cons_self)
        (by rw [← isAttached]; exact attachedServed)
      rw [← isAttached] at attach
      obtain ⟨done, acts, holds'⟩ := attach
      rw [if_pos done] at served ⊢
      have counts := k.space.join_counts v r
      exact ih attached.2 holds' (by rw [acts.vmemCount counts.1]; exact knownV)
        (fun s member => by rw [acts.regionCount counts.2]; exact known s (List.mem_cons_of_mem r member)) served

theorem Builds.kernelRegions (builds : Builds P kalloc I Fits) (holds : I k) :
    ∀ r ∈ k.kernelRegions, r < k.core.vmemRegions.count := by
  intro r member
  unfold Kernel.kernelRegions at member
  cases kernel : k.core.kernelVmem with
  | none =>
      rw [kernel] at member
      exact absurd member (List.not_mem_nil)
  | some w =>
      rw [kernel] at member
      exact builds.known holds w r member

/-- The stages of `vmem_create` when no allocation fails. -/
theorem Builds.vmemCreate_stages (builds : Builds P kalloc I Fits) (quiet : Quiet P kalloc) (holds : I k)
    (served : Served (vmemCreate kalloc k).2.alloc.blocks) {object : Nat × Kernel} {made attached : Bool × Kernel}
    (isObject : object = kalloc sizeofVmem k)
    (isMade : made = nativeVmemCreate kalloc object.2.core.vmems.count (vmemRecord kalloc object.2))
    (isAttached : attached = BubackOS.attachRegions kalloc object.2.core.vmems.count made.2.kernelRegions made.2) :
    object.1 ≠ 0 ∧ made.1 = true ∧ attached.1 = true ∧ I attached.2 := by
  have called : I object.2 := by
    rw [isObject]
    exact builds.still holds (Acts.call quiet (builds.mode holds) sizeofVmem)
  have result : vmemCreate kalloc k =
      if object.1 = 0 then (none, object.2)
      else if made.1 then
        if attached.1 then
          let id := idMapperAdd kalloc vmemIdMapper object.2.core.vmems.count attached.2
          let named := id.2.modifyVmem object.2.core.vmems.count fun vmem => { vmem with vmemId := id.1 }
          if id.1 = 0 then (none, named) else (some object.2.core.vmems.count, named)
        else (none, attached.2)
      else (none, made.2) := by
    rw [isAttached, isMade, isObject]
    rfl
  have logged : object.2.alloc.blocks = { addr := object.1, size := sizeofVmem } :: k.alloc.blocks := by
    rw [isObject]
    exact quiet.logged sizeofVmem k (builds.mode holds)
  have present : object.1 ≠ 0 := by
    intro failed
    rw [result, if_pos failed, logged] at served
    exact served _ List.mem_cons_self failed
  rw [result, if_neg present] at served
  have madeMode : P made.2.alloc := by
    rw [isMade]
    exact (quiet.along ((vmemRecord_recordPath object.2 (Nat.zero_le _)).path.trans
      (nativeVmemCreate_tablePath _ _).path) (builds.mode called)).1
  have attachedPath : AnyPath kalloc made.2 attached.2 := by
    rw [isAttached]
    exact attachRegions_path _ made.2.kernelRegions made.2
  have attachedMode := (quiet.along attachedPath madeMode).1
  have idPath : AnyPath kalloc attached.2
      (idMapperAdd kalloc vmemIdMapper object.2.core.vmems.count attached.2).2 :=
    Path.idMapperAdd (fun change k => .vmemIds change k) _ attached.2
  -- the calls of the stages that were reached succeeded
  have stages : Served made.2.alloc.blocks ∧ (made.1 = true → Served attached.2.alloc.blocks) := by
    split at served
    · split at served
      · have last : Served (idMapperAdd kalloc vmemIdMapper object.2.core.vmems.count attached.2).2.alloc.blocks := by
          dsimp only at served
          split at served <;> exact served
        have attachedServed := quiet.served_before idPath attachedMode last
        exact ⟨quiet.served_before attachedPath madeMode attachedServed, fun _ => attachedServed⟩
      · exact ⟨quiet.served_before attachedPath madeMode served, fun _ => served⟩
    · rename_i stopped
      exact ⟨served, fun done => absurd done stopped⟩
  obtain ⟨done, acts⟩ := addressSpace_acts quiet (builds.mode called) isMade stages.1
  have made' := builds.newVmem called acts
  have knownV : object.2.core.vmems.count < made.2.core.vmems.count := by
    have count : made.2.space.vmemCount = object.2.space.vmemCount + 1 := by
      rw [acts.space]
      rfl
    have count' : made.2.core.vmems.count = object.2.core.vmems.count + 1 := count
    omega
  have attach := builds.attachRegions quiet _ made.2.kernelRegions made.2 made' knownV
    (builds.kernelRegions made') (by rw [← isAttached]; exact stages.2 done)
  rw [← isAttached] at attach
  exact ⟨present, done, attach⟩

theorem Builds.vmemCreate (builds : Builds P kalloc I Fits) (quiet : Quiet P kalloc) (holds : I k)
    (served : Served (vmemCreate kalloc k).2.alloc.blocks) : I (vmemCreate kalloc k).2 := by
  obtain ⟨object, isObject⟩ : ∃ object, object = kalloc sizeofVmem k := ⟨_, rfl⟩
  obtain ⟨made, isMade⟩ : ∃ made,
    made = nativeVmemCreate kalloc object.2.core.vmems.count (vmemRecord kalloc object.2) := ⟨_, rfl⟩
  obtain ⟨attached, isAttached⟩ : ∃ attached,
    attached = BubackOS.attachRegions kalloc object.2.core.vmems.count made.2.kernelRegions made.2 := ⟨_, rfl⟩
  obtain ⟨present, done, complete, holds'⟩ :=
    builds.vmemCreate_stages quiet holds served isObject isMade isAttached
  have identified := idMapperAdd_acts quiet (builds.mode holds') Acts.vmemIds object.2.core.vmems.count
  have labelled : Acts P (fun s => s)
      (idMapperAdd kalloc vmemIdMapper object.2.core.vmems.count attached.2).2
      ((idMapperAdd kalloc vmemIdMapper object.2.core.vmems.count attached.2).2.modifyVmem
        object.2.core.vmems.count fun vmem =>
          { vmem with vmemId := (idMapperAdd kalloc vmemIdMapper object.2.core.vmems.count attached.2).1 }) :=
    Acts.relabel identified.mode rfl rfl rfl
  have named := builds.still holds' (identified.trans labelled)
  unfold BubackOS.vmemCreate
  dsimp only
  rw [← isObject, if_neg present, ← isMade, if_pos done, ← isAttached, if_pos complete]
  split <;> exact named

end Builds

/-! ## Creations refine the operations on the lists -/

/-- A start and a size without wrap. -/
def Placeable (start size : Nat) : Prop :=
  size + 4095 < 2 ^ 64 ∧ start + alignNext size systemPageSize ≤ 2 ^ 64

/-- States that an orderly state reaches by operations on the lists. -/
theorem refines_builds (quiet : Quiet P kalloc) (k₀ : Kernel) :
    Builds P kalloc (fun k => Refines P k₀ k ∧ Orderly k) Placeable where
  mode := fun holds => holds.1.mode
  known := fun holds v r member => (holds.2.coherent.known v r member).2
  still := fun holds acts => ⟨holds.1.trans (.of_still acts), (Refines.of_still acts).orderly holds.2⟩
  newVmem := fun holds acts =>
    have step := Refines.of_step acts (.newVmem _)
    ⟨holds.1.trans step, step.orderly holds.2⟩
  newRegion := fun holds aligned fits acts =>
    have step := Refines.of_step acts (.newRegion aligned (Nat.le_trans (Nat.le_add_right _ _) fits.2))
    ⟨holds.1.trans step, step.orderly holds.2⟩
  attach := by
    intro k v r holds knownV knownR served
    obtain ⟨done, acts⟩ := vmemAttach_acts quiet holds.1.mode holds.2 knownV knownR served
    have step := Refines.of_step acts (.attach knownV knownR)
    exact ⟨done, acts.congr (holds.2.join_eq knownR v).symm, holds.1.trans step, step.orderly holds.2⟩
  resize := by
    intro k r size holds known fits served
    have step := vmemRegionResize_refines (some r) size quiet holds.1.mode holds.2
      (by rintro _ ⟨⟩; exact known) (by rintro _ ⟨⟩; exact ⟨fits.1, fits.2⟩) served
    exact ⟨holds.1.trans step, step.orderly holds.2⟩

theorem vmemRegionCreate_refines (quiet : Quiet P kalloc) (mode : P k.alloc) (orderly : Orderly k)
    {vmem : Option Nat} {name : Option String} {start size : Nat} {user writable executable : Bool}
    (known : ∀ v ∈ vmem, v < k.core.vmems.count) (fits : ∀ v ∈ vmem, CreateFits k v start size)
    (served : Served (vmemRegionCreate kalloc vmem name start size user writable executable
      k).2.alloc.blocks) :
    Refines P k (vmemRegionCreate kalloc vmem name start size user writable executable k).2 :=
  ((refines_builds quiet k).vmemRegionCreate quiet ⟨Refines.refl mode, orderly⟩ known
    (fun v isV => ⟨(fits v isV).noWrap, (fits v isV).range⟩) served).1

theorem vmemCreate_refines (quiet : Quiet P kalloc) (mode : P k.alloc) (orderly : Orderly k)
    (served : Served (vmemCreate kalloc k).2.alloc.blocks) : Refines P k (vmemCreate kalloc k).2 :=
  ((refines_builds quiet k).vmemCreate quiet ⟨Refines.refl mode, orderly⟩ served).1

end BubackOS
