import BubackOS.Core.RegionRanges

/-!
# Creating regions with enough memory

In an address space that has its lists `vmem_region_create` returns a new region at every
start address it does not refuse, as long as no request for memory fails.
-/

namespace BubackOS

open Library

variable {k k' : Kernel} {v r start : Nat}

/-- Regions can be created in the address space: it exists and has its lists, and the mapper of the regions
has its list and has not run out of identifiers. -/
structure Hosts (v : Nat) (k : Kernel) : Prop where
  known : v < k.core.vmems.count
  regions : (k.vmem v).regions.isSome
  map : (k.vmem v).map.isSome
  ids : k.core.vmemRegionMapper.list.isSome
  next : k.core.vmemRegionMapper.next ≠ 0

instance (v : Nat) (k : Kernel) : Decidable (Hosts v k) :=
  decidable_of_iff (v < k.core.vmems.count ∧ (k.vmem v).regions.isSome ∧ (k.vmem v).map.isSome ∧
      k.core.vmemRegionMapper.list.isSome ∧ k.core.vmemRegionMapper.next ≠ 0)
    ⟨fun ⟨known, regions, map, ids, next⟩ => ⟨known, regions, map, ids, next⟩,
      fun ⟨known, regions, map, ids, next⟩ => ⟨known, regions, map, ids, next⟩⟩

/-- A new region has no pages and is attached to one address space. -/
structure VmemRegion.Fresh (v start : Nat) (region : VmemRegion) : Prop where
  place : region.start = start
  pages : region.pages = some []
  attached : region.attached = some [v]
  allocated : region.allocatedSize = 0

/-- The state in which a new region is attached, with enough memory. -/
structure Attached (v start r : Nat) (k k' : Kernel) : Prop where
  fresh : (k'.region r).Fresh v start
  spares : k'.Spares r
  regions : (k'.vmem v).regions.items = (k.vmem v).regions.items ++ [r]

/-- With enough memory the region is attached. -/
theorem openRegion_attached (referenced : Referenced k) (listed : (k.vmem v).regions.isSome) {name : String}
    {user writable executable : Bool} {opened : Option Nat × Kernel}
    (isOpened : opened = openRegion kalloc v name start user writable executable k) (ample : Ample opened.2) :
    opened.1 = some k.core.vmemRegions.count ∧ Attached v start k.core.vmemRegions.count k opened.2 ∧
      SameIds k opened.2 := by
  obtain ⟨object, isObject⟩ : ∃ object, object = kalloc sizeofVmemRegion k := ⟨_, rfl⟩
  have frame : Frame k object.2 := isObject ▸ kalloc_reliable.frame _ _
  have same : SameIds k object.2 := isObject ▸ kalloc_reliable.sameIds _ _
  obtain ⟨r, isR⟩ : ∃ r, r = object.2.core.vmemRegions.count := ⟨_, rfl⟩
  have count : r = k.core.vmemRegions.count := isR.trans frame.vmemRegions
  obtain ⟨record, isRecord⟩ : ∃ record, record =
    regionRecord kalloc name start user writable executable object.2 := ⟨_, rfl⟩
  obtain ⟨linked, isLinked⟩ : ∃ linked, linked = vmemAttach kalloc (some v) (some r) record := ⟨_, rfl⟩
  have linkedLater : Later record linked.2 := isLinked ▸ kalloc_reliable.laterOf (vmemAttach_path _ _ _)
  have cases := @openRegion_cases kalloc k v name start user writable executable _ isObject linked
    (by rw [isLinked, isRecord, isR])
  rw [← isOpened, ← isR] at cases
  -- there is memory for the record, so the call ends after the attachment
  obtain ⟨present, ends⟩ : object.1 ≠ 0 ∧
      (linked.1 = false ∧ opened = (none, linked.2) ∨ linked.1 = true ∧ opened = (some r, linked.2)) := by
    rcases cases with ⟨failed, result⟩ | rest
    · rw [result] at ample
      rw [isObject] at failed ample
      exact absurd failed (kalloc_reliable.honest _ _ ample.served)
    · exact rest
  have state : opened.2 = linked.2 := by
    rcases ends with ⟨-, result⟩ | ⟨-, result⟩ <;> rw [result]
  have ampleLinked : Ample linked.2 := state ▸ ample
  have other : object.2.core.kernelDataVmemRegion ≠ some r := by
    intro isData
    have older := referenced.data r (frame.kernelData.symm.trans isData)
    omega
  obtain ⟨spares, region, regions⟩ := regionRecord_region (kalloc_reliable.beside r) kalloc_reliable.frame
    kalloc_reliable.honest isR other (isRecord ▸ (ampleLinked.earlier linkedLater).served) v
  rw [← isRecord] at spares region regions
  rw [frame.regions] at regions
  have new : r ∉ (record.vmem v).regions.items := by
    intro member
    rw [regions] at member
    have older : r < k.core.vmemRegions.count := (referenced.well.linked.known v r member).2
    omega
  obtain ⟨done, last, still, attached⟩ := @vmemAttach_of_empty kalloc record v r (kalloc_reliable.beside r)
    kalloc_reliable.frame kalloc_reliable.honest spares new (by rw [regions]; exact listed) (by rw [region]; rfl)
    (by rw [region]; rfl) (isLinked ▸ ampleLinked.served)
  rw [← isLinked] at done last still attached
  rcases ends with ⟨refused, -⟩ | ⟨-, result⟩
  · exact absurd (refused.symm.trans done) Bool.false_ne_true
  rw [result, ← count]
  refine ⟨rfl, ⟨?_, still, by rw [last, regions]⟩, ?_⟩
  · rw [attached, region]
    exact ⟨rfl, rfl, rfl, rfl⟩
  · rw [isLinked, isRecord]
    exact (same.trans (regionRecord_sameIds kalloc_reliable.sameIds _ _ _ _ _ _)).trans
      ((sameIds_attaching kalloc_reliable.sameIds).attach _ _ _)

/-! ## The identifier -/

/-- With memory for the entry and its node the next identifier is drawn. -/
theorem idMapperAdd_next {val : Nat} (listed : k.core.vmemRegionMapper.list.isSome)
    (served : Served (idMapperAdd kalloc vmemRegionMapper val k).2.alloc.blocks) :
    (idMapperAdd kalloc vmemRegionMapper val k).1 = k.core.vmemRegionMapper.next := by
  unfold idMapperAdd at served ⊢
  dsimp only at served ⊢
  have honest := kalloc_reliable.honest sizeofIdMapperEntry k
  have same := kalloc_reliable.sameIds sizeofIdMapperEntry k
  generalize kalloc sizeofIdMapperEntry k = entry at honest same served ⊢
  have present : entry.1 ≠ 0 := by
    intro failed
    rw [if_pos failed] at served
    exact honest served failed
  rw [if_neg present] at served ⊢
  have isNext : (vmemRegionMapper.get entry.2).next = k.core.vmemRegionMapper.next := congrArg IdMapper.next same
  obtain ⟨drawn, isDrawn⟩ : ∃ drawn, drawn =
    vmemRegionMapper.modify (fun m => { m with next := wrap (m.next + 1) }) entry.2 := ⟨_, rfl⟩
  rw [← isDrawn] at served ⊢
  have some : (vmemRegionMapper.list.get drawn).isSome := by
    have kept : entry.2.core.vmemRegionMapper.list.isSome := by rw [same]; exact listed
    rw [isDrawn]
    exact kept
  have appended := @linkedlistAppend_of_served kalloc drawn _ vmemRegionMapper.list
    ((vmemRegionMapper.get entry.2).next, val) kalloc_reliable.honest some
  generalize linkedlistAppend kalloc vmemRegionMapper.list ((vmemRegionMapper.get entry.2).next, val) drawn = added
    at served appended ⊢
  have done : added.1 = true := by
    refine congrArg Prod.fst (appended ?_)
    split at served <;> exact served
  rw [if_pos done]
  exact isNext

/-- Drawing an identifier leaves a region alone that the allocator does not grow. -/
theorem idMapperAdd_spares (val : Nat) (spares : k.Spares r) :
    (idMapperAdd kalloc vmemRegionMapper val k).2.Spares r ∧
      (idMapperAdd kalloc vmemRegionMapper val k).2.region r = k.region r := by
  have steps := @idMapperAdd_steps kalloc (fun k k' => k.Spares r → k'.Spares r ∧ k'.region r = k.region r)
    vmemRegionMapper (fun size k spares =>
      ⟨(kalloc_reliable.beside r size k).spares spares, (kalloc_reliable.beside r size k).region spares⟩)
    (fun _ _ spares => ⟨spares, rfl⟩) val k
  generalize (idMapperAdd kalloc vmemRegionMapper val k).2 = after at steps
  induction steps with
  | refl => exact ⟨spares, rfl⟩
  | tail _ step ih =>
      obtain ⟨still, same⟩ := step ih.1
      exact ⟨still, same.trans ih.2⟩

/-- What follows the attachment of a region that gets no pages. -/
theorem finishRegion_named (fresh : (k.region r).Fresh v start) (spares : k.Spares r)
    (ids : k.core.vmemRegionMapper.list.isSome) (next : k.core.vmemRegionMapper.next ≠ 0)
    (ample : Ample (finishRegion kalloc r 0 k).2) :
    (finishRegion kalloc r 0 k).1 = some r ∧ (finishRegion kalloc r 0 k).2.Spares r ∧
      ((finishRegion kalloc r 0 k).2.region r).Fresh v start := by
  obtain ⟨sized, isSized⟩ : ∃ sized, sized = k.modifyRegion r (adoptSize 0) := ⟨_, rfl⟩
  have resized : vmemRegionResize kalloc (some r) 0 k = (true, sized) := by
    have aligned : alignNext 0 systemPageSize = 0 := rfl
    unfold vmemRegionResize
    dsimp only
    rw [aligned, fresh.allocated, isSized]
    rfl
  have sizedFresh : (sized.region r).Fresh v start := by
    rw [isSized, Kernel.region_modifyRegion_self, adoptSize_eq]
    exact ⟨fresh.place, fresh.pages, fresh.attached, fresh.allocated⟩
  have sizedSpares : sized.Spares r := isSized ▸ spares
  have sizedNext := @idMapperAdd_next sized r (isSized ▸ ids)
  obtain ⟨still, same⟩ := idMapperAdd_spares r sizedSpares
  unfold finishRegion at ample ⊢
  dsimp only at ample ⊢
  rw [resized, if_pos rfl] at ample ⊢
  dsimp only at ample ⊢
  generalize idMapperAdd kalloc vmemRegionMapper r sized = id at sizedNext still same ample ⊢
  have drawn : id.1 = sized.core.vmemRegionMapper.next := by
    refine sizedNext ?_
    split at ample <;> exact ample.served
  have nonzero : id.1 ≠ 0 := by
    rw [drawn, isSized]
    exact next
  rw [if_neg nonzero]
  refine ⟨rfl, still, ?_⟩
  rw [Kernel.region_modifyRegion_self, same]
  exact ⟨sizedFresh.place, sizedFresh.pages, sizedFresh.attached, sizedFresh.allocated⟩

/-! ## A region without pages -/

theorem placeRegion_sameIds (v start : Nat) (k : Kernel) : SameIds k (placeRegion v start k).2 := by
  unfold placeRegion
  split <;> rfl

/-- `vmem_region_create` without a size returns the next region, empty and the last one of its address space. -/
theorem vmemRegionCreate_created (referenced : Referenced k) (hosts : Hosts v k) {name : String}
    {user writable executable : Bool} (aligned : (placeRegion v start k).1 % 4096 = 0) {created : Option Nat × Kernel}
    (isCreated : created = vmemRegionCreate kalloc (some v) (some name) start 0 user writable executable k)
    (ample : Ample created.2) :
    created.1 = some k.core.vmemRegions.count ∧
      Attached v (placeRegion v start k).1 k.core.vmemRegions.count k created.2 := by
  obtain ⟨opened, isOpened⟩ : ∃ opened, opened = openRegion kalloc v name (placeRegion v start k).1 user writable
    executable (placeRegion v start k).2 := ⟨_, rfl⟩
  have frame := placeRegion_frame v start k
  have regions := frame.regions v
  have attaches := @openRegion_attached _ v _ (referenced.of_frame frame) (by rw [regions]; exact hosts.regions)
      name user
    writable executable opened isOpened
  rw [frame.vmemRegions] at attaches
  rcases vmemRegionCreate_cases rfl isOpened with ⟨unaligned, -⟩ | ⟨-, ⟨absent, result⟩ | ⟨r, isR, result⟩⟩
  · exact absurd ((memAlign_eq_iff _).mpr aligned) unaligned
  · rw [isCreated, result] at ample
    have isSome := (attaches ample).1
    rw [absent] at isSome
    cases isSome
  · have finished : created = finishRegion kalloc r 0 opened.2 := isCreated.trans result
    rw [finished] at ample
    obtain ⟨isRegion, attached, ids⟩ := attaches (ample.earlier (kalloc_reliable.laterOf (finishRegion_path r 0 opened.2)))
    obtain rfl := Option.some.inj (isR.symm.trans isRegion)
    have same : opened.2.core.vmemRegionMapper = k.core.vmemRegionMapper :=
      (placeRegion_sameIds v start k).trans ids
    obtain ⟨named, spares, fresh⟩ := finishRegion_named attached.fresh attached.spares (by rw [same]; exact hosts.ids)
      (by rw [same]; exact hosts.next) ample
    obtain ⟨-, last, -⟩ := finishRegion_frame kalloc_reliable.tame (k := opened.2) trivial k.core.vmemRegions.count 0 rfl
    rw [finished]
    refine ⟨named, fresh, spares, ?_⟩
    rw [last.regions, attached.regions, regions]

end BubackOS
