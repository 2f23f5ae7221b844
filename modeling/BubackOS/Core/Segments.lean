import BubackOS.Core.Mapping
import BubackOS.Core.ServiceRuns

/-!
# The segments of a module

A program header becomes a region: the pages of the file first, found in the kernel's map of
the image, then fresh pages up to the size in memory.
-/

namespace BubackOS

open Library

section Paths

variable {kalloc : Kalloc} {k : Kernel} {read : Kernel → Memory}

theorem mapFileContent_path (read : Kernel → Memory) (memoryHandler base ph s : Nat) (k : Kernel) :
    AnyPath kalloc k (mapFileContent kalloc read memoryHandler base ph s k).2 := by
  unfold mapFileContent
  dsimp only
  split
  · exact Relation.ReflTransGen.refl
  · exact vmemRegionMapPhysicalAddress_path (some s) (fun _ _ => Set.mem_univ _) _ _ k

/-- A load that had enough memory had enough for the region. -/
theorem header_created_ample (reliable : Reliable kalloc) {memoryHandler base ph : Nat} {vmem : Option Nat}
    {created : Option Nat × Kernel}
    (isCreated : created = vmemRegionCreate kalloc vmem (some "elf-loader") (programHeader (read k) ph).vaddr 0 true
      (programHeader (read k) ph).writable (programHeader (read k) ph).code k)
    (ample : Ample (allocateProgramHeader kalloc read memoryHandler base ph vmem k).2) : Ample created.2 := by
  unfold allocateProgramHeader at ample
  dsimp only at ample
  rw [← isCreated] at ample
  cases isRegion : created.1 with
  | none =>
      rw [isRegion] at ample
      exact ample
  | some s =>
      rw [isRegion] at ample
      dsimp only at ample
      have mappedLater : Later created.2 (BubackOS.mapFileContent kalloc read memoryHandler base ph s created.2).2 :=
        reliable.laterOf (mapFileContent_path read memoryHandler base ph s created.2)
      generalize BubackOS.mapFileContent kalloc read memoryHandler base ph s created.2 = mapped at mappedLater ample
      have resizeLater : Later mapped.2 (vmemRegionResize kalloc (some s)
          (programHeader (read mapped.2) ph).memSize mapped.2).2 :=
        reliable.laterOf (vmemRegionResize_path (some s) (fun _ _ => Set.mem_univ _) _ _)
      exact (ample.earlier (Later.branch resizeLater (Later.refl _))).earlier mappedLater

theorem allocateProgramHeader_path (read : Kernel → Memory) (memoryHandler base ph : Nat) (vmem : Option Nat)
    (k : Kernel) : AnyPath kalloc k (allocateProgramHeader kalloc read memoryHandler base ph vmem k).2 := by
  unfold allocateProgramHeader
  dsimp only
  have created : AnyPath kalloc k (vmemRegionCreate kalloc vmem (some "elf-loader") (programHeader (read k) ph).vaddr
      0 true (programHeader (read k) ph).writable (programHeader (read k) ph).code k).2 :=
    vmemRegionCreate_path _ _ _ _ _ _ _ k fun _ _ => ⟨Nat.zero_le _, Set.mem_univ _⟩
  generalize vmemRegionCreate kalloc vmem (some "elf-loader") (programHeader (read k) ph).vaddr 0 true
    (programHeader (read k) ph).writable (programHeader (read k) ph).code k = region at created ⊢
  split
  · exact created
  · rename_i s _
    have mapped := created.trans (mapFileContent_path read memoryHandler base ph s region.2)
    generalize mapFileContent kalloc read memoryHandler base ph s region.2 = content at mapped ⊢
    split
    · exact mapped.trans (vmemRegionResize_path (some s) (fun _ _ => Set.mem_univ _) _ content.2)
    · exact mapped

end Paths

/-- The pages that hold so many bytes. -/
def pageCount (size : Nat) : Nat := (size + 4095) / 4096

/-- Pages of consecutive addresses in the map of an address space. -/
structure Imaged (h base paddr count : Nat) (k : Kernel) : Prop where
  aligned : base % 4096 = 0
  paged : paddr % 4096 = 0
  room : base + 4096 * count ≤ 2 ^ 64
  entries : ∀ i < count, ∃ entry ∈ (k.vmem h).map.items,
    entry.virtualAddr = base + 4096 * i ∧ entry.physicalAddr = paddr + 4096 * i

variable {k k' : Kernel} {v r h base paddr count : Nat} {read : Kernel → Memory}

theorem alignNext_pages {size : Nat} (small : size + 4095 < 2 ^ 64) :
    alignNext size systemPageSize = 4096 * pageCount size := by
  rw [alignNext_eq small, pageCount, Nat.mul_comm]

/-! ## The image -/

/-- The first entry of an address is the only one. -/
theorem findMap_of_nodup {items : List VmemMap} (distinct : (items.map VmemMap.virtualAddr).Nodup) {entry : VmemMap}
    (member : entry ∈ items) : findMap items entry.virtualAddr = some entry := by
  unfold findMap
  induction items with
  | nil => cases member
  | cons first rest ih =>
      rw [List.map_cons, List.nodup_cons] at distinct
      rcases List.mem_cons.mp member with rfl | later
      · rw [List.find?_cons_of_pos (by simp)]
      · have other : first.virtualAddr ≠ entry.virtualAddr :=
          fun same => distinct.1 (same ▸ List.mem_map_of_mem later)
        rw [List.find?_cons_of_neg (by simpa using other)]
        exact ih distinct.2 later

/-- A page of the image is found by its offset, also when the map has grown since. -/
theorem Imaged.lookup (imaged : Imaged h base paddr count k)
    (distinct : ((k.vmem h).map.items.map VmemMap.virtualAddr).Nodup)
    (kept : (k.vmem h).map.items <+: (k'.vmem h).map.items) (pages : paddr + 4096 * count ≤ 2 ^ 64) {offset : Nat}
    (aligned : offset % 4096 = 0) (inside : offset < 4096 * count) :
    vmemGetPhysicalAddress k' h (wrap (base + offset)) = paddr + offset := by
  have base_aligned := imaged.aligned
  have room := imaged.room
  obtain ⟨entry, member, address, page⟩ := imaged.entries (offset / 4096) (by omega)
  have place : base + 4096 * (offset / 4096) = base + offset := by omega
  have found : findMap (k'.vmem h).map.items (base + offset) = some entry := by
    obtain ⟨more, grown⟩ := kept
    have here := findMap_of_nodup distinct member
    rw [address, place] at here
    unfold findMap at here ⊢
    rw [← grown, List.find?_append, here]
    rfl
  have whole : memAlign (base + offset) = base + offset := (memAlign_eq_iff _).mpr (by omega)
  rw [wrap_of_lt (by omega), vmemGetPhysicalAddress, whole, found]
  dsimp only
  rw [page, wrap_of_lt (by omega)]
  omega

theorem Imaged.run (imaged : Imaged h base paddr count k) (known : h < k.core.vmems.count) (run : ServiceRun k k') :
    Imaged h base paddr count k' := by
  refine ⟨imaged.aligned, imaged.paged, imaged.room, fun i few => ?_⟩
  obtain ⟨entry, member, isEntry⟩ := imaged.entries i few
  exact ⟨entry, (run.mapKept known).isPrefix known |>.subset member, isEntry⟩

/-- A mapping that returns an address was asked for whole pages. -/
theorem mapped_whole {region : Option Nat} {extent : Nat}
    (mapped : (vmemRegionMapPhysicalAddress kalloc region paddr extent k).1 ≠ 0) : extent % 4096 = 0 := by
  cases region with
  | none => exact absurd rfl mapped
  | some r =>
      by_contra ragged
      refine mapped ?_
      unfold vmemRegionMapPhysicalAddress
      dsimp only
      rw [if_pos (Or.inr fun same => ragged ((memAlign_eq_iff extent).mp same.symm))]

/-- The loader's mapping of a module is an image at the address it returns. -/
theorem module_imaged (referenced : Referenced k) (hosts : Hosts h k) (words : NextWords k) {extent : Nat}
    {region : Option Nat × Kernel}
    (isRegion : region = vmemRegionCreate kalloc (some h) (some "module-loading") 0 0 true true true k)
    {image : Nat × Kernel} (isImage : image = vmemRegionMapPhysicalAddress kalloc region.1 paddr extent region.2)
    (small : extent < 2 ^ 64) (bound : paddr < 2 ^ 64) (pages : paddr + extent ≤ 2 ^ 64) (mapped : image.1 ≠ 0)
    (ample : Ample image.2) : Imaged h image.1 paddr (extent / 4096) image.2 := by
  have path := @vmemRegionMapPhysicalAddress_path kalloc 0 0 Set.univ region.1 (fun _ _ => Set.mem_univ _) paddr
    extent region.2
  rw [← isImage] at path
  have ampleRegion : Ample region.2 := ample.earlier (kalloc_reliable.laterOf path)
  have kept : MapKept h k region.2 := isRegion ▸ vmemRegionCreate_mapKept _ _ _ _ _ _ _ k
  -- an address comes from a region, and the start of a region is the start of a page
  have aligned : (placeRegion h 0 k).1 % 4096 = 0 := by
    cases isSome : region.1 with
    | none =>
        rw [isImage, isSome] at mapped
        exact absurd rfl mapped
    | some s =>
        rw [isRegion] at isSome
        exact (memAlign_eq_iff _).mp (vmemRegionCreate_some rfl rfl isSome).1
  obtain ⟨isNew, new⟩ := vmemRegionCreate_created referenced hosts aligned isRegion ampleRegion
  have start : (placeRegion h 0 k).1 = (k.vmem h).nextStartAddress := rfl
  rw [start] at aligned new
  have whole := mapped_whole (isImage ▸ mapped)
  rw [isNew] at isImage
  obtain ⟨value, maps⟩ := kalloc_reliable.vmemRegionMapPhysicalAddress_ample bound small whole new.spares new.fresh
    (kept.isSome hosts.known hosts.map) (words h) aligned (isImage ▸ ample)
  rw [← isImage] at value maps
  have filled := maps mapped
  split at value
  · rename_i fits
    refine ⟨?_, fits.1, ?_, fun i few => ?_⟩
    · rw [value]
      exact aligned
    · rw [value]
      omega
    · obtain ⟨entry, member, address, page⟩ := filled.entries h
        (by rw [new.fresh.attached]; exact List.mem_singleton_self h) i few
      rw [new.fresh.allocated, new.fresh.place, Nat.zero_add, wrap_of_lt (by omega)] at address
      rw [wrap_of_lt (by omega)] at page
      exact ⟨entry, member, by rw [address, value], page⟩
  · exact absurd value mapped

/-! ## A region filled up -/

/-- A resize to no less than the pages there are adds what is missing. -/
theorem resize_fills {newSize : Nat} (spares : k.Spares r) (listed : (k.region r).pages.isSome)
    (small : newSize + 4095 < 2 ^ 64) (allocated : (k.region r).allocatedSize = 4096 * count)
    (more : count ≤ pageCount newSize) {resized : Bool × Kernel}
    (isResized : resized = vmemRegionResize kalloc (some r) newSize k) (ample : Ample resized.2) :
    resized.1 = true ∧ resized.2.Spares r ∧
    ∃ fresh, fresh.length = pageCount newSize - count ∧ Acquires r fresh k resized.2 ∧
      resized.2.region r = { k.region r with
        allocatedSize := 4096 * pageCount newSize
        size := newSize
        pages := (k.region r).pages.map (· ++ fresh) } ∧
      ((∀ v ∈ (k.region r).attached.items, (k.vmem v).map.isSome) → ∀ v ∈ (k.region r).attached.items,
        ∀ i < fresh.length, ∃ entry ∈ (resized.2.vmem v).map.items,
          entry.virtualAddr = wrap ((k.region r).start + (4096 * count + 4096 * i))) := by
  have success : resized.1 = true := isResized ▸ vmemRegionResize_ample (isResized ▸ ample)
  have grants := Grants.vmemRegionResize grants_closed.kalloc r newSize k
  rw [← isResized] at grants
  have large : ¬ alignNext newSize systemPageSize < (k.region r).allocatedSize := by
    rw [alignNext_pages small, allocated]
    omega
  have missing : missingPages newSize (k.region r) = pageCount newSize - count := by
    unfold missingPages
    rw [if_neg large, alignNext_pages small, allocated, ← Nat.mul_sub, systemPageSize,
      Nat.mul_div_cancel_left _ (by decide)]
  have fits := missingPages_fits large
  rw [vmemRegionResize_eq, if_neg large] at isResized
  obtain ⟨loop, isLoop⟩ : ∃ loop, loop = resizeLoop kalloc r (missingPages newSize (k.region r)) k := ⟨_, rfl⟩
  rw [← isLoop] at isResized
  have served : Served loop.2.alloc.blocks := by
    have later := ample.served
    rw [isResized] at later
    exact later
  obtain ⟨fresh, appends, -, full⟩ := resizeLoop_appends (kalloc_reliable.beside r) kalloc_reliable.honest _ k
    spares listed (Nat.lt_of_le_of_lt fits (alignNext_lt newSize)) (isLoop ▸ served)
  rw [← isLoop] at appends full
  have length : fresh.length = pageCount newSize - count := by
    rw [isResized] at success
    rw [full.mpr success, missing]
  have size : (k.region r).allocatedSize + 4096 * fresh.length = 4096 * pageCount newSize := by
    rw [allocated, length]
    omega
  have handed : resized.2.handed r = fresh.reverse ++ k.handed r := by
    rw [isResized]
    exact appends.handed
  refine ⟨success, ?_, fresh, length, grants.acquires handed, ?_, fun mapped v member i inside => ?_⟩
  · rw [isResized]
    exact appends.spares
  · rw [isResized, Kernel.region_modifyRegion_self, appends.region, size]
    unfold adoptSize
    rw [if_pos]
    show newSize ≤ 4096 * pageCount newSize
    unfold pageCount
    omega
  · have entry := appends.entries mapped v member i _ (List.getElem?_eq_getElem inside)
    rw [allocated] at entry
    rw [isResized]
    exact ⟨_, entry, rfl⟩

/-! ## A header -/

/-- The file part of a header, for its new region. -/
theorem fileContent_maps {ph start : Nat} {header : ElfProgramHeader} (sees : programHeader (read k) ph = header)
    (found : header.fileSize ≠ 0 → vmemGetPhysicalAddress k h (wrap (base + header.offset)) = paddr)
    (aligned : paddr % 4096 = 0) (small : header.fileSize + 4095 < 2 ^ 64) (spares : k.Spares r)
    (fresh : (k.region r).Fresh v start) (map : (k.vmem v).map.isSome) (present : start ≠ 0)
    (bound : start < 2 ^ 64) (page : start % 4096 = 0)
    (room : start + 4096 * pageCount header.fileSize ≤ 2 ^ 64) {mapped : Bool × Kernel}
    (isMapped : mapped = mapFileContent kalloc read h base ph r k) (ample : Ample mapped.2) :
    mapped.1 = true ∧ Maps r (pageCount header.fileSize) paddr k mapped.2 := by
  unfold mapFileContent at isMapped
  dsimp only at isMapped
  rw [sees] at isMapped
  by_cases empty : header.fileSize = 0
  · rw [if_pos empty] at isMapped
    rw [isMapped, empty]
    exact ⟨rfl, Maps.none spares paddr⟩
  · rw [if_neg empty, found empty, alignNext_pages small] at isMapped
    have positive : 0 < pageCount header.fileSize := by
      unfold pageCount
      omega
    have extent : 4096 * pageCount header.fileSize < 2 ^ 64 := by omega
    have whole : 4096 * pageCount header.fileSize % 4096 = 0 := Nat.mul_mod_right 4096 _
    have located : paddr < 2 ^ 64 := found empty ▸ vmemGetPhysicalAddress_lt k h _
    have value := @Reliable.vmemRegionMapPhysicalAddress_ample kalloc k v r kalloc_reliable paddr
      (4096 * pageCount header.fileSize) located extent whole spares start fresh map bound page
    generalize vmemRegionMapPhysicalAddress kalloc (some r) paddr (4096 * pageCount header.fileSize) k = result
      at isMapped value
    rw [isMapped] at ample ⊢
    obtain ⟨address, maps⟩ := value ample
    rw [if_pos ⟨aligned, by omega, by omega, room⟩] at address
    have nonzero : result.1 ≠ 0 := address ▸ present
    have filled := maps nonzero
    rw [Nat.mul_div_cancel_left _ (by decide)] at filled
    exact ⟨decide_eq_true nonzero, filled⟩

theorem mapFileContent_growth (read : Kernel → Memory) (memoryHandler base ph r : Nat) (k : Kernel) :
    GrowthPath kalloc {r} k (mapFileContent kalloc read memoryHandler base ph r k).2 := by
  unfold mapFileContent
  dsimp only
  split
  · exact .refl
  · exact vmemRegionMapPhysicalAddress_growthPath (some r) (fun _ isR => (Option.some.inj isR).symm) _ _ _

theorem mapFileContent_run (read : Kernel → Memory) (memoryHandler base ph : Nat)
    (known : r < k.core.vmemRegions.count) :
    ServiceRun k (mapFileContent kalloc read memoryHandler base ph r k).2 := by
  unfold mapFileContent
  dsimp only
  split
  · exact .refl
  · refine .single (@ServiceStep.service k (.mapPhysical (some r) _ _) fun s isRegion => ?_)
    rw [← Option.some.inj isRegion]
    exact known

theorem pagesFrom_eq {count paddr : Nat} (pages : paddr + 4096 * count ≤ 2 ^ 64) :
    pagesFrom count paddr = (List.range count).map fun i => paddr + 4096 * i := by
  refine List.map_congr_left fun i few => wrap_of_lt ?_
  have := List.mem_range.mp few
  omega

/-- The region holds a header: the pages of the file from an address on, then pages taken for it. -/
structure Holds (header : ElfProgramHeader) (r paddr : Nat) (k k' : Kernel) : Prop where
  start : (k'.region r).start = header.vaddr
  size : (k'.region r).size = header.memSize
  allocated : (k'.region r).allocatedSize = 4096 * pageCount header.memSize
  pages : ∃ fresh, (k'.region r).pages = some (((List.range (pageCount header.fileSize)).map
      fun i => paddr + 4096 * i) ++ fresh) ∧
    fresh.length = pageCount header.memSize - pageCount header.fileSize ∧ Acquires r fresh k k'

theorem Holds.earlier {header : ElfProgramHeader} {k₀ : Kernel} (holds : Holds header r paddr k k')
    (before : Grants {r} k₀ k) (after : Grants {r} k k') : Holds header r paddr k₀ k' := by
  obtain ⟨fresh, pages, length, acquires⟩ := holds.pages
  exact ⟨holds.start, holds.size, holds.allocated, fresh, pages, length, acquires.earlier before after⟩

/-- What follows the creation of the region: the pages of the file, and the pages still missing. -/
theorem region_filled {ph : Nat} {header : ElfProgramHeader}
    (sees : ∀ k', ServiceRun k k' → programHeader (read k') ph = header)
    (found : header.fileSize ≠ 0 → vmemGetPhysicalAddress k h (wrap (base + header.offset)) = paddr)
    (paged : paddr % 4096 = 0) (pages : paddr + 4096 * pageCount header.fileSize ≤ 2 ^ 64)
    (content : header.fileSize ≤ header.memSize) (present : header.vaddr ≠ 0) (aligned : header.vaddr % 4096 = 0)
    (room : header.vaddr + 4096 * pageCount header.memSize ≤ 2 ^ 64) (spares : k.Spares r)
    (known : r < k.core.vmemRegions.count) (empty : (k.region r).Fresh v header.vaddr) (map : (k.vmem v).map.isSome)
    {mapped : Bool × Kernel}
    (isMapped : mapped = mapFileContent kalloc read h base ph r k) {result : Bool × Kernel}
    (isResult : result = if mapped.1 = true then
      vmemRegionResize kalloc (some r) (programHeader (read mapped.2) ph).memSize mapped.2 else (false, mapped.2))
    (ample : Ample result.2) :
    result.1 = true ∧ Holds header r paddr k result.2 ∧ Grants {r} k result.2 ∧ Frame k result.2 := by
  have bound : header.vaddr < 2 ^ 64 := by
    rw [← sees k .refl]
    exact Memory.load_lt _ _ 8
  have more : pageCount header.fileSize ≤ pageCount header.memSize := Nat.div_le_div_right (by omega)
  have small : header.memSize + 4095 < 2 ^ 64 := by
    unfold pageCount at room
    omega
  have mappedGrowth := mapFileContent_growth read h base ph r k
  have mappedRun := mapFileContent_run read h base ph known
  rw [← isMapped] at mappedGrowth mappedRun
  have resizeGrowth := @vmemRegionResize_growthPath kalloc {r} (some r) (fun _ isR => (Option.some.inj isR).symm)
    (programHeader (read mapped.2) ph).memSize mapped.2
  obtain ⟨resized, isResized⟩ : ∃ resized, resized = vmemRegionResize kalloc (some r)
    (programHeader (read mapped.2) ph).memSize mapped.2 := ⟨_, rfl⟩
  rw [← isResized] at isResult resizeGrowth
  have ampleMapped : Ample mapped.2 := by
    rw [isResult] at ample
    exact ample.earlier (Later.branch
      (kalloc_reliable.laterOf (resizeGrowth.mono (Set.subset_univ _)).path) (Later.refl _))
  obtain ⟨success, maps⟩ := fileContent_maps (sees k .refl) found paged (by omega) spares empty map present
    bound aligned (by omega) isMapped ampleMapped
  rw [if_pos success] at isResult
  rw [sees mapped.2 mappedRun] at isResized
  have allocated : (mapped.2.region r).allocatedSize = 4096 * pageCount header.fileSize := by
    rw [maps.allocated, empty.allocated, Nat.zero_add]
  have filePages : (mapped.2.region r).pages = some (pagesFrom (pageCount header.fileSize) paddr) := by
    rw [maps.pages, empty.pages]
    rfl
  obtain ⟨done, -, fresh, length, acquires, region, -⟩ := resize_fills maps.spares (by rw [filePages]; rfl) small allocated
    more isResized (isResult ▸ ample)
  have mappedGrants : Grants {r} k mapped.2 := .path (N := 0) (M := 0) grants_closed.kalloc mappedGrowth.path
  have resizedGrants : Grants {r} mapped.2 resized.2 := .path (N := 0) (M := 0) grants_closed.kalloc resizeGrowth.path
  rw [isResult]
  refine ⟨done, ⟨?_, by rw [region], by rw [region], fresh, ?_, length, acquires.earlier mappedGrants resizedGrants⟩,
    mappedGrants.trans resizedGrants, (kalloc_reliable.tame.growth (mappedGrowth.trans resizeGrowth) trivial).2⟩
  · rw [region]
    exact maps.start.trans empty.place
  · rw [region, ← pagesFrom_eq pages]
    dsimp only
    rw [filePages]
    rfl

/-- A header of an image is loaded into a region of its own. -/
theorem allocateProgramHeader_holds (referenced : Referenced k) (kernel : h < k.core.vmems.count) (hosts : Hosts v k)
    (imaged : Imaged h base paddr count k) (pages : paddr + 4096 * count ≤ 2 ^ 64)
    (distinct : ((k.vmem h).map.items.map VmemMap.virtualAddr).Nodup) {ph : Nat} {header : ElfProgramHeader}
    (sees : ∀ k', ServiceRun k k' → programHeader (read k') ph = header) (present : header.vaddr ≠ 0)
    (aligned : header.vaddr % 4096 = 0) (offset : header.offset % 4096 = 0)
    (content : header.fileSize ≤ header.memSize) (inside : header.offset + header.fileSize ≤ 4096 * count)
    (room : header.vaddr + 4096 * pageCount header.memSize ≤ 2 ^ 64) {result : Bool × Kernel}
    (isResult : result = allocateProgramHeader kalloc read h base ph (some v) k) (ample : Ample result.2) :
    result.1 = true ∧ ∃ r, (result.2.vmem v).regions.items = (k.vmem v).regions.items ++ [r] ∧
      Holds header r (paddr + header.offset) k result.2 := by
  have here := sees k .refl
  obtain ⟨created, isCreated⟩ : ∃ created, created = vmemRegionCreate kalloc (some v) (some "elf-loader")
    header.vaddr 0 true header.writable header.code k := ⟨_, rfl⟩
  have ampleCreated : Ample created.2 :=
    header_created_ample kalloc_reliable (here.symm ▸ isCreated) (isResult ▸ ample)
  have place : (placeRegion v header.vaddr k).1 = header.vaddr := by
    unfold placeRegion
    rw [if_neg present]
  have valid : ∀ w ∈ some v, w < k.core.vmems.count := fun w isV => Option.some.inj isV ▸ hosts.known
  obtain ⟨isNew, new⟩ := vmemRegionCreate_created referenced hosts (place.symm ▸ aligned) isCreated ampleCreated
  rw [place] at new
  have createdRun : ServiceRun k created.2 := by
    rw [isCreated]
    exact .single (@ServiceStep.service k (.createRegion (some v) (some "elf-loader") header.vaddr 0 true
      header.writable header.code) valid)
  have createdGrants : Grants {k.core.vmemRegions.count} k created.2 := by
    rw [isCreated]
    refine .path (N := 0) (M := 0) grants_closed.kalloc (vmemRegionCreate_path _ _ _ _ _ _ _ k fun k' same => ?_)
    refine ⟨Nat.zero_le _, ?_⟩
    rw [(kalloc_reliable.frame sizeofVmemRegion k').vmemRegions, same]
    exact Set.mem_singleton _
  have knownRegion := (referenced.createRegion valid "elf-loader" header.vaddr 0 true header.writable header.code
    isCreated).2 _ isNew
  have kept := createdRun.mapKept kernel
  unfold allocateProgramHeader at isResult
  dsimp only at isResult
  rw [here, ← isCreated, isNew] at isResult
  have paged := imaged.paged
  have filePart : header.offset + 4096 * pageCount header.fileSize ≤ 4096 * count := by
    unfold pageCount
    omega
  obtain ⟨done, holds, grants, frame⟩ := region_filled (fun k' run => sees k' (createdRun.trans run))
    (fun some => imaged.lookup distinct (kept.isPrefix kernel) pages offset (by omega)) (by omega) (by omega) content
    present aligned room new.spares knownRegion new.fresh ((createdRun.mapKept hosts.known).isSome hosts.known hosts.map)
    rfl isResult ample
  exact ⟨done, _, (congrArg LinkedList.items (frame.regions v)).trans new.regions, holds.earlier createdGrants grants⟩

/-- In every run of the kernel's memory services in which no request for memory fails: once the loader has
mapped a module at the physical address `paddr`, and whatever services follow, as long as no address
occurs twice in the kernel's map, every header with a page-aligned address and offset whose file part
lies in the image is loaded.  Its region is the last one of the address space and begins at the address,
has the size in memory and the pages it takes; the first of them are the pages of the file, the others
are taken from the page allocator, each for this region and once. -/
theorem segment_layout {platform : Platform} {pmem : Pmem} {m : Memory} {k₁ : Kernel}
    (boot : ServiceRun (vmemStart kalloc (.start platform pmem m)) k₁) (kernel : Hosts h k₁)
    {extent : Nat} (pages : paddr + extent ≤ 2 ^ 64) (words : paddr < 2 ^ 64 ∧ extent < 2 ^ 64)
    {region : Option Nat × Kernel}
    (isRegion : region = vmemRegionCreate kalloc (some h) (some "module-loading") 0 0 true true true k₁)
    {image : Nat × Kernel} (isImage : image = vmemRegionMapPhysicalAddress kalloc region.1 paddr extent region.2)
    (mapped : image.1 ≠ 0) (run : ServiceRun image.2 k) (hosts : Hosts v k)
    (distinct : ((k.vmem h).map.items.map VmemMap.virtualAddr).Nodup) {ph : Nat} {header : ElfProgramHeader}
    (sees : ∀ k', ServiceRun k k' → programHeader (read k') ph = header) (present : header.vaddr ≠ 0)
    (aligned : header.vaddr % 4096 = 0) (offset : header.offset % 4096 = 0)
    (content : header.fileSize ≤ header.memSize) (inside : header.offset + header.fileSize ≤ extent)
    (room : header.vaddr + 4096 * pageCount header.memSize ≤ 2 ^ 64) {result : Bool × Kernel}
    (isResult : result = allocateProgramHeader kalloc read h image.1 ph (some v) k) (ample : Ample result.2) :
    result.1 = true ∧ ∃ r, (result.2.vmem v).regions.items = (k.vmem v).regions.items ++ [r] ∧
      Holds header r (paddr + header.offset) k result.2 := by
  have ampleLast : Ample k :=
    ample.earlier (isResult ▸ kalloc_reliable.laterOf (allocateProgramHeader_path read h image.1 ph (some v) k))
  have referenced := boot.referenced (vmemStart_referenced kalloc_tame rfl)
  have valid : ∀ w ∈ some h, w < k₁.core.vmems.count := fun w isH => Option.some.inj isH ▸ kernel.known
  have known := (referenced.createRegion valid "module-loading" 0 0 true true true isRegion).2
  -- the mapping is part of the run, so the state is one of a run from the start
  have regionRun : ServiceRun k₁ region.2 := by
    rw [isRegion]
    exact .single (@ServiceStep.service k₁ (.createRegion (some h) (some "module-loading") 0 0 true true true) valid)
  have imageRun : ServiceRun region.2 image.2 := by
    rw [isImage]
    exact .single (@ServiceStep.service region.2 (.mapPhysical region.1 paddr extent) known)
  have mappingRun : ServiceRun k₁ image.2 := regionRun.trans imageRun
  have wholeRun : ServiceRun k₁ k := mappingRun.trans run
  have whole := mapped_whole (isImage ▸ mapped)
  have count : 4096 * (extent / 4096) = extent := by omega
  have kernelImage := Nat.lt_of_lt_of_le kernel.known (mappingRun.mapKept kernel.known).vmems
  have imaged := module_imaged referenced kernel (boot.nextWords rfl) isRegion isImage words.2 words.1 pages mapped
    (ampleLast.earlier run.later)
  exact allocateProgramHeader_holds (wholeRun.referenced referenced)
    (Nat.lt_of_lt_of_le kernelImage (run.mapKept kernelImage).vmems) hosts (imaged.run kernelImage run)
    (count.symm ▸ pages) distinct sees present aligned offset content (count.symm ▸ inside) room isResult ample

/-- A machine with a module of two pages mapped at nine megabytes, and an address space for it. -/
def imagedRegion : Option Nat × Kernel :=
  vmemRegionCreate kalloc (some 0) (some "module-loading") 0 0 true true true (vmemStart kalloc sampleKernel)

def imagedModule : Nat × Kernel := vmemRegionMapPhysicalAddress kalloc imagedRegion.1 0x900000 0x2000 imagedRegion.2

def imagedKernel : Kernel := (vmemCreate kalloc imagedModule.2).2

/-- A header for one and a half pages of the file, and three pages in memory. -/
def imagedBytes : Memory := ((sampleImage 0x100000 0).store64 0x100060 0x1800).store64 0x100068 0x3000

theorem segment_layout_imagedKernel : ∃ r, Holds (programHeader imagedBytes 0x100040) r 0x900000 imagedKernel
    (allocateProgramHeader kalloc (fun _ => imagedBytes) 0 imagedModule.1 0x100040 (some 1) imagedKernel).2 := by
  have boot : ServiceRun (vmemStart kalloc sampleKernel) (vmemStart kalloc sampleKernel) := .refl
  have run : ServiceRun imagedModule.2 imagedKernel := .single (@ServiceStep.service _ .create trivial)
  obtain ⟨-, r, -, holds⟩ := segment_layout boot (by decide +kernel) (by decide) (by decide) (Eq.refl imagedRegion)
    (Eq.refl imagedModule) (by decide +kernel) run (by decide +kernel) (by decide +kernel)
    (by exact fun _ _ => rfl) (by decide +kernel) (by decide +kernel) (by decide +kernel) (by decide +kernel)
    (by decide +kernel) (by decide +kernel)
    (Eq.refl (allocateProgramHeader kalloc (fun _ => imagedBytes) 0 imagedModule.1 0x100040 (some 1) imagedKernel))
    (by decide +kernel)
  exact ⟨r, holds⟩

end BubackOS
