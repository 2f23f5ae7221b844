import BubackOS.Core.DataGrowth
import BubackOS.Core.ModuleLoader
import BubackOS.Core.VmemRuns

/-!
# The physical pages behind a program

`allocate_program_header` asks the kernel's map where the content of the file is and maps
as many pages from there on as the header says.  Neither the offset nor the size is
compared with the module, and an address that is not mapped counts as page `0`.
-/

namespace BubackOS

open Library

variable {kalloc : Kalloc} {k : Kernel} {r : Nat}

/-! ## The pages a mapping hands over -/

/-- So many physical pages from an address on. -/
def pagesFrom (count paddr : Nat) : List Nat := (List.range count).map fun i => wrap (paddr + 4096 * i)

theorem pagesFrom_succ (count : Nat) {paddr : Nat} (bound : paddr < 2 ^ 64) :
    pagesFrom (count + 1) paddr = paddr :: pagesFrom count (wrap (paddr + systemPageSize)) := by
  have head : wrap (paddr + 4096 * 0) = paddr := wrap_of_lt bound
  have tail : ∀ i, wrap (paddr + 4096 * (i + 1)) = wrap (wrap (paddr + systemPageSize) + 4096 * i) := by
    intro i
    unfold wrap systemPageSize
    omega
  unfold pagesFrom
  rw [List.range_succ_eq_map, List.map_cons, List.map_map, head]
  exact congrArg (List.cons paddr) (List.map_congr_left fun i _ => tail i)

/-- The loop hands over the pages in order; it ends early only with the result `0`. -/
theorem mapPhysicalLoop_handed (calls : ∀ size k, Beside r k (kalloc size k).2) (physicalStartAddr count : Nat) :
    ∀ paddr returningAddr k, paddr < 2 ^ 64 → k.Spares r →
      ∃ pages, pages <+: pagesFrom count paddr ∧
        (mapPhysicalLoop kalloc r physicalStartAddr count paddr returningAddr k).2.handed r =
          pages.reverse ++ k.handed r ∧
        ((mapPhysicalLoop kalloc r physicalStartAddr count paddr returningAddr k).1 ≠ 0 →
          pages = pagesFrom count paddr) := by
  induction count with
  | zero => exact fun _ _ k _ _ => ⟨[], List.prefix_rfl, rfl, fun _ => rfl⟩
  | succ count ih =>
      intro paddr returningAddr k bound spares
      have page := associate_associates calls paddr spares
      rw [pagesFrom_succ count bound]
      unfold mapPhysicalLoop
      dsimp only
      generalize vmemRegionAssocPhysicalAddress kalloc r paddr k = associated at page ⊢
      split
      · refine ⟨[paddr], ?_, page.handed, fun success => absurd rfl success⟩
        exact List.prefix_append [paddr] _
      · have still : (associated.2.modifyRegion r fun region =>
            { region with size := region.allocatedSize }).Spares r := page.spares
        obtain ⟨pages, part, handed, full⟩ := ih (wrap (paddr + systemPageSize))
          (if paddr = physicalStartAddr then associated.1 else returningAddr) _ (wrap_lt _) still
        refine ⟨paddr :: pages, (List.prefix_cons_inj paddr).mpr part, ?_, fun success => ?_⟩
        · have before : (associated.2.modifyRegion r fun region =>
              { region with size := region.allocatedSize }).handed r = paddr :: k.handed r := page.handed
          rw [handed, before, List.reverse_cons, List.append_assoc]
          rfl
        · rw [full success]

/-- The pages a mapping is asked for: none when it refuses its arguments. -/
def mappedPages (physicalStartAddr size : Nat) : List Nat :=
  if physicalStartAddr ≠ memAlign physicalStartAddr ∨ size ≠ memAlign size then []
  else pagesFrom (size / systemPageSize) physicalStartAddr

theorem vmemRegionMapPhysicalAddress_handed (calls : ∀ size k, Beside r k (kalloc size k).2)
    (physicalStartAddr size : Nat) (bound : physicalStartAddr < 2 ^ 64) (spares : k.Spares r) :
    ∃ pages, pages <+: mappedPages physicalStartAddr size ∧
      (vmemRegionMapPhysicalAddress kalloc (some r) physicalStartAddr size k).2.handed r =
        pages.reverse ++ k.handed r ∧
      ((vmemRegionMapPhysicalAddress kalloc (some r) physicalStartAddr size k).1 ≠ 0 →
        pages = mappedPages physicalStartAddr size) := by
  unfold vmemRegionMapPhysicalAddress mappedPages
  dsimp only
  split
  · exact ⟨[], List.prefix_rfl, rfl, fun _ => rfl⟩
  · exact mapPhysicalLoop_handed calls _ _ _ _ k bound spares

/-! ## File content -/

/-- The page lies within the page-rounded range of the module. -/
def Region.HasPage (region : Region) (page : Nat) : Prop :=
  memAlign region.addrStart ≤ page ∧ page + systemPageSize ≤ alignNext region.addrEnd systemPageSize

/-- Where the content of a header starts, as the kernel's map says. -/
def fileStart (read : Kernel → Memory) (memoryHandler base ph : Nat) (k : Kernel) : Nat :=
  vmemGetPhysicalAddress k memoryHandler (wrap (base + (programHeader (read k) ph).offset))

/-- The size of the content in whole pages. -/
def fileExtent (read : Kernel → Memory) (ph : Nat) (k : Kernel) : Nat :=
  alignNext (programHeader (read k) ph).fileSize systemPageSize

/-- The physical pages `allocate_program_header` asks for. -/
def filePages (read : Kernel → Memory) (memoryHandler base ph : Nat) (k : Kernel) : List Nat :=
  if (programHeader (read k) ph).fileSize = 0 then []
  else mappedPages (fileStart read memoryHandler base ph k) (fileExtent read ph k)

/-- The content is empty, is refused, or lies within the module. -/
def FileInModule (region : Region) (read : Kernel → Memory) (memoryHandler base ph : Nat) (k : Kernel) : Prop :=
  (programHeader (read k) ph).fileSize = 0 ∨ fileExtent read ph k = 0 ∨
    fileStart read memoryHandler base ph k % 4096 ≠ 0 ∨
    memAlign region.addrStart ≤ fileStart read memoryHandler base ph k ∧
      fileStart read memoryHandler base ph k + fileExtent read ph k ≤ alignNext region.addrEnd systemPageSize

theorem vmemGetPhysicalAddress_lt (k : Kernel) (v vaddr : Nat) : vmemGetPhysicalAddress k v vaddr < 2 ^ 64 := by
  unfold vmemGetPhysicalAddress
  split
  · exact wrap_lt _
  · decide

theorem mapFileContent_handed (calls : ∀ size k, Beside r k (kalloc size k).2) (read : Kernel → Memory)
    (memoryHandler base ph : Nat) (spares : k.Spares r) :
    ∃ pages, pages <+: filePages read memoryHandler base ph k ∧
      (mapFileContent kalloc read memoryHandler base ph r k).2.handed r = pages.reverse ++ k.handed r ∧
      ((mapFileContent kalloc read memoryHandler base ph r k).1 = true →
        pages = filePages read memoryHandler base ph k) := by
  unfold mapFileContent filePages
  dsimp only
  split
  · exact ⟨[], List.prefix_rfl, rfl, fun _ => rfl⟩
  · obtain ⟨pages, part, handed, full⟩ := vmemRegionMapPhysicalAddress_handed calls
      (fileStart read memoryHandler base ph k) (fileExtent read ph k) (vmemGetPhysicalAddress_lt k _ _) spares
    exact ⟨pages, part, handed, fun success => full (of_decide_eq_true success)⟩

/-- So many pages lie within a range exactly when the first and the last one do. -/
theorem pagesFrom_inside_iff (region : Region) {count paddr : Nat} (bound : paddr < 2 ^ 64)
    (aligned : paddr % 4096 = 0) : (∀ page ∈ pagesFrom count paddr, region.HasPage page) ↔
      count = 0 ∨ memAlign region.addrStart ≤ paddr ∧
        paddr + 4096 * count ≤ alignNext region.addrEnd systemPageSize := by
  have finite := alignNext_lt region.addrEnd
  unfold pagesFrom Region.HasPage systemPageSize
  unfold systemPageSize at finite
  generalize alignNext region.addrEnd 4096 = high at finite ⊢
  simp only [List.mem_map, List.mem_range]
  constructor
  · intro inside
    rcases Nat.eq_zero_or_pos count with none | some
    · exact Or.inl none
    · have first := inside _ ⟨0, some, rfl⟩
      rw [Nat.mul_zero, Nat.add_zero, wrap_of_lt bound] at first
      refine Or.inr ⟨first.1, ?_⟩
      -- a page that would wrap comes after the last page of memory, which no range contains
      by_cases fits : paddr + 4096 * (count - 1) < 2 ^ 64
      · have last := inside _ ⟨count - 1, by omega, rfl⟩
        rw [wrap_of_lt fits] at last
        omega
      · have top := inside _ ⟨(2 ^ 64 - 4096 - paddr) / 4096, by omega, rfl⟩
        unfold wrap at top
        omega
  · rintro (none | ⟨low, top⟩) page ⟨i, small, rfl⟩
    · omega
    · rw [wrap_of_lt (by omega)]
      omega

theorem filePages_inside_iff (region : Region) (read : Kernel → Memory) (memoryHandler base ph : Nat)
    (k : Kernel) : (∀ page ∈ filePages read memoryHandler base ph k, region.HasPage page) ↔
      FileInModule region read memoryHandler base ph k := by
  have bound : fileStart read memoryHandler base ph k < 2 ^ 64 := vmemGetPhysicalAddress_lt k _ _
  have whole : fileExtent read ph k % 4096 = 0 := alignNext_mod _
  unfold filePages mappedPages FileInModule
  generalize fileStart read memoryHandler base ph k = start at bound ⊢
  generalize fileExtent read ph k = extent at whole ⊢
  have same : extent = memAlign extent := ((memAlign_eq_iff extent).mpr whole).symm
  by_cases empty : (programHeader (read k) ph).fileSize = 0
  · rw [if_pos empty]
    exact ⟨fun _ => Or.inl empty, fun _ page member => absurd member List.not_mem_nil⟩
  · rw [if_neg empty]
    by_cases aligned : start % 4096 = 0
    · rw [if_neg (by rw [memAlign_eq_iff extent |>.mpr whole, memAlign_eq_iff start |>.mpr aligned]; simp),
        pagesFrom_inside_iff region bound aligned]
      unfold systemPageSize
      omega
    · rw [if_pos (Or.inl fun isAligned => aligned ((memAlign_eq_iff start).mp isAligned.symm))]
      exact ⟨fun _ => Or.inr (Or.inr (Or.inl aligned)), fun _ page member => absurd member List.not_mem_nil⟩

/-! ## Loading a header -/

/-- A new region has the next reference. -/
theorem vmemRegionCreate_fresh (frame : ∀ size k, Frame k (kalloc size k).2) {vmem : Option Nat}
    {name : Option String} {start size : Nat} {user writable executable : Bool}
    (isRegion : (vmemRegionCreate kalloc vmem name start size user writable executable k).1 = some r) :
    r = k.core.vmemRegions.count := by
  cases vmem with
  | none => cases isRegion
  | some v =>
      cases name with
      | none => cases isRegion
      | some name =>
          obtain ⟨-, opened, -⟩ := vmemRegionCreate_some rfl rfl isRegion
          rw [openRegion_some opened, (frame _ _).vmemRegions, placeRegion_vmemRegions]

/-- A header is loaded only if its file content was mapped. -/
theorem allocateProgramHeader_mapped {read : Kernel → Memory} {memoryHandler base ph : Nat}
    {moduleMemoryHandler : Option Nat} {created : Option Nat × Kernel}
    (isCreated : created = vmemRegionCreate kalloc moduleMemoryHandler (some "elf-loader")
      (programHeader (read k) ph).vaddr 0 true (programHeader (read k) ph).writable
      (programHeader (read k) ph).code k)
    (isRegion : created.1 = some r)
    (loaded : (allocateProgramHeader kalloc read memoryHandler base ph moduleMemoryHandler k).1 = true) :
    (mapFileContent kalloc read memoryHandler base ph r created.2).1 = true := by
  unfold allocateProgramHeader at loaded
  dsimp only at loaded
  rw [← isCreated, isRegion] at loaded
  dsimp only at loaded
  by_contra failed
  rw [if_neg failed] at loaded
  cases loaded

/-- In every state, for every header: the pages `allocate_program_header` hands to the region it has
created are, in order, pages it asked for, and all of them if the header is loaded; and all pages it
asks for lie within the module exactly when the file content is empty, is refused, or lies within the
module by the kernel's own map. -/
theorem file_pages_in_module_iff (region : Region) (read : Kernel → Memory) (memoryHandler base ph : Nat)
    (moduleMemoryHandler : Option Nat) (known : ∀ d ∈ k.core.kernelDataVmemRegion, d < k.core.vmemRegions.count)
    {created : Option Nat × Kernel}
    (isCreated : created = vmemRegionCreate BubackOS.kalloc moduleMemoryHandler (some "elf-loader")
      (programHeader (read k) ph).vaddr 0 true (programHeader (read k) ph).writable
      (programHeader (read k) ph).code k)
    (isRegion : created.1 = some r) :
    (∃ pages, pages <+: filePages read memoryHandler base ph created.2 ∧
      (mapFileContent BubackOS.kalloc read memoryHandler base ph r created.2).2.handed r =
        pages.reverse ++ created.2.handed r ∧
      ((allocateProgramHeader BubackOS.kalloc read memoryHandler base ph moduleMemoryHandler k).1 = true →
        pages = filePages read memoryHandler base ph created.2)) ∧
    ((∀ page ∈ filePages read memoryHandler base ph created.2, region.HasPage page) ↔
      FileInModule region read memoryHandler base ph created.2) := by
  have data : created.2.core.kernelDataVmemRegion = k.core.kernelDataVmemRegion := by
    rw [isCreated]
    exact kernelData_closed.path kernelData_closed.growth.calls.kalloc
      (vmemRegionCreate_path _ _ _ _ _ _ _ k fun _ _ => ⟨Nat.zero_le _, Set.mem_univ _⟩)
  have fresh : r = k.core.vmemRegions.count :=
    vmemRegionCreate_fresh frame_closed.calls.kalloc (isCreated ▸ isRegion)
  have other : created.2.core.kernelDataVmemRegion ≠ some r := by
    intro same
    have older := known r (data ▸ same)
    omega
  obtain ⟨pages, part, handed, full⟩ :=
    mapFileContent_handed (kalloc_beside r) read memoryHandler base ph (Or.inl other)
  refine ⟨⟨pages, part, handed, fun loaded => full ?_⟩, filePages_inside_iff region read memoryHandler base ph _⟩
  exact allocateProgramHeader_mapped isCreated isRegion loaded

/-- An ELF image at `base` with one program header: a page of the file, from `offset` on, for the
address of four megabytes. -/
def sampleImage (base offset : Nat) : Memory :=
  let words := [(0x00, 0x00010102464c457f), (0x10, 0x00000001003e0002), (0x18, 0x400000), (0x20, 0x40), (0x38, 1),
    (0x40, 0x0000000500000001), (0x48, offset), (0x50, 0x400000), (0x60, 4096), (0x68, 4096)]
  words.foldl (fun m word => m.store64 (base + word.1) word.2) fun _ => 0

/-- The image lies in the two pages of the region of `sampleVmems`, and its header asks for the first. -/
theorem file_pages_in_module_iff_sampleVmems :
    ∃ created : Option Nat × Kernel, created.1 = some 1 ∧
      ((∀ page ∈ filePages (fun _ => sampleImage 0x200000 0) 0 0x200000 0x200040 created.2,
        ({ addrStart := 0x4000000, addrEnd := 0x4002000, size := 0x2000 } : Region).HasPage page) ↔
      FileInModule { addrStart := 0x4000000, addrEnd := 0x4002000, size := 0x2000 }
        (fun _ => sampleImage 0x200000 0) 0 0x200000 0x200040 created.2) := by
  have noData : sampleVmems.core.kernelDataVmemRegion = none := by decide +kernel
  have isRegion : (vmemRegionCreate BubackOS.kalloc (some 1) (some "elf-loader")
      (programHeader (sampleImage 0x200000 0) 0x200040).vaddr 0 true
      (programHeader (sampleImage 0x200000 0) 0x200040).writable
      (programHeader (sampleImage 0x200000 0) 0x200040).code sampleVmems).1 = some 1 := by decide +kernel
  refine ⟨_, isRegion, (file_pages_in_module_iff _ (fun _ => sampleImage 0x200000 0) 0 0x200000 0x200040
    (some 1) (k := sampleVmems) (fun d isData => ?_) rfl isRegion).2⟩
  rw [noData] at isData
  cases isData

/-- A module of one page at nine megabytes. -/
def sampleModule : InfoModule where
  param := "module"
  region := { addrStart := 0x900000, addrEnd := 0x901000, size := 0x1000 }

/-- The task services before any module is loaded, on a machine whose allocator is not initialised. -/
def sampleTasks : TaskSystem :=
  taskServiceInitialize BubackOS.kalloc
    (schedulerInitialise BubackOS.kalloc (.start (vmemStart BubackOS.kalloc sampleKernel))).2

/-- The offset of the header is nine megabytes, where the kernel maps nothing: the module is loaded,
with physical page `0` as its program. -/
theorem module_gets_page_zero :
    (moduleTaskInitialize BubackOS.kalloc (fun _ => sampleImage 0x100000 0x900000) 0 [sampleModule]
      sampleTasks).1 = true ∧
    (moduleTaskInitialize BubackOS.kalloc (fun _ => sampleImage 0x100000 0x900000) 0 [sampleModule]
      sampleTasks).2.kernel.handed 1 = [0] ∧
    ¬ sampleModule.region.HasPage 0 := by
  refine ⟨by decide +kernel, by decide +kernel, ?_⟩
  unfold Region.HasPage
  decide

end BubackOS
