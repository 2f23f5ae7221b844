import BubackOS.Core.PmemRuns

/-!
# The pages `kernel_main` protects

`core/init.c` marks the reserved segments and the kernel image before anything is
allocated.  The boot modules are marked by nobody.
-/

namespace BubackOS

/-- What `kernel_main` reads of `platform_t` for the page array, and the ranges of the modules. -/
structure BootPlatform where
  totalMemory : Nat
  kernel : Region
  reservedSegments : LinkedList Region
  modules : LinkedList Region

namespace BootPlatform

/-- The loop of `kernel_main` over the reserved segments. -/
def markSegments : List Region → Pmem → Pmem
  | [], pmem => pmem
  | region :: rest, pmem => markSegments rest (pmemSetAsSystem region.addrStart region.size pmem)

/-- The page array `kernel_main` sets up. -/
def kernelMainPages (platform : BootPlatform) : Pmem :=
  pmemSetAsSystem platform.kernel.addrStart platform.kernel.size
    (markSegments platform.reservedSegments.items (pmemInitialize platform.totalMemory))

/-- No range wraps. -/
structure Fits (platform : BootPlatform) : Prop where
  kernel : platform.kernel.addrStart + platform.kernel.size < 2 ^ 64
  reserved : ∀ region ∈ platform.reservedSegments.items, region.addrStart + region.size < 2 ^ 64
  modules : ∀ region ∈ platform.modules.items, region.addrStart + region.size < 2 ^ 64

/-- The pages the marking goes through. -/
def Marked (platform : BootPlatform) (page : Nat) : Prop :=
  Covers platform.kernel.addrStart platform.kernel.size page ∨
    ∃ region ∈ platform.reservedSegments.items, Covers region.addrStart region.size page

/-- The page has no address of the kernel image, a reserved segment or a module. -/
structure Avoids (platform : BootPlatform) (page : Nat) : Prop where
  kernel : ¬ Intersects page platform.kernel.addrStart platform.kernel.size
  reserved : ∀ region ∈ platform.reservedSegments.items, ¬ Intersects page region.addrStart region.size
  modules : ∀ region ∈ platform.modules.items, ¬ Intersects page region.addrStart region.size

/-- Every page of every module is below 64 MB, outside the memory, or marked for another reason. -/
def ModulesCovered (platform : BootPlatform) : Prop :=
  ∀ region ∈ platform.modules.items, ∀ page, Intersects page region.addrStart region.size →
    page * 4096 < 64 * 1024 * 1024 ∨ platform.totalMemory / 4096 ≤ page ∨ platform.Marked page

theorem markSegments_total (segments : List Region) : ∀ pmem : Pmem,
    (markSegments segments pmem).totalOfPages = pmem.totalOfPages := by
  induction segments with
  | nil => exact fun pmem => rfl
  | cons region rest ih =>
      intro pmem
      rw [markSegments, ih, pmemSetAsSystem_total]

/-- The loop marks the pages of its segments and leaves the others alone. -/
theorem markSegments_pages {page : Nat} (segments : List Region) : ∀ pmem : Pmem,
    (∀ region ∈ segments, region.addrStart + region.size < 2 ^ 64) → page < pmem.totalOfPages →
    ((∃ region ∈ segments, Covers region.addrStart region.size page) →
      (markSegments segments pmem).pages page = .system) ∧
    ((¬ ∃ region ∈ segments, Covers region.addrStart region.size page) →
      (markSegments segments pmem).pages page = pmem.pages page) ∧
    (pmem.pages page = .system → (markSegments segments pmem).pages page = .system) := by
  induction segments with
  | nil =>
      intro pmem _ _
      exact ⟨fun ⟨region, member, _⟩ => absurd member List.not_mem_nil, fun _ => rfl, fun system => system⟩
  | cons region rest ih =>
      intro pmem fits inside
      have marked := pmemSetAsSystem_pages (fits region List.mem_cons_self) inside
      obtain ⟨covered, alone, kept⟩ := ih (pmemSetAsSystem region.addrStart region.size pmem)
        (fun other member => fits other (List.mem_cons_of_mem region member))
        (by rw [pmemSetAsSystem_total]; exact inside)
      refine ⟨?_, fun free => ?_, fun system => kept ?_⟩
      · rintro ⟨other, member, covers⟩
        rcases List.mem_cons.mp member with rfl | later
        · exact kept (marked.trans (if_pos covers))
        · exact covered ⟨other, later, covers⟩
      · have missed : ¬ Covers region.addrStart region.size page := fun covers =>
          free ⟨region, List.mem_cons_self, covers⟩
        rw [markSegments, alone fun ⟨other, member, covers⟩ =>
          free ⟨other, List.mem_cons_of_mem region member, covers⟩]
        exact marked.trans (if_neg missed)
      · rw [marked, system]
        simp

theorem kernelMainPages_total (platform : BootPlatform) :
    platform.kernelMainPages.totalOfPages = platform.totalMemory / 4096 := by
  rw [kernelMainPages, pmemSetAsSystem_total, markSegments_total]
  rfl

theorem kernelMainPages_inside {platform : BootPlatform} {page : Nat} (inside : page < platform.totalMemory / 4096) :
    page < (markSegments platform.reservedSegments.items (pmemInitialize platform.totalMemory)).totalOfPages := by
  rw [markSegments_total]
  exact inside

theorem kernelMainPages_system {platform : BootPlatform} {page : Nat} (fits : platform.Fits)
    (inside : page < platform.totalMemory / 4096) (marked : platform.Marked page) :
    platform.kernelMainPages.pages page = .system := by
  have pages := pmemSetAsSystem_pages fits.kernel (kernelMainPages_inside inside)
  rw [kernelMainPages]
  rcases marked with kernel | reserved
  · exact pages.trans (if_pos kernel)
  · rw [pages, (markSegments_pages _ _ fits.reserved inside).1 reserved]
    simp

theorem kernelMainPages_free {platform : BootPlatform} {page : Nat} (fits : platform.Fits)
    (inside : page < platform.totalMemory / 4096) (unmarked : ¬ platform.Marked page) :
    platform.kernelMainPages.pages page = .free := by
  have pages := pmemSetAsSystem_pages fits.kernel (kernelMainPages_inside inside)
  have missed : ¬ Covers platform.kernel.addrStart platform.kernel.size page := fun covers =>
    unmarked (Or.inl covers)
  rw [kernelMainPages, pages.trans (if_neg missed),
    (markSegments_pages _ _ fits.reserved inside).2.1 fun reserved => unmarked (Or.inr reserved)]
  rfl

end BootPlatform

/-- A free page from 64 MB on is handed out some day.  Induction on the number of free pages. -/
theorem PmemRun.reaches_page {start : Pmem} {page : Nat} (low : firstSearchedPage ≤ page) (count : Nat) :
    ∀ {history : List PmemEvent} {pmem : Pmem}, PmemRun start history pmem → pmem.freePages = count →
      page < pmem.totalOfPages → pmem.pages page = .free →
      ∃ history' pmem', PmemRun start history' pmem' ∧ .allocated (page * 4096) ∈ history' := by
  induction count with
  | zero =>
      intro history pmem _ none inside free
      have member : page ∈ pmem.freeSet := by
        rw [Pmem.freeSet, Finset.mem_filter, Finset.mem_Ico]
        exact ⟨⟨low, inside⟩, free⟩
      rw [Finset.card_eq_zero.mp none] at member
      exact absurd member (Finset.notMem_empty page)
  | succ count ih =>
      intro history pmem run size inside free
      have success : pmem.allocate.1 ≠ 0 := fun nothing =>
        Pmem.allocate_eq_zero_iff.mp nothing page low inside free
      have next : PmemRun start (.allocated pmem.allocate.1 :: history) pmem.allocate.2 :=
        run.step .allocate trivial
      obtain ⟨found, isFound, -, -, -, -, after⟩ := Pmem.allocate_page success
      by_cases here : page = found
      · rw [here, ← isFound]
        exact ⟨_, _, next, List.mem_cons_self⟩
      · refine ih next ?_ ?_ ?_
        · have fewer := Pmem.allocate_freePages success
          omega
        · rw [Pmem.allocate_total]
          exact inside
        · rw [after, if_neg here]
          exact free

/-- Whatever is called after `kernel_main` has set up the page array: no page handed out touches the
kernel image, a reserved segment or a module, exactly when the pages of the modules are covered. -/
theorem boot_ranges_safe_iff {platform : BootPlatform} (fits : platform.Fits) :
    (∀ history pmem, PmemRun platform.kernelMainPages history pmem → ∀ addr, .allocated addr ∈ history →
      addr ≠ 0 → platform.Avoids (addr / 4096)) ↔ platform.ModulesCovered := by
  constructor
  · intro safe region member page common
    by_cases low : page * 4096 < 64 * 1024 * 1024
    · exact Or.inl low
    by_cases inside : page < platform.totalMemory / 4096
    · by_cases marked : platform.Marked page
      · exact Or.inr (Or.inr marked)
      · have floor : firstSearchedPage ≤ page := by
          unfold firstSearchedPage systemPageSize
          omega
        have nonzero : page * 4096 ≠ 0 := by omega
        obtain ⟨history, pmem, run, returned⟩ := PmemRun.reaches_page floor _ (.start) rfl
          (by rw [platform.kernelMainPages_total]; exact inside)
          (BootPlatform.kernelMainPages_free fits inside marked)
        have avoids := safe history pmem run (page * 4096) returned nonzero
        rw [Nat.mul_div_cancel page (by decide)] at avoids
        exact absurd common (avoids.modules region member)
    · exact Or.inr (Or.inl (Nat.not_lt.mp inside))
  · intro covered history pmem run addr returned present
    obtain ⟨page, rfl, low, high, free⟩ := run.kept.range addr returned present
    rw [platform.kernelMainPages_total] at high
    rw [Nat.mul_div_cancel page (by decide)]
    have unmarked : ¬ platform.Marked page := fun marked =>
      free (BootPlatform.kernelMainPages_system fits high marked)
    refine ⟨fun common => unmarked (Or.inl common.covers), fun region member common =>
      unmarked (Or.inr ⟨region, member, common.covers⟩), fun region member common => ?_⟩
    have floor : 16384 ≤ page := low
    rcases covered region member page common with below | above | marked
    · omega
    · omega
    · exact unmarked marked

/-- The kernel image at one megabyte, and a boot module of one page. -/
def modulePlatform (start : Nat) : BootPlatform where
  totalMemory := 0x8000000
  kernel := { addrStart := 0x100000, addrEnd := 0x180000, size := 0x80000 }
  reservedSegments := some [{ addrStart := 0x9f000, addrEnd := 0xa0000, size := 0x1000 }]
  modules := some [{ addrStart := start, addrEnd := start + 0x1000, size := 0x1000 }]

theorem modulePlatform_fits {start : Nat} (bound : start + 0x1000 < 2 ^ 64) : (modulePlatform start).Fits := by
  refine ⟨by simp only [modulePlatform]; omega, fun region member => ?_, fun region member => ?_⟩
  · rw [show region = { addrStart := 0x9f000, addrEnd := 0xa0000, size := 0x1000 } from
      List.mem_singleton.mp member]
    decide
  · rw [show region = { addrStart := start, addrEnd := start + 0x1000, size := 0x1000 } from
      List.mem_singleton.mp member]
    exact bound

/-- A module loaded below 64 MB is safe. -/
theorem boot_ranges_safe_iff_low_module : (modulePlatform 0x200000).ModulesCovered ∧
    ∀ history pmem, PmemRun (modulePlatform 0x200000).kernelMainPages history pmem →
      ∀ addr, .allocated addr ∈ history → addr ≠ 0 → (modulePlatform 0x200000).Avoids (addr / 4096) := by
  have covered : (modulePlatform 0x200000).ModulesCovered := by
    intro region member page common
    rw [show region = { addrStart := 0x200000, addrEnd := 0x201000, size := 0x1000 } from
      List.mem_singleton.mp member] at common
    simp only [Intersects] at common
    exact Or.inl (by omega)
  exact ⟨covered, (boot_ranges_safe_iff (modulePlatform_fits (by decide))).mpr covered⟩

/-- A module loaded at 64 MB: the first page handed out is the module's. -/
theorem module_page_handed_out :
    (modulePlatform 0x4000000).Fits ∧ (modulePlatform 0x4000000).kernelMainPages.allocate.1 = 0x4000000 ∧
      ¬ (modulePlatform 0x4000000).Avoids (0x4000000 / 4096) := by
  refine ⟨modulePlatform_fits (by decide), by decide +kernel, fun avoids => ?_⟩
  exact avoids.modules { addrStart := 0x4000000, addrEnd := 0x4001000, size := 0x1000 }
    (List.mem_singleton.mpr rfl) (by unfold Intersects; decide)

end BubackOS
