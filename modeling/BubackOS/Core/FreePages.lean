import BubackOS.Core.Pmem
import Mathlib.Data.Finset.Card
import Mathlib.Order.Interval.Finset.Nat

/-!
# Counting free pages

`pmem_allocate` takes the first free page from 64 MB on.  Every success uses up one
page of a finite stock; this is what nested growth of the kernel's memory runs on.
-/

namespace BubackOS

/-- The pages `pmem_allocate` can still hand out. -/
def Pmem.freeSet (pmem : Pmem) : Finset Nat :=
  (Finset.Ico firstSearchedPage pmem.totalOfPages).filter fun page => pmem.pages page = .free

/-- How many there are. -/
def Pmem.freePages (pmem : Pmem) : Nat := pmem.freeSet.card

theorem firstSearchedPage_pos : 0 < firstSearchedPage := by decide

/-- What the search returns, when it starts above page `0`. -/
theorem searchPage_spec (wanted : PageType) (pmem : Pmem) (rounds : Nat) :
    ∀ page, 0 < page →
      searchPage wanted pmem rounds page = 0 ∨
      page ≤ searchPage wanted pmem rounds page ∧
        searchPage wanted pmem rounds page < pmem.totalOfPages ∧
        pmem.pages (searchPage wanted pmem rounds page) = wanted := by
  induction rounds with
  | zero => exact fun page _ => Or.inl rfl
  | succ rounds ih =>
      intro page positive
      by_cases inside : page < pmem.totalOfPages
      · by_cases found : pmem.pages page = wanted
        · rw [searchPage, if_pos inside, if_pos found]
          exact Or.inr ⟨Nat.le_refl _, inside, found⟩
        · rw [searchPage, if_pos inside, if_neg found]
          rcases ih (page + 1) (Nat.succ_pos page) with none | ⟨low, high, here⟩
          · exact Or.inl none
          · exact Or.inr ⟨by omega, high, here⟩
      · rw [searchPage, if_neg inside]
        exact Or.inl rfl

/-- A failed search: there is no free page, and nothing changes. -/
theorem Pmem.allocate_of_none {pmem : Pmem} (none : pmemNextPageAvailable .free pmem = 0) :
    pmem.allocate = (0, pmem) := by
  simp [Pmem.allocate, none]

/-- A page found is taken out of the stock. -/
theorem Pmem.allocate_of_some {pmem : Pmem} (found : pmemNextPageAvailable .free pmem ≠ 0) :
    pmemNextPageAvailable .free pmem ∈ pmem.freeSet ∧
      pmem.allocate = (pmemNextPageAvailable .free pmem * systemPageSize,
        { pmem with pages := fun other =>
          if other = pmemNextPageAvailable .free pmem then .user else pmem.pages other }) := by
  have spec : pmemNextPageAvailable .free pmem = 0 ∨ _ :=
    searchPage_spec .free pmem pmem.totalOfPages firstSearchedPage firstSearchedPage_pos
  obtain ⟨page, isPage⟩ : ∃ page, page = pmemNextPageAvailable .free pmem := ⟨_, rfl⟩
  rw [pmemNextPageAvailable] at isPage
  rw [pmemNextPageAvailable, ← isPage] at spec
  rw [pmemNextPageAvailable, ← isPage] at found ⊢
  rcases spec with none | ⟨low, high, free⟩
  · exact absurd none found
  · have below : ¬ pmem.totalOfPages ≤ page := by omega
    refine ⟨?_, ?_⟩
    · rw [Pmem.freeSet, Finset.mem_filter, Finset.mem_Ico]
      exact ⟨⟨low, high⟩, free⟩
    · rw [Pmem.allocate, pmemNextPageAvailable, ← isPage]
      simp [found, pmemSetPage, below, free]

theorem Pmem.allocate_total (pmem : Pmem) : pmem.allocate.2.totalOfPages = pmem.totalOfPages := by
  by_cases none : pmemNextPageAvailable .free pmem = 0
  · rw [Pmem.allocate_of_none none]
  · rw [(Pmem.allocate_of_some none).2]

theorem Pmem.allocate_of_zero {pmem : Pmem} (failed : pmem.allocate.1 = 0) : pmem.allocate.2 = pmem := by
  by_cases none : pmemNextPageAvailable .free pmem = 0
  · rw [Pmem.allocate_of_none none]
  · rw [(Pmem.allocate_of_some none).2] at failed
    exact absurd (Nat.mul_eq_zero.mp failed) (by simp [none, systemPageSize])

/-- A success costs one free page. -/
theorem Pmem.allocate_freePages {pmem : Pmem} (success : pmem.allocate.1 ≠ 0) :
    pmem.allocate.2.freePages + 1 = pmem.freePages := by
  by_cases none : pmemNextPageAvailable .free pmem = 0
  · rw [Pmem.allocate_of_none none] at success
    exact absurd rfl success
  · obtain ⟨member, result⟩ := Pmem.allocate_of_some none
    have erased : pmem.allocate.2.freeSet = pmem.freeSet.erase (pmemNextPageAvailable .free pmem) := by
      rw [result]
      ext page
      simp only [Pmem.freeSet, Finset.mem_filter, Finset.mem_erase]
      by_cases same : page = pmemNextPageAvailable .free pmem
      · simp [same]
      · simp [same]
    rw [Pmem.freePages, erased]
    exact Finset.card_erase_add_one member

theorem Pmem.allocate_freePages_le (pmem : Pmem) : pmem.allocate.2.freePages ≤ pmem.freePages := by
  by_cases success : pmem.allocate.1 = 0
  · rw [Pmem.allocate_of_zero success]
  · have step := Pmem.allocate_freePages success
    omega

/-- The pages handed out are page addresses from 64 MB on. -/
theorem Pmem.allocate_address {pmem : Pmem} (success : pmem.allocate.1 ≠ 0) :
    pmem.allocate.1 % 4096 = 0 ∧ pmem.allocate.1 < pmem.totalOfPages * 4096 := by
  by_cases none : pmemNextPageAvailable .free pmem = 0
  · rw [Pmem.allocate_of_none none] at success
    exact absurd rfl success
  · obtain ⟨member, result⟩ := Pmem.allocate_of_some none
    rw [result]
    rw [Pmem.freeSet, Finset.mem_filter, Finset.mem_Ico] at member
    unfold systemPageSize
    omega

theorem Pmem.freePages_le (pmem : Pmem) : pmem.freePages ≤ pmem.totalOfPages :=
  calc pmem.freePages ≤ (Finset.Ico firstSearchedPage pmem.totalOfPages).card :=
        Finset.card_filter_le _ _
    _ = pmem.totalOfPages - firstSearchedPage := Nat.card_Ico _ _
    _ ≤ pmem.totalOfPages := Nat.sub_le _ _

/-! ## On the state -/

theorem pmemAllocate_eq (k : Kernel) : pmemAllocate k =
    if k.core.pmem.allocate.1 = 0 then (0, (k.setPmem k.core.pmem.allocate.2).record .outOfPages)
    else (k.core.pmem.allocate.1, k.setPmem k.core.pmem.allocate.2) := rfl

theorem fst_of_page {page : Nat} {failed found : Kernel} :
    (if page = 0 then (0, failed) else (page, found)).1 = page := by
  by_cases none : page = 0 <;> simp [none]

theorem pmemAllocate_fst (k : Kernel) : (pmemAllocate k).1 = k.core.pmem.allocate.1 := by
  rw [pmemAllocate_eq, fst_of_page]

/-- Nothing changes but the pages, and a failure is recorded. -/
theorem pmemAllocate_cases {P : Kernel → Prop} {k : Kernel}
    (failed : P ((k.setPmem k.core.pmem.allocate.2).record .outOfPages))
    (found : P (k.setPmem k.core.pmem.allocate.2)) : P (pmemAllocate k).2 := by
  rw [pmemAllocate_eq]
  split
  · exact failed
  · exact found

theorem pmemAllocate_of_success {k : Kernel} (success : (pmemAllocate k).1 ≠ 0) :
    (pmemAllocate k).2 = k.setPmem k.core.pmem.allocate.2 := by
  rw [pmemAllocate_fst] at success
  rw [pmemAllocate_eq, if_neg success]

theorem pmemAllocate_of_failure {k : Kernel} (failure : (pmemAllocate k).1 = 0) :
    (pmemAllocate k).2 = (k.setPmem k.core.pmem.allocate.2).record .outOfPages := by
  rw [pmemAllocate_fst] at failure
  rw [pmemAllocate_eq, if_pos failure]

end BubackOS
