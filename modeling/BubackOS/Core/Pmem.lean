import BubackOS.Core.State

/-!
# Physical pages

`pmem/services.c`: the page array and its operations.
-/

namespace BubackOS

/-- `pmem_initialize`: every page is free. -/
def pmemInitialize (t : Nat) : Pmem where
  totalOfPages := t / systemPageSize
  pages := fun _ => .free

/-- `ADDR_TO_PAGE(64*1024*1024)`: the search for a page starts here. -/
def firstSearchedPage : Nat := 64 * 1024 * 1024 / systemPageSize

/-- The loop of `pmem_next_page_available`: the first page from `page` on that has the wanted
type, or `0`; the loop makes at most `rounds` rounds. -/
def searchPage (wanted : PageType) (pmem : Pmem) : Nat → Nat → Nat
  | 0, _ => 0
  | rounds + 1, page =>
      if page < pmem.totalOfPages then
        if pmem.pages page = wanted then page else searchPage wanted pmem rounds (page + 1)
      else 0

/-- `pmem_next_page_available`; there are no more rounds than pages. -/
def pmemNextPageAvailable (wanted : PageType) (pmem : Pmem) : Nat :=
  searchPage wanted pmem pmem.totalOfPages firstSearchedPage

/-- `pmem_set_page`: `SYSTEM` pages are immutable. -/
def pmemSetPage (page : Nat) (type : PageType) (pmem : Pmem) : Bool × Pmem :=
  if pmem.totalOfPages ≤ page then (false, pmem)
  else if pmem.pages page = .system then (true, pmem)
  else (true, { pmem with pages := fun other => if other = page then type else pmem.pages other })

/-- `pmem_allocate` on the page array. -/
def Pmem.allocate (pmem : Pmem) : Nat × Pmem :=
  let page := pmemNextPageAvailable .free pmem
  if page = 0 then (0, pmem)
  else
    let set := pmemSetPage page .user pmem
    if set.1 then (page * systemPageSize, set.2) else (0, set.2)

/-- `pmem_allocate`. -/
def pmemAllocate (k : Kernel) : Nat × Kernel :=
  let page := k.core.pmem.allocate
  if page.1 = 0 then (0, (k.setPmem page.2).record .outOfPages) else (page.1, k.setPmem page.2)

/-- The loop of `pmem_set_as_system` over `count` pages; errors are ignored. -/
def markSystem : Nat → Nat → Pmem → Pmem
  | 0, _, pmem => pmem
  | count + 1, page, pmem => markSystem count (page + 1) (pmemSetPage page .system pmem).2

/-- `pmem_set_as_system`: the page behind the range is marked as well. -/
def pmemSetAsSystem (addr totalInBytes : Nat) (pmem : Pmem) : Pmem :=
  markSystem (wrap (addr + totalInBytes) / systemPageSize + 1 - addr / systemPageSize)
    (addr / systemPageSize) pmem

/-- `pmem_release`. -/
def pmemRelease (addr : Nat) (pmem : Pmem) : Bool × Pmem :=
  if memAlign addr ≠ addr then (false, pmem) else pmemSetPage (addr / systemPageSize) .free pmem

end BubackOS
