import BubackOS.Core.Lookup
import BubackOS.Core.PageOwners
import Mathlib.Data.List.GetD

/-!
# Address spaces are isolated

The lists say which region owns a physical page, and the page tables follow the lists.  So
what the processor sees through the tables of two address spaces is shared only where a region
is attached to both, and there at one address.
-/

namespace BubackOS

open Library

variable {kalloc : Kalloc} {k k₀ : Kernel} {pmem : Pmem} {v w a b page : Nat}

/-- What the tables map is an entry of the map. -/
theorem MirrorOn.entry_of_walk {S : Set Nat} (mirror : MirrorOn S k) (known : v ∈ S) (low : a < 2 ^ 48)
    (lowEntries : ∀ entry ∈ (k.vmem v).map.items, entry.virtualAddr < 2 ^ 48 ∧ entry.physicalAddr < 2 ^ 48)
    (found : walk k v a = some page) :
    ∃ entry ∈ (k.vmem v).map.items, entry.virtualAddr = memAlign a ∧ entry.physicalAddr = page := by
  rw [mirror.walks v known a low, map_cut_eq lowEntries, lastMapped, Option.map_eq_some_iff] at found
  obtain ⟨entry, isEntry, physical⟩ := found
  refine ⟨entry, List.mem_reverse.mp (List.mem_of_find?_eq_some isEntry), ?_, physical⟩
  simpa using List.find?_some isEntry

/-- Two entries for one page are for the same page of one region, and so for one address. -/
theorem Exclusive.entry_unique (exclusive : Exclusive k) (coherent : k.space.Coherent) {entry other : VmemMap}
    (member : entry ∈ (k.vmem v).map.items) (member' : other ∈ (k.vmem w).map.items)
    (same : entry.physicalAddr = other.physicalAddr) :
    entry.region = other.region ∧ entry.virtualAddr = other.virtualAddr := by
  have region : entry.region = other.region := exclusive.single _ _ entry.physicalAddr
    (Or.inr ⟨v, entry, member, rfl, rfl⟩) (Or.inr ⟨w, other, member', rfl, same.symm⟩)
  obtain ⟨-, i, inside, virtual, physical⟩ := entry_of_region coherent member
  obtain ⟨-, j, inside', virtual', physical'⟩ := entry_of_region coherent member'
  rw [← region] at inside' virtual' physical'
  have nodup : (k.space.pages entry.region).Nodup := exclusive.nodup entry.region
  rw [physical, physical', List.getD_eq_getElem _ _ inside, List.getD_eq_getElem _ _ inside'] at same
  have index : i = j := (nodup.getElem_inj_iff).mp same
  exact ⟨region, by rw [virtual, virtual', index]⟩

/-- In every run of proper calls that take their pages from the page allocator, while the kernel's
heap is the early one: if the page tables of two address spaces lead to the same physical page,
they do so at the same virtual page, and the region whose page it is is attached to both. -/
theorem page_tables_isolated (early : Early k₀.alloc) (blank : k₀.core = Core.blank pmem)
    (reached : Reached BubackOS.kalloc k₀ k) (run : AllocatingRun BubackOS.kalloc k₀ k) (sound : Sound k.alloc.blocks)
    (lowEntries : ∀ v, v < k.core.vmems.count → ∀ entry ∈ (k.vmem v).map.items,
      entry.virtualAddr < 2 ^ 48 ∧ entry.physicalAddr < 2 ^ 48)
    (knownV : v < k.core.vmems.count) (knownW : w < k.core.vmems.count) (lowA : a < 2 ^ 48) (lowB : b < 2 ^ 48)
    (here : walk k v a = some page) (there : walk k w b = some page) :
    a / 4096 = b / 4096 ∧ ∃ r, page ∈ (k.region r).pages.items ∧
      v ∈ (k.region r).attached.items ∧ w ∈ (k.region r).attached.items := by
  have refines := reached.refines kalloc_quiet early blank sound.present
  have orderly := refines.orderly (blank_orderly blank)
  have exclusive := run.exclusive blank
  obtain ⟨⟨f, acts⟩, -⟩ := refines
  have mirror := acts.mirror sound (alignedMaps_of_orderly orderly) (blank_mirror blank)
  obtain ⟨entry, member, virtual, physical⟩ := mirror.entry_of_walk knownV lowA (lowEntries v knownV) here
  obtain ⟨other, member', virtual', physical'⟩ := mirror.entry_of_walk knownW lowB (lowEntries w knownW) there
  obtain ⟨region, address⟩ := exclusive.entry_unique orderly.coherent member member'
    (physical.trans physical'.symm)
  obtain ⟨attached, i, inside, -, isPage⟩ := entry_of_region orderly.coherent member
  obtain ⟨attached', -⟩ := entry_of_region orderly.coherent member'
  refine ⟨?_, entry.region, ?_, attached, ?_⟩
  · have splitA := memAlign_add_mod a
    have splitB := memAlign_add_mod b
    rw [virtual, virtual'] at address
    unfold memAlign align systemPageSize at address
    omega
  · rw [← physical, isPage, List.getD_eq_getElem _ _ inside]
    exact List.getElem_mem inside
  · rw [region]
    exact attached'

/-- The region of the kernel is seen in both address spaces. -/
theorem page_tables_isolated_sampleVmems : ∃ page, walk sampleVmems 0 0x201234 = some page ∧
    walk sampleVmems 1 0x201000 = some page ∧
    ∃ r, page ∈ (sampleVmems.region r).pages.items ∧ 0 ∈ (sampleVmems.region r).attached.items ∧
      1 ∈ (sampleVmems.region r).attached.items := by
  have early : Early sampleKernel.alloc := rfl
  have blank : sampleKernel.core = Core.blank sampleKernel.core.pmem := rfl
  have shared : walk sampleVmems 0 0x201234 = some 0x4001000 ∧ walk sampleVmems 1 0x201000 = some 0x4001000 := by
    decide +kernel
  exact ⟨0x4001000, shared.1, shared.2, (page_tables_isolated early blank sampleVmems_reached sampleVmems_allocating
    sampleVmems_sound (by decide +kernel) (by decide +kernel) (by decide +kernel) (by decide) (by decide) shared.1
    shared.2).2⟩

end BubackOS
