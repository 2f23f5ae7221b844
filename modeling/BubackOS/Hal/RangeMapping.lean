import BubackOS.Hal.FreshTable

/-!
# Mapping a range of pages

`native_vmem_set` takes a size and makes one round for every page of it.  The rounds do
not move on: each maps the first page again, so the pages behind it keep their walks.
-/

namespace BubackOS

open Library

variable {S D : Set Nat} {P : Allocator → Prop} {kalloc : Kalloc} {k : Kernel} {v : Nat}

/-- A page-map entry for whole pages, none of them beyond the addresses the tables can hold. -/
structure PageMapEntry.InRange (entry : PageMapEntry) : Prop where
  sizeAligned : entry.size % 4096 = 0
  virtualAligned : entry.virtualAddr % 4096 = 0
  physicalAligned : entry.physicalAddr % 4096 = 0
  virtualLow : entry.virtualAddr + entry.size ≤ 2 ^ 48
  physicalLow : entry.physicalAddr + entry.size ≤ 2 ^ 48

namespace PageMapEntry

/-- The first page of an entry. -/
def first (entry : PageMapEntry) : PageMapEntry := { entry with size := 4096 }

theorem InRange.first_good {entry : PageMapEntry} (inRange : entry.InRange) (some : entry.size ≠ 0) :
    entry.first.Good := by
  obtain ⟨sizeAligned, virtualAligned, physicalAligned, virtualLow, physicalLow⟩ := inRange
  refine ⟨rfl, virtualAligned, physicalAligned, ?_, ?_⟩
  · show entry.virtualAddr < 2 ^ 48
    omega
  · show entry.physicalAddr < 2 ^ 48
    omega

/-- The address lies in the range. -/
def Covers (entry : PageMapEntry) (a : Nat) : Prop :=
  entry.virtualAddr ≤ a ∧ a < entry.virtualAddr + entry.size

end PageMapEntry

/-- The rounds of the loop are calls for the first page. -/
theorem nativeVmemSetLoop_eq {entry : PageMapEntry} (good : entry.first.Good) (count : Nat) :
    ∀ k, nativeVmemSetLoop kalloc v entry count k =
      nativeVmemSets kalloc v (List.replicate count entry.first) k := by
  induction count with
  | zero => exact fun _ => rfl
  | succ count ih =>
      intro k
      rw [List.replicate_succ, nativeVmemSets, nativeVmemSet_eq good.whole, ← ih]
      rfl

theorem nativeVmemSet_eq_sets {entry : PageMapEntry} (inRange : entry.InRange) (k : Kernel) :
    nativeVmemSet kalloc v entry k =
      (true, nativeVmemSets kalloc v (List.replicate (entry.size / 4096) entry.first) k) := by
  have virtual : memAlign entry.virtualAddr = entry.virtualAddr :=
    (memAlign_eq_iff _).mpr inRange.virtualAligned
  have physical : memAlign entry.physicalAddr = entry.physicalAddr :=
    (memAlign_eq_iff _).mpr inRange.physicalAligned
  have aligned : ¬ (entry.virtualAddr ≠ memAlign entry.virtualAddr ∨
      entry.physicalAddr ≠ memAlign entry.physicalAddr) := by
    rw [virtual, physical]
    simp
  unfold nativeVmemSet
  rw [if_neg aligned]
  by_cases none : entry.size = 0
  · rw [none]
    rfl
  · rw [nativeVmemSetLoop_eq (inRange.first_good none)]
    rfl

theorem lastSet_replicate (entry : PageMapEntry) (count page : Nat) :
    lastSet (List.replicate count entry) page =
      if 0 < count ∧ entry.virtualAddr = page then some entry.physicalAddr else none := by
  induction count with
  | zero => rfl
  | succ count ih =>
      rw [List.replicate_succ, lastSet_cons, ih]
      by_cases here : entry.virtualAddr = page
      · by_cases more : 0 < count <;> simp [here, more]
      · simp [here]

/-- After the call the first page of the range has its new walk, and all others their old one. -/
theorem nativeVmemSet_walks_first (quiet : Quiet P kalloc) (mode : P k.alloc) (intact : Intact S D k)
    (member : v ∈ S) (root : Rooted v k) {entry : PageMapEntry} (inRange : entry.InRange)
    (sound : Sound (nativeVmemSet kalloc v entry k).2.alloc.blocks) {a : Nat} (low : a < 2 ^ 48) :
    walk (nativeVmemSet kalloc v entry k).2 v a =
      if entry.size ≠ 0 ∧ memAlign a = entry.virtualAddr then some entry.physicalAddr else walk k v a := by
  rw [nativeVmemSet_eq_sets inRange] at sound ⊢
  have aligned := inRange.sizeAligned
  by_cases none : entry.size = 0
  · rw [none, if_neg fun both => both.1 rfl]
    rfl
  · have good : ∀ call ∈ List.replicate (entry.size / 4096) entry.first, call.Good := by
      intro call isFirst
      rw [List.eq_of_mem_replicate isFirst]
      exact inRange.first_good none
    have sets := nativeVmemSets_walk quiet member _ k mode intact root good sound
    have some : 0 < entry.size / 4096 := by omega
    have address : entry.first.virtualAddr = entry.virtualAddr := rfl
    rw [sets.walks a low, lastSet_replicate, address]
    by_cases here : memAlign a = entry.virtualAddr
    · rw [if_pos ⟨some, here.symm⟩, if_pos ⟨none, here⟩]
      rfl
    · rw [if_neg fun both => here both.2.symm, if_neg fun both => here both.2]
      rfl

/-- `native_vmem_set` accepts every entry of whole pages; afterwards the walks of the range end at the
consecutive physical pages, with all other walks unchanged, exactly when those of all pages but the
first did so before. -/
theorem range_mapped_iff (quiet : Quiet P kalloc) (mode : P k.alloc) (intact : Intact S D k)
    (member : v ∈ S) (root : Rooted v k) {entry : PageMapEntry} (inRange : entry.InRange)
    (sound : Sound (nativeVmemSet kalloc v entry k).2.alloc.blocks) :
    (nativeVmemSet kalloc v entry k).1 = true ∧
    ((∀ i < entry.size / 4096, walk (nativeVmemSet kalloc v entry k).2 v (entry.virtualAddr + 4096 * i) =
        some (entry.physicalAddr + 4096 * i)) ∧
      (∀ a < 2 ^ 48, ¬ entry.Covers a → walk (nativeVmemSet kalloc v entry k).2 v a = walk k v a) ↔
    ∀ i < entry.size / 4096, 0 < i →
      walk k v (entry.virtualAddr + 4096 * i) = some (entry.physicalAddr + 4096 * i)) := by
  obtain ⟨sizeAligned, virtualAligned, physicalAligned, virtualLow, physicalLow⟩ := id inRange
  have walks : ∀ a, a < 2 ^ 48 → walk (nativeVmemSet kalloc v entry k).2 v a = _ := fun a low =>
    nativeVmemSet_walks_first quiet mode intact member root inRange sound low
  have page : ∀ i, memAlign (entry.virtualAddr + 4096 * i) = entry.virtualAddr + 4096 * i := fun i =>
    (memAlign_eq_iff _).mpr (by omega)
  have behind : ∀ i < entry.size / 4096, 0 < i →
      walk (nativeVmemSet kalloc v entry k).2 v (entry.virtualAddr + 4096 * i) =
        walk k v (entry.virtualAddr + 4096 * i) := by
    intro i inside later
    rw [walks _ (by omega), page, if_neg fun both => by omega]
  refine ⟨by rw [nativeVmemSet_eq_sets inRange], fun mapped i inside later => ?_, fun already => ⟨?_, ?_⟩⟩
  · rw [← behind i inside later]
    exact mapped.1 i inside
  · intro i inside
    rcases Nat.eq_zero_or_pos i with rfl | later
    · rw [walks _ (by omega), page, if_pos ⟨by omega, by omega⟩]
      rfl
    · rw [behind i inside later]
      exact already i inside later
  · intro a low outside
    have aligned := memAlign_add_mod a
    unfold PageMapEntry.Covers at outside
    rw [walks a low, if_neg fun both => by omega]

/-- So many pages from four megabytes on. -/
def sampleRange (pages : Nat) : PageMapEntry :=
  { virtualAddr := 0x400000, physicalAddr := 0x200000, size := 4096 * pages, permission := 0 }

/-- A single page is mapped. -/
theorem range_mapped_iff_sampleRange :
    walk (nativeVmemSet BubackOS.kalloc 0 (sampleRange 1)
      (nativeVmemCreate BubackOS.kalloc 0 sampleKernel).2).2 0 0x400000 = some 0x200000 := by
  have early : Early sampleKernel.alloc := rfl
  have blank : Intact ∅ ∅ sampleKernel := by
    constructor <;> simp [Owned]
  have sound : Sound (nativeVmemSet BubackOS.kalloc 0 (sampleRange 1)
      (nativeVmemCreate BubackOS.kalloc 0 sampleKernel).2).2.alloc.blocks :=
    .of_ascending (by decide +kernel) (by decide +kernel)
  have created : Sound (nativeVmemCreate BubackOS.kalloc 0 sampleKernel).2.alloc.blocks :=
    .of_ascending (by decide +kernel) (by decide +kernel)
  have fresh := nativeVmemCreate_fresh kalloc_quiet early blank (Set.notMem_empty 0) created
  have inRange : (sampleRange 1).InRange := by constructor <;> decide
  have mapped := range_mapped_iff kalloc_quiet (nativeVmemCreate_stays (v := 0) kalloc_quiet early)
    fresh.intact (Set.mem_insert 0 ∅) fresh.root inRange sound
  refine (mapped.2.mpr fun i inside later => ?_).1 0 (by decide)
  have one : (sampleRange 1).size / 4096 = 1 := rfl
  omega

/-- Of two pages the second one is not mapped. -/
theorem second_page_unmapped : (sampleRange 2).InRange ∧
    (nativeVmemSet BubackOS.kalloc 0 (sampleRange 2)
      (nativeVmemCreate BubackOS.kalloc 0 sampleKernel).2).1 = true ∧
    walk (nativeVmemSet BubackOS.kalloc 0 (sampleRange 2)
      (nativeVmemCreate BubackOS.kalloc 0 sampleKernel).2).2 0 0x400000 = some 0x200000 ∧
    walk (nativeVmemSet BubackOS.kalloc 0 (sampleRange 2)
      (nativeVmemCreate BubackOS.kalloc 0 sampleKernel).2).2 0 0x401000 = none :=
  ⟨by constructor <;> decide, by decide +kernel, by decide +kernel, by decide +kernel⟩

end BubackOS
