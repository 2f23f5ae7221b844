import BubackOS.Core.FilePages
import BubackOS.Core.Provision

/-!
# Mapping physical pages with enough memory

`vmem_region_map_physical_address` returns the address of the first page, or `0` when the
address of some page is `0`.  The pages are then in the list of the region and in the map of
every address space it is attached to.
-/

namespace BubackOS

open Library

variable {kalloc : Kalloc} {T : Set Nat} {k k' k'' : Kernel} {v r s h : Nat}

/-! ## The address a mapping returns -/

/-- What the loop of `vmem_region_map_physical_address` returns, from the addresses alone. -/
def mapResult (physicalStartAddr start : Nat) : Nat → Nat → Nat → Nat → Nat
  | 0, _, _, returningAddr => returningAddr
  | count + 1, paddr, allocated, returningAddr =>
      if wrap (start + allocated) = 0 then 0
      else
        mapResult physicalStartAddr start count (wrap (paddr + systemPageSize)) (allocated + systemPageSize)
          (if paddr = physicalStartAddr then wrap (start + allocated) else returningAddr)

theorem mapResult_of_zero (physicalStartAddr start count : Nat) : ∀ paddr allocated returningAddr i, i < count →
    wrap (start + (allocated + 4096 * i)) = 0 →
    mapResult physicalStartAddr start count paddr allocated returningAddr = 0 := by
  induction count with
  | zero =>
      intro paddr allocated returningAddr i few
      omega
  | succ count ih =>
      intro paddr allocated returningAddr i few zero
      unfold mapResult
      split
      · rfl
      · rename_i nonzero
        obtain ⟨j, rfl⟩ : ∃ j, i = j + 1 := by
          cases i with
          | zero => exact absurd zero nonzero
          | succ j => exact ⟨j, rfl⟩
        have same : start + (allocated + 4096 + 4096 * j) = start + (allocated + 4096 * (j + 1)) := by omega
        refine ih _ _ _ j (by omega) ?_
        rw [systemPageSize, same]
        exact zero

/-- Once the start has been passed, the address stays. -/
theorem mapResult_of_nonzero (physicalStartAddr start count : Nat) : ∀ paddr allocated returningAddr,
    (∀ i < count, wrap (start + (allocated + 4096 * i)) ≠ 0) →
    (∀ i < count, wrap (paddr + 4096 * i) ≠ physicalStartAddr) → paddr < 2 ^ 64 →
    mapResult physicalStartAddr start count paddr allocated returningAddr = returningAddr := by
  induction count with
  | zero => exact fun _ _ _ _ _ _ => rfl
  | succ count ih =>
      intro paddr allocated returningAddr nonzero passed bound
      have here : wrap (start + allocated) ≠ 0 := nonzero 0 (Nat.succ_pos count)
      have moved : paddr ≠ physicalStartAddr := by
        have first := passed 0 (Nat.succ_pos count)
        rw [Nat.mul_zero, Nat.add_zero, wrap_of_lt bound] at first
        exact first
      unfold mapResult
      rw [if_neg here, if_neg moved]
      refine ih _ _ _ (fun i few => ?_) (fun i few => ?_) (wrap_lt _)
      · have later := nonzero (i + 1) (by omega)
        unfold systemPageSize
        rw [Nat.add_assoc allocated, show 4096 + 4096 * i = 4096 * (i + 1) from by omega]
        exact later
      · have later := passed (i + 1) (by omega)
        have same : wrap (wrap (paddr + systemPageSize) + 4096 * i) = wrap (paddr + 4096 * (i + 1)) := by
          unfold wrap systemPageSize
          omega
        rw [same]
        exact later

/-- A mapping returns the start of an empty region, or `0` if it gets no page or wraps around. -/
theorem mapResult_eq {physicalStartAddr start extent : Nat} (startBound : start < 2 ^ 64)
    (aligned : start % 4096 = 0) (small : extent < 2 ^ 64) (whole : extent % 4096 = 0) :
    mapResult physicalStartAddr start (extent / systemPageSize) physicalStartAddr 0 0 =
      if extent ≠ 0 ∧ 0 < start ∧ start + extent ≤ 2 ^ 64 then start else 0 := by
  obtain ⟨count, rfl⟩ : ∃ count, extent = 4096 * count := ⟨extent / 4096, by omega⟩
  rw [systemPageSize, Nat.mul_div_cancel_left count (by decide)]
  split
  · rename_i fits
    obtain ⟨n, rfl⟩ : ∃ n, count = n + 1 := ⟨count - 1, by omega⟩
    have first : wrap (start + 0) = start := wrap_of_lt startBound
    unfold mapResult
    rw [first, if_neg (by omega), if_pos rfl]
    refine mapResult_of_nonzero _ _ _ _ _ _ (fun i few => ?_) (fun i few => ?_) (wrap_lt _)
    · unfold systemPageSize wrap
      omega
    · unfold systemPageSize wrap
      omega
  · rename_i fails
    by_cases none : count = 0
    · rw [none]
      rfl
    · rcases Nat.eq_zero_or_pos start with zero | positive
      · refine mapResult_of_zero _ _ _ _ _ _ 0 (Nat.pos_of_ne_zero none) ?_
        rw [zero]
        rfl
      · refine mapResult_of_zero _ _ _ _ _ _ ((2 ^ 64 - start) / 4096) (by omega) ?_
        unfold wrap
        omega

/-! ## The state after a mapping -/

/-- The region lists so many pages from an address on, and every address space it is attached to maps them. -/
structure Maps (r count paddr : Nat) (k k' : Kernel) : Prop where
  spares : k'.Spares r
  start : (k'.region r).start = (k.region r).start
  allocated : (k'.region r).allocatedSize = (k.region r).allocatedSize + 4096 * count
  pages : (k'.region r).pages = (k.region r).pages.map (· ++ pagesFrom count paddr)
  entries : ∀ v ∈ (k.region r).attached.items, ∀ i < count, ∃ entry ∈ (k'.vmem v).map.items,
    entry.virtualAddr = wrap ((k.region r).start + ((k.region r).allocatedSize + 4096 * i)) ∧
      entry.physicalAddr = wrap (paddr + 4096 * i)

theorem Maps.none (spares : k.Spares r) (paddr : Nat) : Maps r 0 paddr k k := by
  refine ⟨spares, rfl, rfl, ?_, fun v _ i few => absurd few (Nat.not_lt_zero i)⟩
  cases (k.region r).pages with
  | none => rfl
  | some items => exact congrArg some (List.append_nil items).symm

/-- The first page, and the others in the state behind it. -/
theorem Maps.cons {paddr count : Nat} (bound : paddr < 2 ^ 64) (first : Appends r [paddr] k k')
    (mapped : ∀ v ∈ (k.region r).attached.items, (k.vmem v).map.isSome) {size : VmemRegion → Nat}
    (rest : Maps r count (wrap (paddr + systemPageSize))
      (k'.modifyRegion r fun region => { region with size := size region }) k'')
    (grows : MapsGrow k' k'') : Maps r (count + 1) paddr k k'' := by
  have region : (k'.modifyRegion r fun region => { region with size := size region }).region r =
      { k'.region r with size := size (k'.region r) } := Kernel.region_modifyRegion_self _ _ _
  refine ⟨rest.spares, ?_, ?_, ?_, ?_⟩
  · rw [rest.start, region, first.region]
  · rw [rest.allocated, region, first.region]
    dsimp only [List.length_singleton]
    omega
  · rw [rest.pages, region, first.region, pagesFrom_succ count bound]
    cases (k.region r).pages with
    | none => rfl
    | some items => simp only [Option.map_some, List.append_assoc, List.singleton_append]
  · intro v member i few
    cases i with
    | zero =>
        have noted := first.entries mapped v member 0 paddr rfl
        exact ⟨_, grows.mem noted, rfl, (wrap_of_lt bound).symm⟩
    | succ i =>
        have member' : v ∈ ((k'.modifyRegion r fun region => { region with size := size region }).region
            r).attached.items := by
          rw [region, first.region]
          exact member
        obtain ⟨entry, noted, address, page⟩ := rest.entries v member' i (by omega)
        refine ⟨entry, noted, address.trans ?_, page.trans ?_⟩
        · rw [region, first.region]
          have same : (k.region r).start + ((k.region r).allocatedSize + 4096 * 1 + 4096 * i) =
              (k.region r).start + ((k.region r).allocatedSize + 4096 * (i + 1)) := by omega
          exact congrArg wrap same
        · unfold wrap systemPageSize
          omega

/-- The loop of a mapping, for a region the allocator does not grow. -/
theorem Reliable.mapPhysicalLoop_ample (reliable : Reliable kalloc) (physicalStartAddr count : Nat) :
    ∀ (paddr returningAddr : Nat) (k : Kernel), paddr < 2 ^ 64 → k.Spares r → (k.region r).pages.isSome →
      (∀ v ∈ (k.region r).attached.items, (k.vmem v).map.isSome) →
      (k.region r).allocatedSize + 4096 * count < 2 ^ 64 →
      Ample (mapPhysicalLoop kalloc r physicalStartAddr count paddr returningAddr k).2 →
      (mapPhysicalLoop kalloc r physicalStartAddr count paddr returningAddr k).1 =
        mapResult physicalStartAddr (k.region r).start count paddr (k.region r).allocatedSize returningAddr ∧
      ((mapPhysicalLoop kalloc r physicalStartAddr count paddr returningAddr k).1 ≠ 0 →
        Maps r count paddr k (mapPhysicalLoop kalloc r physicalStartAddr count paddr returningAddr k).2) := by
  induction count with
  | zero => exact fun paddr returningAddr k _ spares _ _ _ _ => ⟨rfl, fun _ => Maps.none spares paddr⟩
  | succ count ih =>
      intro paddr returningAddr k bound spares listed mapped fits ample
      have split : (k.region r).allocatedSize + 4096 * (count + 1) =
          (k.region r).allocatedSize + 4096 * 1 + 4096 * count := by omega
      rw [split] at fits
      have noted := @associate_noted kalloc k r (reliable.beside r) reliable.honest paddr spares mapped
      have appends := @associate_appends kalloc k r (reliable.beside r) reliable.honest paddr spares listed
        (Nat.lt_of_le_of_lt (Nat.le_add_right _ _) fits)
      unfold mapPhysicalLoop at ample ⊢
      unfold mapResult
      dsimp only at ample ⊢
      generalize vmemRegionAssocPhysicalAddress kalloc r paddr k = associated at noted appends ample ⊢
      obtain ⟨sized, isSized⟩ : ∃ sized, sized = associated.2.modifyRegion r fun region =>
        { region with size := region.allocatedSize } := ⟨_, rfl⟩
      rw [← isSized] at ample ⊢
      have path := @mapPhysicalLoop_growthPath kalloc Set.univ r physicalStartAddr count (Set.mem_univ r)
        (wrap (paddr + systemPageSize)) (if paddr = physicalStartAddr then associated.1 else returningAddr) sized
      have rest := ih (wrap (paddr + systemPageSize))
        (if paddr = physicalStartAddr then associated.1 else returningAddr) sized (wrap_lt _)
      generalize mapPhysicalLoop kalloc r physicalStartAddr count (wrap (paddr + systemPageSize))
        (if paddr = physicalStartAddr then associated.1 else returningAddr) sized = result at path rest ample ⊢
      have sizedLater : Later associated.2 sized := by
        rw [isSized]
        exact .of_alloc rfl List.suffix_rfl
      have ample' : Ample associated.2 := by
        refine ample.earlier (Later.branch (Later.refl _) ?_)
        exact sizedLater.trans (reliable.laterOf path.path)
      have address := (noted ample'.served).1
      have first := appends ample'.served
      rw [address] at rest ample ⊢
      by_cases zero : wrap ((k.region r).start + (k.region r).allocatedSize) = 0
      · rw [if_pos zero, if_pos zero]
        exact ⟨rfl, fun success => absurd rfl success⟩
      · rw [if_neg zero] at ample ⊢
        rw [if_neg zero]
        have region : sized.region r = { k.region r with
            allocatedSize := (k.region r).allocatedSize + 4096 * 1
            pages := (k.region r).pages.map (· ++ [paddr])
            size := (k.region r).allocatedSize + 4096 * 1 } := by
          rw [isSized, Kernel.region_modifyRegion_self, first.region]
          rfl
        have spares' : sized.Spares r := by
          rw [isSized]
          exact first.spares
        have mapped' : ∀ v ∈ (sized.region r).attached.items, (sized.vmem v).map.isSome := by
          intro v member
          rw [region] at member
          rw [isSized]
          exact first.maps.isSome (mapped v member)
        obtain ⟨value, pages⟩ := rest spares' (by rw [region, Option.isSome_map]; exact listed) mapped'
          (by rw [region]; exact fits) ample
        refine ⟨?_, fun success => ?_⟩
        · rw [value, region]
          rfl
        · have grows : MapsGrow associated.2 result.2 := by
            have tail := mapsGrow_closed.path (fun size k => (reliable.beside r size k).maps) path
            rw [isSized] at tail
            exact tail
          exact Maps.cons bound first mapped (isSized ▸ pages success) grows

/-- Mapping into a new region, for any arguments: the result is the start of the region, or `0`. -/
theorem Reliable.vmemRegionMapPhysicalAddress_ample (reliable : Reliable kalloc) {physicalStartAddr extent : Nat}
    (bound : physicalStartAddr < 2 ^ 64) (small : extent < 2 ^ 64) (whole : extent % 4096 = 0) (spares : k.Spares r)
    {start : Nat} (fresh : (k.region r).Fresh v start) (map : (k.vmem v).map.isSome) (startBound : start < 2 ^ 64)
    (aligned : start % 4096 = 0)
    (ample : Ample (vmemRegionMapPhysicalAddress kalloc (some r) physicalStartAddr extent k).2) :
    (vmemRegionMapPhysicalAddress kalloc (some r) physicalStartAddr extent k).1 =
      (if physicalStartAddr % 4096 = 0 ∧ extent ≠ 0 ∧ 0 < start ∧ start + extent ≤ 2 ^ 64 then start else 0) ∧
    ((vmemRegionMapPhysicalAddress kalloc (some r) physicalStartAddr extent k).1 ≠ 0 →
      Maps r (extent / 4096) physicalStartAddr k
        (vmemRegionMapPhysicalAddress kalloc (some r) physicalStartAddr extent k).2) := by
  have wholeSize : memAlign extent = extent := (memAlign_eq_iff extent).mpr whole
  unfold vmemRegionMapPhysicalAddress at ample ⊢
  dsimp only at ample ⊢
  rw [wholeSize] at ample ⊢
  by_cases accepted : physicalStartAddr % 4096 = 0
  · have same : memAlign physicalStartAddr = physicalStartAddr := (memAlign_eq_iff physicalStartAddr).mpr accepted
    have taken : ¬ (physicalStartAddr ≠ memAlign physicalStartAddr ∨ extent ≠ extent) := by
      rw [same]
      simp
    rw [if_neg taken] at ample ⊢
    have pages : 4096 * (extent / systemPageSize) = extent := by
      unfold systemPageSize
      omega
    have mapped : ∀ w ∈ (k.region r).attached.items, (k.vmem w).map.isSome := by
      intro w member
      rw [fresh.attached] at member
      rw [List.mem_singleton.mp member]
      exact map
    obtain ⟨value, entries⟩ := reliable.mapPhysicalLoop_ample physicalStartAddr (extent / systemPageSize)
      physicalStartAddr 0 k bound spares (by rw [fresh.pages]; rfl) mapped
      (by rw [fresh.allocated, pages, Nat.zero_add]; exact small) ample
    rw [fresh.allocated, fresh.place, mapResult_eq startBound aligned small whole] at value
    refine ⟨value.trans ?_, entries⟩
    simp only [accepted, true_and]
  · have refused : physicalStartAddr ≠ memAlign physicalStartAddr ∨ extent ≠ extent :=
      Or.inl fun same => accepted ((memAlign_eq_iff physicalStartAddr).mp same.symm)
    rw [if_pos refused, if_neg fun fits => accepted fits.1]
    exact ⟨rfl, fun success => absurd rfl success⟩

end BubackOS
