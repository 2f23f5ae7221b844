import BubackOS.Core.PageGrants
import BubackOS.Core.VmemRuns

/-!
# Growing a region

`vmem_region_resize` takes the missing pages one by one and gives each to the region
before it takes the next.  As long as the kernel has memory for its own records, the
region is whole after every page, also after the last one there was.
-/

namespace BubackOS

open Library

variable {kalloc : Kalloc} {T : Set Nat} {k k' k'' : Kernel} {v r s : Nat} {first added : List Nat}

/-! ## The loop -/

/-- A region that got pages at its end, noted in every address space it is attached to. -/
structure Appends (r : Nat) (added : List Nat) (k k' : Kernel) : Prop where
  spares : k'.Spares r
  region : k'.region r = { k.region r with
    allocatedSize := (k.region r).allocatedSize + 4096 * added.length
    pages := (k.region r).pages.map (· ++ added) }
  handed : k'.handed r = added.reverse ++ k.handed r
  maps : MapsGrow k k'
  entries : (∀ v ∈ (k.region r).attached.items, (k.vmem v).map.isSome) →
    ∀ v ∈ (k.region r).attached.items, ∀ i page, added[i]? = some page →
      { virtualAddr := wrap ((k.region r).start + ((k.region r).allocatedSize + 4096 * i)),
        physicalAddr := page, region := r } ∈ (k'.vmem v).map.items

namespace Appends

/-- A step beside the region adds no page. -/
theorem beside (spares : k.Spares r) (rest : Beside r k k') : Appends r [] k k' := by
  refine ⟨rest.spares spares, ?_, rest.handed spares, rest.maps, fun _ v _ i page absent => by cases absent⟩
  rw [rest.region spares]
  cases pages : (k.region r).pages with
  | none => rw [Option.map_none, ← pages]; rfl
  | some items =>
      rw [Option.map_some, List.append_nil, ← pages]
      rfl

theorem trans (before : Appends r first k k') (after : Appends r added k' k'') :
    Appends r (first ++ added) k k'' := by
  have region := before.region
  refine ⟨after.spares, ?_, ?_, before.maps.trans after.maps, fun some v member i page found => ?_⟩
  · rw [after.region, region]
    cases (k.region r).pages with
    | none => simp only [Option.map_none, List.length_append, Nat.mul_add, Nat.add_assoc]
    | some items => simp only [Option.map_some, List.length_append, Nat.mul_add, Nat.add_assoc, List.append_assoc]
  · rw [after.handed, before.handed, List.reverse_append, List.append_assoc]
  · by_cases early : i < first.length
    · rw [List.getElem?_append_left early] at found
      exact after.maps.mem (before.entries some v member i page found)
    · rw [List.getElem?_append_right (Nat.le_of_not_lt early)] at found
      have attached : (k'.region r).attached = (k.region r).attached := by rw [region]
      have start : (k'.region r).start = (k.region r).start := by rw [region]
      have size : (k'.region r).allocatedSize = (k.region r).allocatedSize + 4096 * first.length := by rw [region]
      have entry := after.entries (fun w listed => before.maps.isSome (some w (attached ▸ listed)))
        v (attached ▸ member) (i - first.length) page found
      have address : (k'.region r).start + ((k'.region r).allocatedSize + 4096 * (i - first.length)) =
          (k.region r).start + ((k.region r).allocatedSize + 4096 * i) := by
        rw [start, size]
        omega
      rw [address] at entry
      exact entry

end Appends

section Loop

variable (calls : ∀ size k, Beside r k (kalloc size k).2)

include calls

/-- One page more, with memory for the records. -/
theorem associate_appends (honest : Honest kalloc) {paddr : Nat} (spares : k.Spares r)
    (listed : (k.region r).pages.isSome) (fits : (k.region r).allocatedSize + 4096 < 2 ^ 64)
    (served : Served (vmemRegionAssocPhysicalAddress kalloc r paddr k).2.alloc.blocks) :
    Appends r [paddr] k (vmemRegionAssocPhysicalAddress kalloc r paddr k).2 := by
  have gets := associate_associates calls paddr spares
  have pages := associate_recorded calls honest spares listed served
  refine ⟨gets.spares, ?_, gets.handed, gets.maps, fun some v member i page found => ?_⟩
  · rw [gets.region, pages]
    unfold systemPageSize
    rw [wrap_of_lt fits]
    rfl
  · obtain ⟨rfl, rfl⟩ : i = 0 ∧ page = paddr := by
      cases i with
      | zero => exact ⟨rfl, (Option.some.inj found).symm⟩
      | succ i => cases found
    exact (associate_noted calls honest spares some served).2 v member

/-- The loop gives the region every page it takes, and ends early only when there is none. -/
theorem resizeLoop_appends (honest : Honest kalloc) (count : Nat) :
    ∀ k : Kernel, k.Spares r → (k.region r).pages.isSome →
      (k.region r).allocatedSize + 4096 * count < 2 ^ 64 →
      Served (resizeLoop kalloc r count k).2.alloc.blocks →
      ∃ added, Appends r added k (resizeLoop kalloc r count k).2 ∧ added.length ≤ count ∧
        (added.length = count ↔ (resizeLoop kalloc r count k).1 = true) := by
  induction count with
  | zero =>
      intro k spares _ _ _
      exact ⟨[], Appends.beside spares (Beside.refl r k), Nat.le_refl 0, ⟨fun _ => rfl, fun _ => rfl⟩⟩
  | succ count ih =>
      intro k spares listed fits served
      have total : (k.region r).allocatedSize + 4096 * (count + 1) =
          (k.region r).allocatedSize + 4096 + 4096 * count := by omega
      rw [total] at fits
      have fits' := Nat.lt_of_le_of_lt (Nat.le_add_right _ (4096 * count)) fits
      have page := Beside.pmemAllocate r k
      unfold resizeLoop at served ⊢
      dsimp only at served ⊢
      split at served
      · rename_i failed
        rw [if_pos failed]
        exact ⟨[], Appends.beside spares page, Nat.zero_le _,
          iff_of_false (Nat.succ_ne_zero count).symm Bool.false_ne_true⟩
      · rename_i found
        rw [if_neg found]
        have region := page.region spares
        have served' := served.of_suffix (later_closed.growth.path (fun size k => (calls size k).later)
          (resizeLoop_growthPath r count (Set.mem_univ r) _)).blocks
        have one := associate_appends calls honest (page.spares spares) (by rw [region]; exact listed)
          (by rw [region]; exact fits') served'
        have here := (Appends.beside spares page).trans one
        have size : ((vmemRegionAssocPhysicalAddress kalloc r (pmemAllocate k).1 (pmemAllocate k).2).2.region
            r).allocatedSize = (k.region r).allocatedSize + 4096 := by rw [here.region]; rfl
        obtain ⟨added, rest, short, full⟩ := ih _ here.spares
          (by rw [here.region]; exact (Option.isSome_map ..).trans listed) (by rw [size]; exact fits) served
        have length : ([] ++ [(pmemAllocate k).1] ++ added).length = added.length + 1 := by simp
        refine ⟨_, here.trans rest, ?_, ?_⟩
        · rw [length]
          exact Nat.succ_le_succ short
        · rw [length, Nat.add_right_cancel_iff, full]

end Loop

/-! ## Resizing -/

/-- The pages `vmem_region_resize` asks for. -/
def missingPages (newSize : Nat) (region : VmemRegion) : Nat :=
  if alignNext newSize systemPageSize < region.allocatedSize then 0
  else (alignNext newSize systemPageSize - region.allocatedSize) / systemPageSize

/-- Nothing but the size is set behind the loop, and in front of it when the region is large enough. -/
theorem vmemRegionResize_eq (newSize : Nat) (k : Kernel) : vmemRegionResize kalloc (some r) newSize k =
    if alignNext newSize systemPageSize < (k.region r).allocatedSize then
      (true, (k.modifyRegion r fun region => { region with size := newSize }).modifyRegion r (adoptSize newSize))
    else ((resizeLoop kalloc r (missingPages newSize (k.region r)) k).1,
      (resizeLoop kalloc r (missingPages newSize (k.region r)) k).2.modifyRegion r (adoptSize newSize)) := by
  unfold vmemRegionResize missingPages
  dsimp only
  split
  · rfl
  · rename_i large
    rw [wrapSub_of_le (Nat.le_of_not_lt large) (alignNext_lt newSize)]

theorem missingPages_fits {newSize : Nat} {region : VmemRegion}
    (large : ¬ alignNext newSize systemPageSize < region.allocatedSize) :
    region.allocatedSize + 4096 * missingPages newSize region ≤ alignNext newSize systemPageSize := by
  unfold missingPages
  rw [if_neg large]
  unfold systemPageSize at large ⊢
  omega

theorem alignNext_lt_add (size : Nat) : alignNext size systemPageSize < size + 4096 := by
  unfold alignNext align wrap systemPageSize
  omega

theorem adoptSize_of_lt {newSize : Nat} {region : VmemRegion} (short : region.allocatedSize < newSize) :
    adoptSize newSize region = region := if_neg (Nat.not_le_of_lt short)

/-- In every state with the kernel's lists in place, for every region that `kalloc` does not itself grow
meanwhile: a resize that runs out of physical memory keeps the size, the pages taken for the region are
its new tail in the order they were taken, each is noted at its address in every address space the region
is attached to, and every other page taken went to the kernel-data region. -/
theorem exhausted_resize_keeps_pages {newSize : Nat} (spares : k.Spares r) (listed : (k.region r).pages.isSome)
    (mapped : ∀ v ∈ (k.region r).attached.items, (k.vmem v).map.isSome) {resized : Bool × Kernel}
    (isResized : resized = vmemRegionResize BubackOS.kalloc (some r) newSize k)
    (served : Served resized.2.alloc.blocks) (failed : resized.1 = false) :
    ∃ added, (resized.2.region r).size = (k.region r).size ∧
      (resized.2.region r).pages.items = (k.region r).pages.items ++ added ∧
      (resized.2.region r).allocatedSize = (k.region r).allocatedSize + 4096 * added.length ∧
      (∀ v ∈ (k.region r).attached.items, ∀ i page, added[i]? = some page →
        { virtualAddr := wrap ((k.region r).start + ((k.region r).allocatedSize + 4096 * i)),
          physicalAddr := page, region := r } ∈ (resized.2.vmem v).map.items) ∧
      resized.2.handed r = added.reverse ++ k.handed r ∧ added.Nodup ∧ (∀ page ∈ added, Took page k resized.2) ∧
      ∀ i, k.core.pmem.pages i = .free → resized.2.core.pmem.pages i ≠ .free → 4096 * i ∈ added ∨
        ∃ data ≠ r, k.core.kernelDataVmemRegion = some data ∧
          ∃ more, resized.2.handed data = more ++ k.handed data ∧ 4096 * i ∈ more := by
  have grants := Grants.vmemRegionResize grants_closed.kalloc r newSize k
  have growth : GrowthPath BubackOS.kalloc {r} k (vmemRegionResize BubackOS.kalloc (some r) newSize k).2 :=
    vmemRegionResize_growthPath (some r) (fun s target => (Option.some.inj target).symm) newSize k
  rw [← isResized] at growth grants
  rw [vmemRegionResize_eq] at isResized
  by_cases small : alignNext newSize systemPageSize < (k.region r).allocatedSize
  · rw [if_pos small] at isResized
    rw [isResized] at failed
    cases failed
  rw [if_neg small] at isResized
  have fits := missingPages_fits small
  obtain ⟨loop, isLoop⟩ : ∃ loop, loop = resizeLoop BubackOS.kalloc r (missingPages newSize (k.region r)) k :=
    ⟨_, rfl⟩
  rw [← isLoop] at isResized
  have served' : Served loop.2.alloc.blocks := by rw [isResized] at served; exact served
  obtain ⟨added, appends, short, full⟩ := resizeLoop_appends (kalloc_beside r) kalloc_honest _ k spares
    listed (Nat.lt_of_le_of_lt fits (alignNext_lt newSize)) (isLoop ▸ served')
  rw [← isLoop] at appends full
  have stopped : added.length ≠ missingPages newSize (k.region r) := by
    intro all
    rw [isResized] at failed
    exact Bool.false_ne_true (failed.symm.trans (full.mp all))
  have size : (loop.2.region r).allocatedSize = (k.region r).allocatedSize + 4096 * added.length := by
    rw [appends.region]
  have region : resized.2.region r = loop.2.region r := by
    have close := alignNext_lt_add newSize
    rw [isResized, Kernel.region_modifyRegion_self]
    exact adoptSize_of_lt (by rw [size]; omega)
  have handed : resized.2.handed r = added.reverse ++ k.handed r := by
    rw [isResized]
    exact appends.handed
  have acquires := grants.acquires handed
  refine ⟨added, ?_, ?_, ?_, ?_, handed, acquires.nodup, acquires.took, fun i free now => ?_⟩
  · rw [region, appends.region]
  · obtain ⟨items, found⟩ := Option.isSome_iff_exists.mp listed
    rw [region, appends.region, found]
    rfl
  · rw [region, size]
  · rw [isResized]
    exact appends.entries mapped
  · obtain ⟨s, more, handed', member⟩ := grants.taken ⟨i, rfl, free, now⟩
    by_cases same : s = r
    · subst same
      rw [handed] at handed'
      rw [← List.append_cancel_right handed', List.mem_reverse] at member
      exact Or.inl member
    -- the loop grows `r` and `kalloc` the kernel's data: no other region gets a page
    · refine Or.inr ⟨s, same, ?_, more, handed', member⟩
      by_contra notData
      rw [(Beside.growth (kalloc_beside s) same growth).handed (Or.inl notData), List.self_eq_append_left] at handed'
      rw [handed'] at member
      exact List.not_mem_nil member

/-- A machine with three free pages, and a region that has one of them. -/
def scantVmems : Kernel :=
  (vmemRegionCreate BubackOS.kalloc (some 0) (some "heap") 0x200000 4096 false true false
    (vmemStart BubackOS.kalloc
      (.start sampleKernel.alloc.platform { totalOfPages := 16387, pages := fun _ => .free } fun _ => 0))).2

theorem exhausted_resize_keeps_pages_scantVmems :
    ∃ added, ((vmemRegionResize BubackOS.kalloc (some 0) 0x5000 scantVmems).2.region 0).size =
        (scantVmems.region 0).size ∧
      ((vmemRegionResize BubackOS.kalloc (some 0) 0x5000 scantVmems).2.region 0).pages.items =
        (scantVmems.region 0).pages.items ++ added := by
  have spares : scantVmems.Spares 0 := Or.inl (by decide +kernel)
  obtain ⟨added, size, pages, -⟩ := exhausted_resize_keeps_pages spares (by decide +kernel)
    (by decide +kernel) (Eq.refl (vmemRegionResize BubackOS.kalloc (some 0) 0x5000 scantVmems)) (by decide +kernel)
    (by decide +kernel)
  exact ⟨added, size, pages⟩

/-- A machine whose kernel data begins shortly before two megabytes, with fourteen free pages. -/
def tightKernel : Kernel :=
  .start
    { kernel := { addrStart := 0x100000, addrEnd := 0x101000, size := 0x1000 }
      kernelData := { addrStart := 0x1E1000, addrEnd := 0x1E1000, size := 0 } }
    { totalOfPages := 16398, pages := fun _ => .free } (fun _ => 0)

/-- Its boot, two regions of the kernel address space far from each other, and a request. -/
def tightRun : Kernel :=
  let booted := (memoryAllocatorInitialize (vmemStart BubackOS.kalloc tightKernel)).2
  let far := vmemRegionCreate BubackOS.kalloc (some 0) (some "far") 0x8000000000 4096 true true true booted
  let near := vmemRegionCreate BubackOS.kalloc (some 0) (some "near") 0x40000000 4096 true true true far.2
  (BubackOS.kalloc 8000 near.2).2

/-- The kernel-data region itself: the calls for its first page grow it further than asked for, and the
size is adopted although the resize fails for want of a page. -/
theorem exhausted_resize_adopts_size :
    tightRun.core.kernelDataVmemRegion = some 1 ∧
    (vmemRegionResize BubackOS.kalloc (some 1) 135168 tightRun).1 = false ∧
    Served (vmemRegionResize BubackOS.kalloc (some 1) 135168 tightRun).2.alloc.blocks ∧
    (tightRun.region 1).size = 126976 ∧
    ((vmemRegionResize BubackOS.kalloc (some 1) 135168 tightRun).2.region 1).size = 135168 := by
  decide +kernel

end BubackOS
