import BubackOS.Core.LinkRuns

/-!
# Growing regions, with the additions of the machine

A growing region gets its pages one after the other, and every page is announced to
the address spaces the region is attached to.  The addresses are sums of machine
words, and nothing keeps a caller from mapping physical page `0`; the lists still
agree on what they say, in every state of every run in which no allocation fails.
-/

namespace BubackOS

open Library

variable {P : Allocator → Prop} {kalloc : Kalloc} {k k' k₀ : Kernel} {v r : Nat} {pmem : Pmem}

/-! ## Growing on the lists -/

namespace Space

variable {s : Space}

/-- Put pages at the end of a region, in every address space the region is attached to. -/
def extend (r : Nat) (added : List Nat) (s : Space) : Space :=
  { s with
    pages := Function.update s.pages r (s.pages r ++ added)
    allocated := Function.update s.allocated r (wrap (s.allocated r + 4096 * added.length))
    map := fun v =>
      if v ∈ s.attached r then s.map v ++ wrapEntries (s.start r) r (s.pages r).length added
      else s.map v }

/-- The allocated size of a region counts its pages. -/
def Sized (s : Space) (r : Nat) : Prop := s.allocated r = wrap (4096 * (s.pages r).length)

theorem wrapEntries_append (start r first : Nat) (pages more : List Nat) :
    wrapEntries start r first (pages ++ more) =
      wrapEntries start r first pages ++ wrapEntries start r (first + pages.length) more := by
  induction pages generalizing first with
  | nil => rfl
  | cons page rest ih =>
      rw [List.cons_append, wrapEntries_cons, wrapEntries_cons, ih, List.cons_append, List.length_cons,
        Nat.add_assoc, Nat.add_comm 1]

theorem mem_wrapEntries {start r first : Nat} {pages : List Nat} {entry : VmemMap}
    (member : entry ∈ wrapEntries start r first pages) : entry.region = r ∧ entry.physicalAddr ∈ pages := by
  obtain ⟨i, bound, rfl⟩ := List.mem_mapIdx.mp member
  exact ⟨rfl, List.getElem_mem bound⟩

theorem filter_wrapEntries (start r first : Nat) (pages : List Nat) :
    (wrapEntries start r first pages).filter (·.region = r) = wrapEntries start r first pages := by
  rw [List.filter_eq_self]
  intro entry member
  obtain ⟨i, bound, rfl⟩ := List.mem_mapIdx.mp member
  simp

theorem extend_nil (sized : s.Sized r) : s.extend r [] = s := by
  have pages : Function.update s.pages r (s.pages r ++ []) = s.pages := by
    rw [List.append_nil]
    exact Function.update_eq_self r s.pages
  have allocated : Function.update s.allocated r (wrap (s.allocated r + 4096 * ([] : List Nat).length)) =
      s.allocated := by
    rw [List.length_nil, Nat.mul_zero, Nat.add_zero, sized, wrap, wrap, Nat.mod_mod, ← wrap, ← sized]
    exact Function.update_eq_self r s.allocated
  have map : (fun v => if v ∈ s.attached r then s.map v ++ wrapEntries (s.start r) r (s.pages r).length []
      else s.map v) = s.map := by
    funext v
    split
    · exact List.append_nil _
    · rfl
  rw [extend, pages, allocated, map]

theorem extend_extend (r : Nat) (added more : List Nat) (s : Space) :
    (s.extend r added).extend r more = s.extend r (added ++ more) := by
  unfold extend
  dsimp only
  rw [Function.update_idem, Function.update_idem, Function.update_self, Function.update_self,
    List.append_assoc, List.length_append, List.length_append]
  have allocated : wrap (wrap (s.allocated r + 4096 * added.length) + 4096 * more.length) =
      wrap (s.allocated r + 4096 * (added.length + more.length)) := by
    unfold wrap
    omega
  rw [allocated]
  congr 1
  funext v
  split
  · rw [List.append_assoc, ← wrapEntries_append]
  · rfl

theorem associateWrap_eq (sized : s.Sized r) (page : Nat) : s.associateWrap r page = s.extend r [page] := by
  have here : wrap (s.start r + s.allocated r) = wrap (s.start r + 4096 * (s.pages r).length) := by
    rw [sized]
    unfold wrap
    omega
  unfold associateWrap extend
  rw [here]
  rfl

theorem Sized.extend (sized : s.Sized r) (added : List Nat) : (s.extend r added).Sized r := by
  unfold Sized at sized ⊢
  simp only [Space.extend, Function.update_self, List.length_append]
  rw [sized]
  unfold wrap
  omega

theorem setSize_setSize (r first second : Nat) (s : Space) :
    (s.setSize r first).setSize r second = s.setSize r second := by
  unfold setSize
  rw [Function.update_idem]

theorem setSize_self (r : Nat) (s : Space) : s.setSize r (s.size r) = s := by
  unfold setSize
  rw [Function.update_eq_self]

theorem filter_wrapEntries_other {start r r' first : Nat} {pages : List Nat} (other : r' ≠ r) :
    (wrapEntries start r first pages).filter (·.region = r') = [] := by
  rw [List.filter_eq_nil_iff]
  intro entry member
  obtain ⟨i, bound, rfl⟩ := List.mem_mapIdx.mp member
  simp [other.symm]

end Space

/-! ## Growing -/

/-- The lists exist, the links agree, the sizes count the pages, the starts are words, and a map
has entries only for regions that are attached and for pages they have. -/
structure Settled (k : Kernel) : Prop where
  ready : Ready k
  linked : k.space.Linked
  sized : ∀ r, r < k.core.vmemRegions.count → k.space.Sized r
  word : ∀ r, r < k.core.vmemRegions.count → k.space.start r < 2 ^ 64
  unmapped : ∀ v r, v ∉ k.space.attached r → (k.space.map v).filter (·.region = r) = []
  listed : ∀ v, ∀ entry ∈ k.space.map v, entry.physicalAddr ∈ k.space.pages entry.region

namespace Settled

theorem still (settled : Settled k) (acts : Acts P (fun s => s) k k') : Settled k' := by
  have count := acts.regionCount rfl
  refine ⟨acts.ready settled.ready, ?_, fun r bound => ?_, fun r bound => ?_, ?_, ?_⟩
  all_goals rw [acts.space]
  · exact settled.linked
  · exact settled.sized r (count ▸ bound)
  · exact settled.word r (count ▸ bound)
  · exact settled.unmapped
  · exact settled.listed

/-- An entry of a map belongs to a region that is attached. -/
theorem attached (settled : Settled k) {entry : VmemMap} (member : entry ∈ k.space.map v) :
    v ∈ k.space.attached entry.region := by
  by_contra free
  have here : entry ∈ (k.space.map v).filter (·.region = entry.region) := by simpa using member
  rw [settled.unmapped v entry.region free] at here
  exact absurd here List.not_mem_nil

theorem newVmem (settled : Settled k) (acts : Acts P Space.newVmem k k') : Settled k' := by
  have count := acts.regionCount rfl
  refine ⟨acts.ready settled.ready, ?_, fun r bound => ?_, fun r bound => ?_, fun v r free => ?_,
    fun v entry member => ?_⟩
  · rw [acts.space]
    exact settled.linked.newVmem
  · rw [acts.space]
    exact settled.sized r (count ▸ bound)
  · rw [acts.space]
    exact settled.word r (count ▸ bound)
  · rw [acts.space] at free ⊢
    by_cases new : v = k.space.vmemCount
    · subst new
      simp [Space.newVmem]
    · simp only [Space.newVmem, Function.update_of_ne new]
      exact settled.unmapped v r free
  · rw [acts.space] at member ⊢
    by_cases new : v = k.space.vmemCount
    · subst new
      simp [Space.newVmem] at member
    · simp only [Space.newVmem, Function.update_of_ne new] at member
      exact settled.listed v entry member

theorem newRegion {start : Nat} (settled : Settled k) (acts : Acts P (Space.newRegion start) k k')
    (word : start < 2 ^ 64) : Settled k' := by
  have count : k'.core.vmemRegions.count = k.space.regionCount + 1 := congrArg Space.regionCount acts.space
  have older : ∀ r, r < k'.core.vmemRegions.count → r ≠ k.space.regionCount → r < k.core.vmemRegions.count := by
    intro r bound other
    rw [count] at bound
    exact Nat.lt_of_le_of_ne (Nat.le_of_lt_succ bound) other
  refine ⟨acts.ready settled.ready, ?_, fun r bound => ?_, fun r bound => ?_, fun v r free => ?_,
    fun v entry member => ?_⟩
  · rw [acts.space]
    exact settled.linked.newRegion start
  · rw [acts.space]
    by_cases new : r = k.space.regionCount
    · subst new
      simp [Space.Sized, Space.newRegion, wrap]
    · have before := settled.sized r (older r bound new)
      unfold Space.Sized at before ⊢
      simp only [Space.newRegion, Function.update_of_ne new]
      exact before
  · rw [acts.space]
    by_cases new : r = k.space.regionCount
    · subst new
      simp only [Space.newRegion, Function.update_self]
      exact word
    · simp only [Space.newRegion, Function.update_of_ne new]
      exact settled.word r (older r bound new)
  · rw [acts.space] at free ⊢
    by_cases new : r = k.space.regionCount
    · subst new
      exact settled.unmapped v _ (settled.linked.newRegion_free v).2
    · simp only [Space.newRegion, Function.update_of_ne new] at free
      exact settled.unmapped v r free
  · rw [acts.space] at member ⊢
    have before : entry ∈ k.space.map v := member
    have old : entry.region ≠ k.space.regionCount := fun new =>
      (settled.linked.newRegion_free v).2 (new ▸ settled.attached before)
    simp only [Space.newRegion, Function.update_of_ne old]
    exact settled.listed v entry before

end Settled

/-- A step that puts the pages `added` at the end of a region. -/
def Grows (P : Allocator → Prop) (r : Nat) (added : List Nat) (k k' : Kernel) : Prop :=
  ∃ size, Acts P (fun s => (s.extend r added).setSize r size) k k'

namespace Grows

variable {k'' : Kernel} {added more : List Nat}

theorem refl (mode : P k.alloc) (sized : k.space.Sized r) : Grows P r [] k k := by
  refine ⟨k.space.size r, (Acts.refl mode).congr ?_⟩
  rw [Space.extend_nil sized, Space.setSize_self]

theorem trans (first : Grows P r added k k') (second : Grows P r more k' k'') :
    Grows P r (added ++ more) k k'' := by
  obtain ⟨size, acts⟩ := first
  obtain ⟨size', acts'⟩ := second
  refine ⟨size', (acts.trans acts').congr ?_⟩
  rw [← Space.extend_extend]
  exact Space.setSize_setSize r size size' ((k.space.extend r added).extend r more)

/-- A step the lists do not show. -/
theorem after_still (still : Acts P (fun s => s) k k') (grows : Grows P r added k' k'') :
    Grows P r added k k'' := by
  obtain ⟨size, acts⟩ := grows
  exact ⟨size, still.trans acts⟩

theorem then_size (grows : Grows P r added k k') (change : VmemRegion → Nat) :
    Grows P r added k (k'.modifyRegion r fun region => { region with size := change region }) := by
  obtain ⟨size, acts⟩ := grows
  refine ⟨change (k'.region r), (acts.trans (Acts.declare acts.mode r change)).congr ?_⟩
  exact Space.setSize_setSize r size _ _

theorem mode (grows : Grows P r added k k') : P k'.alloc := by
  obtain ⟨_, acts⟩ := grows
  exact acts.mode

theorem known (grows : Grows P r added k k') (known : r < k.core.vmemRegions.count) :
    r < k'.core.vmemRegions.count := by
  obtain ⟨_, acts⟩ := grows
  rw [acts.regionCount rfl]
  exact known

theorem settled (grows : Grows P r added k k') (settled : Settled k) : Settled k' := by
  obtain ⟨size, acts⟩ := grows
  have count := acts.regionCount rfl
  refine ⟨acts.ready settled.ready, ?_, fun r' bound => ?_, fun r' bound => ?_, fun v r' free => ?_,
    fun v entry member => ?_⟩
  · rw [acts.space]
    exact ⟨settled.linked.symmetric, settled.linked.regionsNodup, settled.linked.attachedNodup,
      settled.linked.known⟩
  · rw [acts.space]
    by_cases same : r' = r
    · subst same
      exact (settled.sized r' (count ▸ bound)).extend added
    · have before := settled.sized r' (count ▸ bound)
      unfold Space.Sized at before ⊢
      simp only [Space.setSize, Space.extend, Function.update_of_ne same]
      exact before
  · rw [acts.space]
    exact settled.word r' (count ▸ bound)
  · rw [acts.space] at free ⊢
    have before := settled.unmapped v r' free
    simp only [Space.setSize, Space.extend]
    split
    · rename_i member
      have other : r' ≠ r := fun same => free (same ▸ member)
      rw [List.filter_append, before, Space.filter_wrapEntries_other other]
      rfl
    · exact before
  · rw [acts.space] at member ⊢
    have older : ∀ page s, page ∈ k.space.pages s →
        page ∈ ((k.space.extend r added).setSize r size).pages s := by
      intro page s listed
      by_cases same : s = r
      · subst same
        simp only [Space.setSize, Space.extend, Function.update_self]
        exact List.mem_append_left _ listed
      · simp only [Space.setSize, Space.extend, Function.update_of_ne same]
        exact listed
    have now : entry ∈ if v ∈ k.space.attached r then k.space.map v ++
        Space.wrapEntries (k.space.start r) r (k.space.pages r).length added else k.space.map v := member
    split at now
    · rcases List.mem_append.mp now with before | new
      · exact older _ _ (settled.listed v entry before)
      · obtain ⟨region, page⟩ := Space.mem_wrapEntries new
        rw [region]
        simp only [Space.setSize, Space.extend, Function.update_self]
        exact List.mem_append_right _ page
    · exact older _ _ (settled.listed v entry now)

/-- What the next pages depend on. -/
theorem region (grows : Grows P r added k k') : (k'.region r).start = (k.region r).start ∧
    (k'.region r).allocatedSize = wrap ((k.region r).allocatedSize + 4096 * added.length) := by
  obtain ⟨size, acts⟩ := grows
  refine ⟨congrFun (congrArg Space.start acts.space) r, ?_⟩
  have allocated := congrFun (congrArg Space.allocated acts.space) r
  exact allocated.trans (Function.update_self _ _ _)

end Grows

theorem Quiet.notify_pmem (quiet : Quiet P kalloc) (path : NotifyPath kalloc k k') (mode : P k.alloc) :
    P k'.alloc ∧ k'.core.pmem = k.core.pmem := by
  induction path with
  | refl => exact ⟨mode, rfl⟩
  | @tail middle last _ step ih =>
      obtain ⟨mode', same⟩ := ih
      cases step with
      | table step =>
          cases step with
          | call size => exact ⟨quiet.stays size _ mode', by rw [quiet.core size _ mode', same]⟩
          | write => exact ⟨mode', same⟩
          | native => exact ⟨mode', same⟩
      | appendMap => exact ⟨mode', same⟩
      | annotate => exact ⟨mode', same⟩

theorem Quiet.append_pmem {α : Type} (quiet : Quiet P kalloc) (ll : ListField α) (data : α)
    (alloc : ∀ change k, (ll.modify change k).alloc = k.alloc)
    (pmem : ∀ change k, (ll.modify change k).core.pmem = k.core.pmem) (mode : P k.alloc) :
    P (linkedlistAppend kalloc ll data k).2.alloc ∧
      (linkedlistAppend kalloc ll data k).2.core.pmem = k.core.pmem := by
  have called : P (kalloc sizeofLinkedlistNode k).2.alloc ∧
      (kalloc sizeofLinkedlistNode k).2.core.pmem = k.core.pmem :=
    ⟨quiet.stays _ k mode, by rw [quiet.core _ k mode]⟩
  refine linkedlistAppend_snd (P := fun k' => P k'.alloc ∧ k'.core.pmem = k.core.pmem) ⟨mode, rfl⟩ called ?_
  rw [alloc, pmem]
  exact called

/-- A page is put at the end of a region; no page is taken for it. -/
theorem vmemRegionAssoc_grows (quiet : Quiet P kalloc) (mode : P k.alloc) (settled : Settled k)
    (known : r < k.core.vmemRegions.count) {paddr : Nat}
    (served : Served (vmemRegionAssocPhysicalAddress kalloc r paddr k).2.alloc.blocks) :
    (vmemRegionAssocPhysicalAddress kalloc r paddr k).1 =
        wrap ((k.region r).start + (k.region r).allocatedSize) ∧
      Grows P r [paddr] k (vmemRegionAssocPhysicalAddress kalloc r paddr k).2 ∧
      (vmemRegionAssocPhysicalAddress kalloc r paddr k).2.core.pmem = k.core.pmem := by
  obtain ⟨address, acts⟩ := vmemRegionAssoc_wraps quiet mode settled.ready settled.linked known served
  refine ⟨address, ⟨k.space.size r, acts.congr ?_⟩, ?_⟩
  · rw [Space.associateWrap_eq (settled.sized r known)]
    exact (Space.setSize_self r (k.space.extend r [paddr])).symm
  · obtain ⟨stored, isStored⟩ : ∃ stored, stored =
      linkedlistAppend kalloc (pagesOf r) paddr (k.beginAssociate r paddr) := ⟨_, rfl⟩
    have storedFacts : P stored.2.alloc ∧ stored.2.core.pmem = k.core.pmem := by
      rw [isStored]
      exact quiet.append_pmem (k := k.beginAssociate r paddr) (pagesOf r) paddr (fun _ _ => rfl)
        (fun _ _ => rfl) mode
    have notified := quiet.notify_pmem (isStored ▸ notifyPage_notifyPath r paddr k) storedFacts.1
    rw [vmemRegionAssocPhysicalAddress_snd]
    exact notified.2.trans storedFacts.2

/-! ## The pages a call adds -/

/-- The pages the loop of `vmem_region_map_physical_address` adds: it stops after a page that came
to virtual address `0`. -/
def mapPages (start : Nat) : Nat → Nat → Nat → List Nat
  | 0, _, _ => []
  | count + 1, paddr, allocated =>
      paddr :: if wrap (start + allocated) = 0 then []
        else mapPages start count (wrap (paddr + systemPageSize)) (wrap (allocated + systemPageSize))

/-- The pages the loop of `vmem_region_resize` adds, and the page array after it. -/
def takePages : Nat → Pmem → List Nat × Pmem
  | 0, pmem => ([], pmem)
  | count + 1, pmem =>
      if pmem.allocate.1 = 0 then ([], pmem.allocate.2)
      else (pmem.allocate.1 :: (takePages count pmem.allocate.2).1, (takePages count pmem.allocate.2).2)

theorem mapPhysicalLoop_grows (quiet : Quiet P kalloc) (r physicalStartAddr count : Nat) :
    ∀ paddr returningAddr (k : Kernel), P k.alloc → Settled k → r < k.core.vmemRegions.count →
      Served (mapPhysicalLoop kalloc r physicalStartAddr count paddr returningAddr k).2.alloc.blocks →
      Grows P r (mapPages (k.region r).start count paddr (k.region r).allocatedSize) k
          (mapPhysicalLoop kalloc r physicalStartAddr count paddr returningAddr k).2 ∧
        (mapPhysicalLoop kalloc r physicalStartAddr count paddr returningAddr k).2.core.pmem =
          k.core.pmem := by
  induction count with
  | zero => exact fun _ _ k mode settled known _ => ⟨Grows.refl mode (settled.sized r known), rfl⟩
  | succ count ih =>
      intro paddr returningAddr k mode settled known served
      obtain ⟨associated, isAssociated⟩ : ∃ associated,
        associated = vmemRegionAssocPhysicalAddress kalloc r paddr k := ⟨_, rfl⟩
      obtain ⟨unfolded, served'⟩ := mapPhysicalLoop_succ quiet mode isAssociated served
      have step := vmemRegionAssoc_grows quiet mode settled known (by rw [← isAssociated]; exact served')
      rw [← isAssociated] at step
      obtain ⟨address, grows, pmem⟩ := step
      rw [mapPages, ← address]
      rw [unfolded] at served ⊢
      split
      · exact ⟨grows, pmem⟩
      · rename_i found
        rw [if_neg found] at served
        have declared := grows.then_size (·.allocatedSize)
        obtain ⟨start, allocated⟩ := declared.region
        obtain ⟨later, pmem'⟩ := ih _ _ _ declared.mode (declared.settled settled) (declared.known known) served
        rw [start, allocated, List.length_singleton, Nat.mul_one] at later
        exact ⟨declared.trans later, pmem'.trans pmem⟩

theorem resizeLoop_grows (quiet : Quiet P kalloc) (r count : Nat) :
    ∀ k : Kernel, P k.alloc → Settled k → r < k.core.vmemRegions.count →
      Served (resizeLoop kalloc r count k).2.alloc.blocks →
      Grows P r (takePages count k.core.pmem).1 k (resizeLoop kalloc r count k).2 ∧
        (resizeLoop kalloc r count k).2.core.pmem = (takePages count k.core.pmem).2 := by
  induction count with
  | zero => exact fun k mode settled known _ => ⟨Grows.refl mode (settled.sized r known), rfl⟩
  | succ count ih =>
      intro k mode settled known served
      have still := Acts.pmemAllocate mode
      by_cases found : (pmemAllocate k).1 = 0
      · have result : resizeLoop kalloc r (count + 1) k = (false, (pmemAllocate k).2) := if_pos found
        rw [result, takePages, ← pmemAllocate_fst, if_pos found]
        refine ⟨Grows.after_still still (Grows.refl still.mode ?_), ?_⟩
        · rw [still.space]
          exact settled.sized r known
        · rw [pmemAllocate_of_failure found]
          rfl
      · have result : resizeLoop kalloc r (count + 1) k = resizeLoop kalloc r count
            (vmemRegionAssocPhysicalAddress kalloc r (pmemAllocate k).1 (pmemAllocate k).2).2 :=
          if_neg found
        have taken : (pmemAllocate k).2.core.pmem = k.core.pmem.allocate.2 := by
          rw [pmemAllocate_of_success found]
          rfl
        rw [takePages, ← pmemAllocate_fst, if_neg found]
        rw [result] at served ⊢
        generalize pmemAllocate k = page at still taken served ⊢
        have settled' := settled.still still
        have known' : r < page.2.core.vmemRegions.count := by
          rw [still.regionCount rfl]
          exact known
        have associatedMode := (quiet.along (associate_path r page.1 page.2) still.mode).1
        obtain ⟨-, grows, same⟩ := vmemRegionAssoc_grows quiet still.mode settled' known'
          (quiet.served_before (resizeLoop_path r count (Set.mem_univ r) _) associatedMode served)
        obtain ⟨later, pmem⟩ := ih _ grows.mode (grows.settled settled') (grows.known known') served
        rw [same, taken] at later pmem
        exact ⟨(Grows.after_still still grows).trans later, pmem⟩

/-! ## Sequences of calls on a region -/

/-- A call that can put pages into a region. -/
inductive RegionOp where
  | resize (newSize : Nat)
  | map (physicalStartAddr size : Nat)

namespace RegionOp

/-- The state after a call. -/
def run (kalloc : Kalloc) (r : Nat) (k : Kernel) : RegionOp → Kernel
  | resize newSize => (vmemRegionResize kalloc (some r) newSize k).2
  | map physicalStartAddr size =>
      (vmemRegionMapPhysicalAddress kalloc (some r) physicalStartAddr size k).2

/-- The pages a call adds to a region with this start and allocated size, and the page array
after it. -/
def adds (start allocated : Nat) (pmem : Pmem) : RegionOp → List Nat × Pmem
  | resize newSize =>
      if alignNext newSize systemPageSize < allocated then ([], pmem)
      else takePages (wrapSub (alignNext newSize systemPageSize) allocated / systemPageSize) pmem
  | map physicalStartAddr size =>
      if physicalStartAddr ≠ memAlign physicalStartAddr ∨ size ≠ memAlign size then ([], pmem)
      else (mapPages start (size / systemPageSize) physicalStartAddr allocated, pmem)

theorem path (op : RegionOp) (r : Nat) (k : Kernel) : AnyPath kalloc k (op.run kalloc r k) := by
  cases op with
  | resize newSize => exact vmemRegionResize_path (some r) (fun r _ => Set.mem_univ r) newSize k
  | map physicalStartAddr size =>
      exact vmemRegionMapPhysicalAddress_path (some r) (fun r _ => Set.mem_univ r) physicalStartAddr size k

/-- A call adds the pages its arguments, the region's size and the page array determine. -/
theorem grows (op : RegionOp) (quiet : Quiet P kalloc) (mode : P k.alloc) (settled : Settled k)
    (known : r < k.core.vmemRegions.count) (served : Served (op.run kalloc r k).alloc.blocks) :
    Grows P r (op.adds (k.region r).start (k.region r).allocatedSize k.core.pmem).1 k (op.run kalloc r k) ∧
      (op.run kalloc r k).core.pmem =
        (op.adds (k.region r).start (k.region r).allocatedSize k.core.pmem).2 := by
  cases op with
  | resize newSize =>
      unfold run vmemRegionResize at served ⊢
      unfold adds
      dsimp only at served ⊢
      rw [adoptSize_eq] at served ⊢
      split
      · rename_i smaller
        exact ⟨((Grows.refl mode (settled.sized r known)).then_size fun _ => newSize).then_size _, rfl⟩
      · rename_i larger
        rw [if_neg larger] at served
        obtain ⟨loop, pmem⟩ := resizeLoop_grows quiet r _ k mode settled known served
        exact ⟨loop.then_size _, pmem⟩
  | map physicalStartAddr size =>
      unfold run vmemRegionMapPhysicalAddress at served ⊢
      unfold adds
      dsimp only at served ⊢
      split
      · exact ⟨Grows.refl mode (settled.sized r known), rfl⟩
      · rename_i accepted
        rw [if_neg accepted] at served
        exact mapPhysicalLoop_grows quiet r physicalStartAddr _ physicalStartAddr 0 k mode settled known served

end RegionOp

/-! ## Attaching -/

theorem Space.join_sameLinks (v r : Nat) (s : Space) : Space.SameLinks (s.attach v r) (s.join v r) := by
  unfold Space.attach Space.join
  split <;> exact ⟨rfl, rfl, rfl, rfl⟩

theorem Settled.join (settled : Settled k) (acts : Acts P (Space.join v r) k k') (knownV : v < k.core.vmems.count)
    (knownR : r < k.core.vmemRegions.count) : Settled k' := by
  have count := acts.regionCount (k.space.join_counts v r).2
  refine ⟨acts.ready settled.ready, ?_, fun r' bound => ?_, fun r' bound => ?_, fun v' r' free => ?_,
    fun v' entry member => ?_⟩
  · rw [acts.space]
    exact (Space.join_sameLinks v r _).linked (settled.linked.attach knownV knownR)
  · obtain ⟨pages, -, allocated⟩ := k.space.join_region v r
    rw [acts.space, Space.Sized, pages, allocated]
    exact settled.sized r' (count ▸ bound)
  · rw [acts.space, (k.space.join_region v r).2.1]
    exact settled.word r' (count ▸ bound)
  · rw [acts.space] at free ⊢
    unfold Space.join at free ⊢
    by_cases already : r ∈ k.space.regions v
    · rw [if_pos already] at free ⊢
      exact settled.unmapped v' r' free
    · rw [if_neg already] at free ⊢
      dsimp only at free ⊢
      by_cases sameR : r' = r
      · subst sameR
        rw [Function.update_self, List.mem_append, not_or, List.mem_singleton] at free
        rw [Function.update_of_ne free.2]
        exact settled.unmapped v' r' free.1
      · rw [Function.update_of_ne sameR] at free
        by_cases sameV : v' = v
        · subst sameV
          rw [Function.update_self, List.filter_append, settled.unmapped v' r' free,
            Space.filter_wrapEntries_other sameR]
          rfl
        · rw [Function.update_of_ne sameV]
          exact settled.unmapped v' r' free
  · rw [acts.space] at member ⊢
    rw [(k.space.join_region v r).1]
    unfold Space.join at member
    split at member
    · exact settled.listed v' entry member
    · dsimp only at member
      by_cases same : v' = v
      · subst same
        rw [Function.update_self] at member
        rcases List.mem_append.mp member with before | new
        · exact settled.listed v' entry before
        · obtain ⟨region, page⟩ := Space.mem_wrapEntries new
          rw [region]
          exact List.takeWhile_subset _ page
      · rw [Function.update_of_ne same] at member
        exact settled.listed v' entry member

/-! ## Runs -/

/-- The address a call places a region at is a word. -/
def VmemOp.Words (k : Kernel) : VmemOp → Prop
  | createRegion vmem _ start _ _ _ _ => ∀ v ∈ vmem, (placeRegion v start k).1 < 2 ^ 64
  | _ => True

/-- The states a run of valid calls reaches. -/
inductive WordRun (kalloc : Kalloc) (k₀ : Kernel) : Kernel → Prop where
  | start : WordRun kalloc k₀ (vmemStart kalloc k₀)
  | step {k : Kernel} {op : VmemOp} (run : WordRun kalloc k₀ k) (valid : op.Valid k) (words : op.Words k) :
      WordRun kalloc k₀ (op.run kalloc k)

theorem settled_builds (quiet : Quiet P kalloc) :
    Builds P kalloc (fun k => P k.alloc ∧ Settled k) (fun start _ => start < 2 ^ 64) where
  mode := fun holds => holds.1
  known := fun holds v r member => (holds.2.linked.known v r member).2
  still := fun holds acts => ⟨acts.mode, holds.2.still acts⟩
  newVmem := fun holds acts => ⟨acts.mode, holds.2.newVmem acts⟩
  newRegion := fun holds _ word acts => ⟨acts.mode, holds.2.newRegion acts word⟩
  attach := by
    intro k v r holds knownV knownR served
    obtain ⟨done, acts⟩ := vmemAttach_joins quiet holds.1 holds.2.ready knownV knownR
      (fun _ => holds.2.word r knownR) served
    exact ⟨done, acts, acts.mode, holds.2.join acts knownV knownR⟩
  resize := by
    intro k r size holds known _ served
    have grows := (RegionOp.grows (.resize size) quiet holds.1 holds.2 known served).1
    exact ⟨grows.mode, grows.settled holds.2⟩

theorem VmemOp.settled {op : VmemOp} (quiet : Quiet P kalloc) (mode : P k.alloc) (settled : Settled k)
    (valid : op.Valid k) (words : op.Words k) (served : Served (op.run kalloc k).alloc.blocks) :
    Settled (op.run kalloc k) := by
  cases op with
  | create => exact ((settled_builds quiet).vmemCreate quiet ⟨mode, settled⟩ served).2
  | createRegion => exact ((settled_builds quiet).vmemRegionCreate quiet ⟨mode, settled⟩ valid words served).2
  | resize region newSize =>
      cases region with
      | none => exact settled
      | some r =>
          exact (RegionOp.grows (.resize newSize) quiet mode settled (valid r rfl) served).1.settled settled
  | mapPhysical region physicalStartAddr size =>
      cases region with
      | none => exact settled
      | some r =>
          exact (RegionOp.grows (.map physicalStartAddr size) quiet mode settled (valid r rfl) served).1.settled
            settled
  | attach vmem region =>
      cases vmem with
      | none => exact settled
      | some v =>
          cases region with
          | none => exact settled
          | some r => exact ((settled_builds quiet).attach ⟨mode, settled⟩ (valid.1 v rfl) (valid.2 r rfl) served).2.2.2

theorem blank_settled (blank : k.core = Core.blank pmem) : Settled k := by
  have orderly := blank_orderly blank
  have none : ∀ r, ¬ r < k.core.vmemRegions.count := by
    intro r bound
    rw [blank] at bound
    exact Nat.not_lt_zero r bound
  refine ⟨orderly.ready, orderly.coherent.linked, fun r known => absurd known (none r),
    fun r known => absurd known (none r), orderly.coherent.unmapped, fun v entry member => ?_⟩
  have here : entry ∈ (k.vmem v).map.items := member
  rw [blank_vmem blank] at here
  exact absurd here List.not_mem_nil

theorem vmemStart_settled (quiet : Quiet P kalloc) (mode : P k.alloc) (blank : k.core = Core.blank pmem)
    (served : Served (vmemStart kalloc k).alloc.blocks) : Settled (vmemStart kalloc k) := by
  obtain ⟨-, regionIds⟩ := vmemStart_stages quiet mode
  have ids := idMapperCreate_acts vmemIdMapper quiet mode Acts.vmemIds
  have created : Served (vmemCreate kalloc (idMapperCreate kalloc vmemIdMapper k)).2.alloc.blocks :=
    served.of_suffix regionIds.log
  have kernel := (settled_builds quiet).vmemCreate quiet ⟨ids.mode, (blank_settled blank).still ids⟩ created
  have initialized := kernel.2.still (Acts.setKernelVmem kernel.1
    (vmemCreate kalloc (idMapperCreate kalloc vmemIdMapper k)).1)
  exact initialized.still regionIds

/-- The lists are settled all along a run without failed allocation. -/
theorem WordRun.settled (quiet : Quiet P kalloc) (mode : P k₀.alloc) (blank : k₀.core = Core.blank pmem)
    (run : WordRun kalloc k₀ k) : P k.alloc ∧ (Served k.alloc.blocks → Settled k) := by
  induction run with
  | start => exact ⟨(vmemStart_stages quiet mode).2.mode, vmemStart_settled quiet mode blank⟩
  | @step k op run valid words ih =>
      have path := op.path kalloc k
      refine ⟨(quiet.along path ih.1).1, fun served => ?_⟩
      exact VmemOp.settled quiet ih.1 (ih.2 (quiet.served_before path ih.1 served)) valid words served

end BubackOS
