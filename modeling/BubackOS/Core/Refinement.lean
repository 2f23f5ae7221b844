import Mathlib.Data.List.TakeWhile
import BubackOS.Core.VmemSteps

/-!
# The services refine the operations on the lists

As long as `kalloc` succeeds and no address wraps, every service moves the lists by
a sequence of the operations of `Space`, and keeps the page tables in step.
-/

namespace BubackOS

open Library

/-- All lists exist, agree with each other and fit the machine. -/
structure Orderly (k : Kernel) : Prop where
  ready : Ready k
  coherent : k.space.Coherent
  placed : k.space.Placed

/-- A step that is a sequence of operations on the lists. -/
structure Refines (P : Allocator → Prop) (k k' : Kernel) : Prop where
  acts : ∃ f, Acts P f k k'
  steps : Space.Steps k.space k'.space

variable {P : Allocator → Prop} {kalloc : Kalloc} {k k' k'' : Kernel} {v r : Nat}

namespace Refines

theorem refl (mode : P k.alloc) : Refines P k k := ⟨⟨_, Acts.refl mode⟩, .refl⟩

theorem trans (first : Refines P k k') (second : Refines P k' k'') : Refines P k k'' := by
  obtain ⟨⟨f, acts⟩, steps⟩ := first
  obtain ⟨⟨g, acts'⟩, steps'⟩ := second
  exact ⟨⟨_, acts.trans acts'⟩, steps.trans steps'⟩

/-- A step the lists do not show. -/
theorem of_still (acts : Acts P (fun s => s) k k') : Refines P k k' :=
  ⟨⟨_, acts⟩, by rw [acts.space]⟩

theorem of_step {f : Space → Space} (acts : Acts P f k k') (step : Space.Step k.space (f k.space)) :
    Refines P k k' :=
  ⟨⟨f, acts⟩, by rw [acts.space]; exact .single step⟩

theorem mode (refines : Refines P k k') : P k'.alloc := by
  obtain ⟨⟨f, acts⟩, -⟩ := refines
  exact acts.mode

theorem orderly (refines : Refines P k k') (orderly : Orderly k) : Orderly k' := by
  obtain ⟨⟨f, acts⟩, steps⟩ := refines
  exact ⟨acts.ready orderly.ready, steps.coherent orderly.coherent, steps.placed orderly.placed⟩

end Refines

/-! ## Growing -/

/-- One page more, when the page is good and there is room for it. -/
theorem vmemRegionAssoc_refines (quiet : Quiet P kalloc) (mode : P k.alloc) (orderly : Orderly k)
    (known : r < k.core.vmemRegions.count) {paddr : Nat} (good : paddr ≠ 0 ∧ paddr % 4096 = 0)
    (range : (k.region r).start + (k.region r).allocatedSize + 4096 ≤ 2 ^ 64)
    (small : (k.region r).allocatedSize + 4096 < 2 ^ 64)
    (served : Served (vmemRegionAssocPhysicalAddress kalloc r paddr k).2.alloc.blocks) :
    Acts P (Space.associate r paddr) k (vmemRegionAssocPhysicalAddress kalloc r paddr k).2 ∧
      Refines P k (vmemRegionAssocPhysicalAddress kalloc r paddr k).2 := by
  have acts := (vmemRegionAssoc_acts quiet mode orderly.ready orderly.coherent known (by omega) small
    served).2
  exact ⟨acts, .of_step acts (.associate known good range small)⟩

theorem associate_region {k' : Kernel} {paddr : Nat} (acts : Acts P (Space.associate r paddr) k k') :
    (k'.region r).start = (k.region r).start ∧
      (k'.region r).allocatedSize = (k.region r).allocatedSize + 4096 := by
  have start := congrFun (congrArg Space.start acts.space) r
  have allocated := congrFun (congrArg Space.allocated acts.space) r
  rw [Space.associate] at start allocated
  dsimp only at allocated
  rw [Function.update_self] at allocated
  exact ⟨start, allocated⟩

/-- A round of the loop, in which no request failed if none fails later. -/
theorem mapPhysicalLoop_succ (quiet : Quiet P kalloc) (mode : P k.alloc)
    {r physicalStartAddr count paddr returningAddr : Nat}
    {associated : Nat × Kernel} (isAssociated : associated = vmemRegionAssocPhysicalAddress kalloc r paddr k)
    (served : Served (mapPhysicalLoop kalloc r physicalStartAddr (count + 1) paddr returningAddr k).2.alloc.blocks) :
    (mapPhysicalLoop kalloc r physicalStartAddr (count + 1) paddr returningAddr k =
      if associated.1 = 0 then (0, associated.2)
      else mapPhysicalLoop kalloc r physicalStartAddr count (wrap (paddr + systemPageSize))
        (if paddr = physicalStartAddr then associated.1 else returningAddr)
        (associated.2.modifyRegion r fun region => { region with size := region.allocatedSize })) ∧
    Served associated.2.alloc.blocks := by
  subst isAssociated
  refine ⟨rfl, ?_⟩
  unfold mapPhysicalLoop at served
  dsimp only at served
  split at served
  · exact served
  · exact quiet.served_before ((mapPhysicalLoop_path r physicalStartAddr count (Set.mem_univ r) _ _ _).head
      (.declare r (·.allocatedSize) _)) (quiet.along (associate_path r paddr k) mode).1 served

theorem mapPhysicalLoop_refines (quiet : Quiet P kalloc) (r physicalStartAddr count : Nat) :
    ∀ paddr returningAddr (k : Kernel), P k.alloc → Orderly k → r < k.core.vmemRegions.count →
      (0 < count → paddr ≠ 0) → paddr % 4096 = 0 → paddr + count * 4096 ≤ 2 ^ 64 →
      (k.region r).start + (k.region r).allocatedSize + count * 4096 ≤ 2 ^ 64 →
      (k.region r).allocatedSize + count * 4096 < 2 ^ 64 →
      Served (mapPhysicalLoop kalloc r physicalStartAddr count paddr returningAddr k).2.alloc.blocks →
      Refines P k (mapPhysicalLoop kalloc r physicalStartAddr count paddr returningAddr k).2 := by
  induction count with
  | zero => exact fun _ _ k mode _ _ _ _ _ _ _ _ => Refines.refl mode
  | succ count ih =>
      intro paddr returningAddr k mode orderly known nonzero aligned bound range small served
      obtain ⟨associated, isAssociated⟩ : ∃ associated,
        associated = vmemRegionAssocPhysicalAddress kalloc r paddr k := ⟨_, rfl⟩
      obtain ⟨unfolded, served'⟩ := mapPhysicalLoop_succ quiet mode isAssociated served
      have step := vmemRegionAssoc_refines quiet mode orderly known
        ⟨nonzero (Nat.succ_pos count), aligned⟩ (by omega) (by omega) (by rw [← isAssociated]; exact served')
      rw [← isAssociated] at step
      obtain ⟨acts, refines⟩ := step
      rw [unfolded] at served ⊢
      split
      · exact refines
      · rename_i found
        rw [if_neg found] at served
        have sized := Acts.declare (r := r) refines.mode (·.allocatedSize)
        have declared := refines.trans (.of_step sized (.setSize (Nat.le_refl _)))
        obtain ⟨start, allocated⟩ := associate_region acts
        have region : (associated.2.modifyRegion r fun region =>
            { region with size := region.allocatedSize }).region r =
          { associated.2.region r with size := (associated.2.region r).allocatedSize } := by simp
        have known' : r < associated.2.core.vmemRegions.count := by
          rw [acts.regionCount rfl]
          exact known
        refine declared.trans (ih _ _ _ declared.mode (declared.orderly orderly) known' ?_ ?_ ?_ ?_ ?_
          served)
        · intro more
          rw [systemPageSize, wrap_of_lt (by omega)]
          omega
        · unfold wrap systemPageSize
          omega
        · unfold wrap systemPageSize
          omega
        · rw [region]
          dsimp only
          rw [start, allocated]
          omega
        · rw [region]
          dsimp only
          rw [allocated]
          omega

/-- The arguments of `vmem_region_map_physical_address` name pages, and no address wraps. -/
structure MapFits (k : Kernel) (r physicalStartAddr size : Nat) : Prop where
  nonzero : physicalStartAddr ≠ 0
  physical : physicalStartAddr + size ≤ 2 ^ 64
  range : (k.region r).start + (k.region r).allocatedSize + size ≤ 2 ^ 64
  small : (k.region r).allocatedSize + size < 2 ^ 64

theorem vmemRegionMapPhysicalAddress_refines (region : Option Nat) (physicalStartAddr size : Nat)
    (quiet : Quiet P kalloc) (mode : P k.alloc) (orderly : Orderly k)
    (known : ∀ r ∈ region, r < k.core.vmemRegions.count)
    (fits : ∀ r ∈ region, MapFits k r physicalStartAddr size)
    (served : Served (vmemRegionMapPhysicalAddress kalloc region physicalStartAddr size k).2.alloc.blocks) :
    Refines P k (vmemRegionMapPhysicalAddress kalloc region physicalStartAddr size k).2 := by
  cases region with
  | none => exact Refines.refl mode
  | some r =>
      obtain ⟨nonzero, physical, range, small⟩ := fits r rfl
      by_cases refused : physicalStartAddr ≠ memAlign physicalStartAddr ∨ size ≠ memAlign size
      · rw [vmemRegionMapPhysicalAddress, if_pos refused]
        exact Refines.refl mode
      · rw [vmemRegionMapPhysicalAddress, if_neg refused] at served ⊢
        push Not at refused
        obtain ⟨start, whole⟩ := refused
        have aligned := (memAlign_eq_iff physicalStartAddr).mp start.symm
        have pages : size / systemPageSize * 4096 = size := by
          have := (memAlign_eq_iff size).mp whole.symm
          unfold systemPageSize
          omega
        refine mapPhysicalLoop_refines quiet r physicalStartAddr _ physicalStartAddr 0 k mode orderly
          (known r rfl) (fun _ => nonzero) aligned ?_ ?_ ?_ served
        · rw [pages]
          exact physical
        · rw [pages]
          exact range
        · rw [pages]
          exact small

theorem Acts.pmemAllocate (mode : P k.alloc) : Acts P (fun s => s) k (pmemAllocate k).2 := by
  have taken := Acts.setPmem mode k.core.pmem.allocate.2
  exact pmemAllocate_cases (taken.trans (Acts.record taken.mode _)) taken

theorem pmemAllocate_good (found : (pmemAllocate k).1 ≠ 0) :
    (pmemAllocate k).1 ≠ 0 ∧ (pmemAllocate k).1 % 4096 = 0 := by
  refine ⟨found, ?_⟩
  rw [pmemAllocate_fst] at found ⊢
  exact (Pmem.allocate_address found).1

theorem still_region (acts : Acts P (fun s => s) k k') (r : Nat) :
    (k'.region r).start = (k.region r).start ∧
      (k'.region r).allocatedSize = (k.region r).allocatedSize :=
  ⟨congrFun (congrArg Space.start acts.space) r, congrFun (congrArg Space.allocated acts.space) r⟩

theorem resizeLoop_refines (quiet : Quiet P kalloc) (r count : Nat) :
    ∀ k : Kernel, P k.alloc → Orderly k → r < k.core.vmemRegions.count →
      (k.region r).start + (k.region r).allocatedSize + count * 4096 ≤ 2 ^ 64 →
      (k.region r).allocatedSize + count * 4096 < 2 ^ 64 →
      Served (resizeLoop kalloc r count k).2.alloc.blocks →
      Refines P k (resizeLoop kalloc r count k).2 := by
  induction count with
  | zero => exact fun k mode _ _ _ _ _ => Refines.refl mode
  | succ count ih =>
      intro k mode orderly known range small served
      have still := Acts.pmemAllocate mode
      by_cases found : (pmemAllocate k).1 = 0
      · have result : resizeLoop kalloc r (count + 1) k = (false, (pmemAllocate k).2) := if_pos found
        rw [result]
        exact .of_still still
      · have result : resizeLoop kalloc r (count + 1) k = resizeLoop kalloc r count
            (vmemRegionAssocPhysicalAddress kalloc r (pmemAllocate k).1 (pmemAllocate k).2).2 :=
          if_neg found
        rw [result] at served ⊢
        have good := pmemAllocate_good found
        generalize pmemAllocate k = page at still good served ⊢
        obtain ⟨start, allocated⟩ := still_region still r
        have taken : Refines P k page.2 := .of_still still
        have known' : r < page.2.core.vmemRegions.count := by
          rw [still.regionCount rfl]
          exact known
        have associatedMode := (quiet.along (associate_path r page.1 page.2) taken.mode).1
        obtain ⟨acts, refines⟩ := vmemRegionAssoc_refines quiet taken.mode (taken.orderly orderly)
          known' good (by rw [start, allocated]; omega) (by rw [allocated]; omega)
          (quiet.served_before (resizeLoop_path r count (Set.mem_univ r) _) associatedMode served)
        obtain ⟨start', allocated'⟩ := associate_region acts
        have both := taken.trans refines
        refine both.trans (ih _ both.mode (both.orderly orderly) ?_ ?_ ?_ served)
        · rw [acts.regionCount rfl]
          exact known'
        · rw [start', allocated', start, allocated]
          omega
        · rw [allocated', allocated]
          omega

/-- A new size without wrap. -/
structure ResizeFits (k : Kernel) (r newSize : Nat) : Prop where
  size : newSize + 4095 < 2 ^ 64
  range : (k.region r).start + alignNext newSize systemPageSize ≤ 2 ^ 64

theorem vmemRegionResize_refines (region : Option Nat) (newSize : Nat) (quiet : Quiet P kalloc)
    (mode : P k.alloc) (orderly : Orderly k) (known : ∀ r ∈ region, r < k.core.vmemRegions.count)
    (fits : ∀ r ∈ region, ResizeFits k r newSize)
    (served : Served (vmemRegionResize kalloc region newSize k).2.alloc.blocks) :
    Refines P k (vmemRegionResize kalloc region newSize k).2 := by
  cases region with
  | none => exact Refines.refl mode
  | some r =>
      obtain ⟨noWrap, range⟩ := fits r rfl
      have rounded := alignNext_eq noWrap
      have aligned : (k.region r).allocatedSize % 4096 = 0 := by
        have pages := orderly.coherent.allocated r
        rw [show k.space.allocated r = (k.region r).allocatedSize from rfl] at pages
        rw [pages]
        exact Nat.mul_mod_right 4096 _
      obtain ⟨resized, isResized⟩ : ∃ resized, resized =
          if alignNext newSize systemPageSize < (k.region r).allocatedSize then
            (true, k.modifyRegion r fun region => { region with size := newSize })
          else resizeLoop kalloc r
            (wrapSub (alignNext newSize systemPageSize) (k.region r).allocatedSize / systemPageSize) k :=
        ⟨_, rfl⟩
      have result : vmemRegionResize kalloc (some r) newSize k =
          (resized.1, resized.2.modifyRegion r (adoptSize newSize)) := by
        rw [isResized]
        rfl
      rw [result] at served ⊢
      have middle : Refines P k resized.2 := by
        by_cases shrink : alignNext newSize systemPageSize < (k.region r).allocatedSize
        · rw [if_pos shrink] at isResized
          rw [isResized]
          refine .of_step (Acts.declare mode r fun _ => newSize) (.setSize ?_)
          have le : newSize ≤ (k.region r).allocatedSize := by omega
          exact le
        · rw [if_neg shrink] at isResized
          have bound := alignNext_lt newSize
          have count : wrapSub (alignNext newSize systemPageSize) (k.region r).allocatedSize /
              systemPageSize * 4096 = alignNext newSize systemPageSize - (k.region r).allocatedSize := by
            have whole := alignNext_mod newSize
            rw [wrapSub_of_le (by omega) bound]
            unfold systemPageSize at *
            omega
          have served' : Served resized.2.alloc.blocks := served
          rw [isResized] at served' ⊢
          refine resizeLoop_refines quiet r _ k mode orderly (known r rfl) ?_ ?_ served'
          · rw [count]
            omega
          · rw [count]
            omega
      refine middle.trans ?_
      rw [adoptSize_eq]
      refine .of_step (Acts.declare middle.mode r _) (.setSize ?_)
      split
      · assumption
      · exact (middle.orderly orderly).coherent.size r

/-! ## Attaching -/

/-- The replay loop notes the pages up to the first page `0`. -/
theorem attachPages_replays (quiet : Quiet P kalloc) (v r fuel : Nat) :
    ∀ (node vaddr : Nat) (k : Kernel), P k.alloc → Ready k → v < k.core.vmems.count →
      node < (k.region r).pages.items.length → (k.region r).pages.items.length ≤ node + fuel →
      vaddr = wrap ((k.region r).start + 4096 * node) →
      Served (attachPages kalloc v r fuel (some node) vaddr k).2.alloc.blocks →
      (attachPages kalloc v r fuel (some node) vaddr k).1 = true ∧
        Acts P (fun s => s.note v (Space.wrapEntries (s.start r) r node
            (((s.pages r).drop node).takeWhile (· ≠ 0)))) k
          (attachPages kalloc v r fuel (some node) vaddr k).2 := by
  induction fuel with
  | zero =>
      intro node vaddr k _ _ _ inside enough
      omega
  | succ fuel ih =>
      intro node vaddr k mode ready known inside enough here served
      obtain ⟨pages, isPages⟩ : ∃ pages, pages = (k.region r).pages.items := ⟨_, rfl⟩
      obtain ⟨page, isPage⟩ : ∃ page, page = pages.getD node 0 := ⟨_, rfl⟩
      have spacePages : k.space.pages r = pages := isPages.symm
      have spaceStart : k.space.start r = (k.region r).start := rfl
      rw [← isPages] at inside enough
      have remaining : pages.drop node = page :: pages.drop (node + 1) := by
        rw [List.drop_eq_getElem_cons inside, isPage, List.getD_eq_getElem?_getD,
          List.getElem?_eq_getElem inside, Option.getD_some]
      by_cases last : page = 0
      · -- the iterator takes the value for the end of the list
        have result : attachPages kalloc v r (fuel + 1) (some node) vaddr k = (true, k) := by
          rw [isPage, isPages] at last
          exact if_pos last
        rw [result]
        refine ⟨rfl, (Acts.refl mode).congr ?_⟩
        rw [spacePages, remaining, List.takeWhile_cons_of_neg (by simp [last])]
        exact (Space.note_nil v k.space).symm
      obtain ⟨notified, isNotified⟩ : ∃ notified,
        notified = vmemNotifyChange kalloc v r page vaddr k := ⟨_, rfl⟩
      have unfolded : attachPages kalloc v r (fuel + 1) (some node) vaddr k =
          if notified.1 then attachPages kalloc v r fuel
            (if node + 1 < pages.length then some (node + 1) else none)
            (wrap (vaddr + systemPageSize)) notified.2
          else (false, notified.2) := by
        rw [isPage, isPages] at last
        rw [isNotified, isPage, isPages]
        exact if_neg last
      have notifiedMode : P notified.2.alloc := by
        rw [isNotified]
        exact (quiet.along (vmemNotifyChange_path v r _ vaddr k) mode).1
      have served' : Served notified.2.alloc.blocks := by
        rw [unfolded] at served
        split at served
        · exact quiet.served_before (attachPages_path v r fuel _ _ _) notifiedMode served
        · exact served
      have step := vmemNotifyChange_acts (r := r) quiet mode known ready page vaddr
        (by rw [← isNotified]; exact served')
      rw [← isNotified] at step
      obtain ⟨done, acts⟩ := step
      rw [unfolded, if_pos done] at served ⊢
      have samePages : (notified.2.region r).pages.items = pages :=
        (congrFun (congrArg Space.pages acts.space) r).trans isPages.symm
      have sameStart : (notified.2.region r).start = (k.region r).start :=
        congrFun (congrArg Space.start acts.space) r
      have entry : Space.wrapEntries (k.space.start r) r node
          (((k.space.pages r).drop node).takeWhile (· ≠ 0)) =
          { virtualAddr := vaddr, physicalAddr := page, region := r } ::
            Space.wrapEntries (k.space.start r) r (node + 1)
              (((k.space.pages r).drop (node + 1)).takeWhile (· ≠ 0)) := by
        rw [spacePages, remaining, List.takeWhile_cons_of_pos (by simp [last]), Space.wrapEntries_cons, here,
          spaceStart]
      by_cases more : node + 1 < pages.length
      · rw [if_pos more] at served ⊢
        have next : wrap (vaddr + systemPageSize) =
            wrap ((notified.2.region r).start + 4096 * (node + 1)) := by
          rw [here, sameStart]
          unfold wrap systemPageSize
          omega
        obtain ⟨done', acts'⟩ := ih (node + 1) _ notified.2 notifiedMode (acts.ready ready)
          (by rw [acts.vmemCount rfl]; exact known) (by rw [samePages]; exact more)
          (by rw [samePages]; omega) next served
        refine ⟨done', (acts.trans acts').congr ?_⟩
        rw [entry, Space.note_note]
        rfl
      · have final : (k.space.pages r).drop (node + 1) = [] := by
          rw [spacePages, List.drop_eq_nil_iff]
          exact Nat.le_of_not_lt more
        rw [final, List.takeWhile_nil] at entry
        rw [if_neg more]
        cases fuel with
        | zero => exact ⟨rfl, acts.congr (by rw [entry]; rfl)⟩
        | succ fuel => exact ⟨rfl, acts.congr (by rw [entry]; rfl)⟩

theorem replayPages_replays (quiet : Quiet P kalloc) (mode : P k.alloc) (ready : Ready k)
    (known : v < k.core.vmems.count)
    (word : (k.region r).pages.items ≠ [] → (k.region r).start < 2 ^ 64)
    (served : Served (replayPages kalloc v r k).2.alloc.blocks) :
    (replayPages kalloc v r k).1 = true ∧
      Acts P (fun s => s.note v (Space.wrapEntries (s.start r) r 0 ((s.pages r).takeWhile (· ≠ 0)))) k
        (replayPages kalloc v r k).2 := by
  unfold replayPages at served ⊢
  by_cases some : 0 < (k.region r).pages.items.length
  · rw [if_pos some] at served ⊢
    have start := word (List.ne_nil_of_length_pos some)
    have all := attachPages_replays quiet v r (attachFuel r k) 0 (k.region r).start k mode ready known some
      (by unfold attachFuel; omega) (wrap_of_lt start).symm served
    simpa only [List.drop_zero] using all
  · rw [if_neg some] at served ⊢
    have empty : (k.region r).pages.items = [] := List.eq_nil_of_length_eq_zero (by omega)
    have nothing : attachPages kalloc v r (attachFuel r k) none (k.region r).start k = (true, k) := by
      unfold attachFuel
      rfl
    rw [nothing]
    refine ⟨rfl, (Acts.refl mode).congr ?_⟩
    have pages : k.space.pages r = [] := empty
    rw [pages]
    exact (Space.note_nil v k.space).symm

theorem linkedlistFind_eq {list : LinkedList Nat} {el : Nat} :
    linkedlistFind list el ≠ -1 ↔ el ∈ list.items := by
  unfold linkedlistFind
  split
  · rename_i member
    exact ⟨fun _ => member, fun _ => by omega⟩
  · rename_i absent
    exact ⟨fun found => absurd rfl found, fun member => absurd member absent⟩

/-- The states of `vmem_attach` for a region that is not attached yet. -/
theorem vmemAttach_of_new {listed linked mapped : Bool × Kernel} (new : r ∉ (k.vmem v).regions.items)
    (isListed : listed = linkedlistAppend kalloc (regionsOf v) r k)
    (isLinked : linked = linkedlistAppend kalloc (attachedOf r) v listed.2)
    (isMapped : mapped = replayPages kalloc v r linked.2) :
    vmemAttach kalloc (some v) (some r) k =
      if listed.1 then
        if linked.1 then
          if mapped.1 then (true, mapped.2) else (false, detach v r mapped.2)
        else (false, detach v r linked.2)
      else (false, detach v r listed.2) := by
  rw [isMapped, isLinked, isListed]
  exact if_neg fun found => new (linkedlistFind_eq.mp found)

/-- Attach a region: the pages up to the first page `0` appear in the address space. -/
def Space.join (v r : Nat) (s : Space) : Space :=
  if r ∈ s.regions v then s
  else
    { s with
      regions := Function.update s.regions v (s.regions v ++ [r])
      attached := Function.update s.attached r (s.attached r ++ [v])
      map := Function.update s.map v
        (s.map v ++ Space.wrapEntries (s.start r) r 0 ((s.pages r).takeWhile (· ≠ 0))) }

theorem Space.join_region (v r : Nat) (s : Space) : (s.join v r).pages = s.pages ∧ (s.join v r).start = s.start ∧
    (s.join v r).allocated = s.allocated := by
  unfold join
  split <;> exact ⟨rfl, rfl, rfl⟩

theorem Space.join_counts (v r : Nat) (s : Space) :
    (s.join v r).vmemCount = s.vmemCount ∧ (s.join v r).regionCount = s.regionCount := by
  unfold join
  split <;> exact ⟨rfl, rfl⟩

/-- `vmem_attach` makes the pages of the region appear in the address space. -/
theorem vmemAttach_joins (quiet : Quiet P kalloc) (mode : P k.alloc) (ready : Ready k)
    (knownV : v < k.core.vmems.count) (knownR : r < k.core.vmemRegions.count)
    (word : (k.region r).pages.items ≠ [] → (k.region r).start < 2 ^ 64)
    (served : Served (vmemAttach kalloc (some v) (some r) k).2.alloc.blocks) :
    (vmemAttach kalloc (some v) (some r) k).1 = true ∧
      Acts P (Space.join v r) k (vmemAttach kalloc (some v) (some r) k).2 := by
  by_cases already : r ∈ k.space.regions v
  · have result : vmemAttach kalloc (some v) (some r) k = (true, k) :=
      if_pos (linkedlistFind_eq.mpr already)
    rw [result]
    refine ⟨rfl, (Acts.refl mode).congr ?_⟩
    rw [Space.join, if_pos already]
  · obtain ⟨listed, isListed⟩ : ∃ listed, listed = linkedlistAppend kalloc (regionsOf v) r k := ⟨_, rfl⟩
    obtain ⟨linked, isLinked⟩ : ∃ linked,
      linked = linkedlistAppend kalloc (attachedOf r) v listed.2 := ⟨_, rfl⟩
    obtain ⟨mapped, isMapped⟩ : ∃ mapped, mapped = replayPages kalloc v r linked.2 := ⟨_, rfl⟩
    rw [vmemAttach_of_new already isListed isLinked isMapped] at served ⊢
    have listedMode : P listed.2.alloc := by
      rw [isListed]
      exact (quiet.along (Path.append _ r (fun k => .appendRegion v r k) k) mode).1
    have linkedPath : AnyPath kalloc listed.2 linked.2 := by
      rw [isLinked]
      exact Path.append _ v (fun k => .appendAttached r v k) listed.2
    have mappedPath : AnyPath kalloc linked.2 mapped.2 := by
      rw [isMapped]
      exact replayPages_path v r linked.2
    have linkedMode := (quiet.along linkedPath listedMode).1
    -- the calls of the stages that were reached succeeded
    have listedServed : Served listed.2.alloc.blocks := by
      split at served
      · split at served
        · split at served
          all_goals exact quiet.served_before (linkedPath.trans mappedPath) listedMode served
        · exact quiet.served_before linkedPath listedMode served
      · exact served
    have listing := linkedlistAppend_acts (regionsOf v) r quiet mode
      (congrArg Vmem.regions (quiet.vmem mode _ v)) (ready.vmems v knownV).1
      (fun k mode some => Acts.appendRegion mode r some) (by rw [← isListed]; exact listedServed)
    rw [← isListed] at listing
    rw [if_pos listing.1] at served ⊢
    have linkedServed : Served linked.2.alloc.blocks := by
      split at served
      · split at served
        all_goals exact quiet.served_before mappedPath linkedMode served
      · exact served
    have ready' := listing.2.ready ready
    have linking := linkedlistAppend_acts (attachedOf r) v quiet listedMode
      (congrArg VmemRegion.attached (quiet.region listedMode _ r))
      (ready'.regions r (by rw [listing.2.regionCount rfl]; exact knownR)).2
      (fun k mode some => Acts.appendAttached mode v some) (by rw [← isLinked]; exact linkedServed)
    rw [← isLinked] at linking
    rw [if_pos linking.1] at served ⊢
    have both := listing.2.trans linking.2
    have pages : (linked.2.region r).pages.items = (k.region r).pages.items :=
      congrFun (congrArg Space.pages both.space) r
    have start : (linked.2.region r).start = (k.region r).start :=
      congrFun (congrArg Space.start both.space) r
    have mapping := replayPages_replays (r := r) quiet linkedMode (both.ready ready)
      (by rw [both.vmemCount rfl]; exact knownV) (by rw [pages, start]; exact word)
      (by rw [← isMapped]; split at served <;> exact served)
    rw [← isMapped] at mapping
    rw [if_pos mapping.1]
    refine ⟨rfl, (both.trans mapping.2).congr ?_⟩
    rw [Space.join, if_neg already]
    rfl

/-- In an orderly state all pages appear, at their addresses. -/
theorem Orderly.join_eq (orderly : Orderly k) (knownR : r < k.core.vmemRegions.count) (v : Nat) :
    k.space.join v r = k.space.attach v r := by
  have nonzero : (k.space.pages r).takeWhile (· ≠ 0) = k.space.pages r := by
    rw [List.takeWhile_eq_self_iff]
    exact fun page member => by simpa using (orderly.placed.pages r knownR page member).1
  have range := orderly.placed.range r knownR
  rw [orderly.coherent.allocated r] at range
  unfold Space.join Space.attach
  rw [nonzero, Space.wrapEntries_eq (by omega)]

theorem vmemAttach_acts (quiet : Quiet P kalloc) (mode : P k.alloc) (orderly : Orderly k)
    (knownV : v < k.core.vmems.count) (knownR : r < k.core.vmemRegions.count)
    (served : Served (vmemAttach kalloc (some v) (some r) k).2.alloc.blocks) :
    (vmemAttach kalloc (some v) (some r) k).1 = true ∧
      Acts P (Space.attach v r) k (vmemAttach kalloc (some v) (some r) k).2 := by
  have word : (k.region r).pages.items ≠ [] → (k.region r).start < 2 ^ 64 := by
    intro some
    have range : (k.region r).start + k.space.allocated r ≤ 2 ^ 64 := orderly.placed.range r knownR
    rw [orderly.coherent.allocated r] at range
    have length : 0 < (k.space.pages r).length := List.length_pos_of_ne_nil some
    omega
  obtain ⟨done, acts⟩ := vmemAttach_joins quiet mode orderly.ready knownV knownR word served
  exact ⟨done, acts.congr (orderly.join_eq knownR v)⟩

end BubackOS
