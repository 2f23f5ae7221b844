import BubackOS.Core.Settled

/-!
# Attaching before and after a region grows

A growing region notifies the address spaces it is attached to page by page; a later
attachment replays the list of its pages.  The replay takes a page `0` for the end
of the list, the notifications do not: the two orders give an address space the same
translation exactly as long as no page `0` is involved.
-/

namespace BubackOS

open Library

variable {P : Allocator → Prop} {kalloc : Kalloc} {k k' k₀ : Kernel} {v r : Nat} {pmem : Pmem}

/-! ## Sequences of calls -/

/-- The state after a sequence of calls. -/
def runAll (kalloc : Kalloc) (r : Nat) (ops : List RegionOp) (k : Kernel) : Kernel :=
  ops.foldl (fun k op => op.run kalloc r k) k

/-- The pages a sequence of calls adds to a region. -/
def addedPages (start : Nat) : List RegionOp → Nat → Pmem → List Nat
  | [], _, _ => []
  | op :: rest, allocated, pmem =>
      (op.adds start allocated pmem).1 ++ addedPages start rest
        (wrap (allocated + 4096 * (op.adds start allocated pmem).1.length)) (op.adds start allocated pmem).2

theorem runAll_path (r : Nat) (ops : List RegionOp) : ∀ k : Kernel, AnyPath kalloc k (runAll kalloc r ops k) := by
  induction ops with
  | nil => exact fun k => .refl
  | cons op rest ih => exact fun k => (op.path r k).trans (ih _)

theorem runAll_grows (quiet : Quiet P kalloc) (r : Nat) (ops : List RegionOp) :
    ∀ k : Kernel, P k.alloc → Settled k → r < k.core.vmemRegions.count →
      Served (runAll kalloc r ops k).alloc.blocks →
      Grows P r (addedPages (k.region r).start ops (k.region r).allocatedSize k.core.pmem) k
        (runAll kalloc r ops k) := by
  induction ops with
  | nil => exact fun k mode settled known _ => Grows.refl mode (settled.sized r known)
  | cons op rest ih =>
      intro k mode settled known served
      have opMode := (quiet.along (op.path r k) mode).1
      have opServed := quiet.served_before (runAll_path r rest _) opMode served
      obtain ⟨grows, pmem⟩ := op.grows quiet mode settled known opServed
      have later := ih (op.run kalloc r k) opMode (grows.settled settled) (grows.known known) served
      rw [grows.region.1, grows.region.2, pmem] at later
      exact grows.trans later

/-! ## Attaching -/

theorem vmemAttach_pmem (quiet : Quiet P kalloc) (mode : P k.alloc) (v r : Nat) :
    (vmemAttach kalloc (some v) (some r) k).2.core.pmem = k.core.pmem := by
  by_cases already : r ∈ (k.vmem v).regions.items
  · have result : vmemAttach kalloc (some v) (some r) k = (true, k) :=
      if_pos (linkedlistFind_eq.mpr already)
    rw [result]
  · obtain ⟨listed, isListed⟩ : ∃ listed, listed = linkedlistAppend kalloc (regionsOf v) r k := ⟨_, rfl⟩
    obtain ⟨linked, isLinked⟩ : ∃ linked,
      linked = linkedlistAppend kalloc (attachedOf r) v listed.2 := ⟨_, rfl⟩
    obtain ⟨mapped, isMapped⟩ : ∃ mapped, mapped = replayPages kalloc v r linked.2 := ⟨_, rfl⟩
    have listedFacts : P listed.2.alloc ∧ listed.2.core.pmem = k.core.pmem := by
      rw [isListed]
      exact quiet.append_pmem (regionsOf v) r (fun _ _ => rfl) (fun _ _ => rfl) mode
    have linkedFacts : P linked.2.alloc ∧ linked.2.core.pmem = listed.2.core.pmem := by
      rw [isLinked]
      exact quiet.append_pmem (attachedOf r) v (fun _ _ => rfl) (fun _ _ => rfl) listedFacts.1
    have mappedFacts : mapped.2.core.pmem = linked.2.core.pmem := by
      rw [isMapped]
      exact (quiet.notify_pmem (replayPages_notifyPath v r linked.2) linkedFacts.1).2
    rw [vmemAttach_of_new already isListed isLinked isMapped]
    have detached : ∀ k : Kernel, (detach v r k).core.pmem = k.core.pmem := fun _ => rfl
    split
    · split
      · split
        · exact mappedFacts.trans (linkedFacts.2.trans listedFacts.2)
        · exact (detached _).trans (mappedFacts.trans (linkedFacts.2.trans listedFacts.2))
      · exact (detached _).trans (linkedFacts.2.trans listedFacts.2)
    · exact (detached _).trans listedFacts.2

namespace Space

variable {s : Space}

theorem map_join_setSize (r size v : Nat) (s : Space) :
    ((s.setSize r size).join v r).map v = (s.join v r).map v := by
  by_cases already : r ∈ s.regions v
  · rw [join, if_pos (show r ∈ (s.setSize r size).regions v from already), join, if_pos already]
    rfl
  · rw [join, if_neg (show r ∉ (s.setSize r size).regions v from already), join, if_neg already]
    rfl

/-- The map of an address space that was attached first. -/
theorem map_join_extend {v : Nat} {added : List Nat} (free : r ∉ s.regions v) :
    ((s.join v r).extend r added).map v = s.map v ++
      (wrapEntries (s.start r) r 0 ((s.pages r).takeWhile (· ≠ 0)) ++
        wrapEntries (s.start r) r (s.pages r).length added) := by
  rw [join, if_neg free]
  simp only [extend, Function.update_self, List.mem_append, List.mem_singleton, or_true, if_true,
    List.append_assoc]

/-- The map of an address space that was attached last. -/
theorem map_extend_join {v : Nat} {added : List Nat} (linked : s.Linked) (free : r ∉ s.regions v) :
    ((s.extend r added).join v r).map v = s.map v ++
      wrapEntries (s.start r) r 0 ((s.pages r ++ added).takeWhile (· ≠ 0)) := by
  have free' : r ∉ (s.extend r added).regions v := free
  have apart : v ∉ s.attached r := fun member => free ((linked.symmetric v r).mpr member)
  rw [join, if_neg free']
  simp only [extend, Function.update_self, if_neg apart]

end Space

/-! ## The two orders -/

theorem takeWhile_eq_self_of_nonzero {pages : List Nat} (nonzero : 0 ∉ pages) :
    pages.takeWhile (· ≠ 0) = pages := by
  rw [List.takeWhile_eq_self_iff]
  intro page member
  have present : page ≠ 0 := fun zero => nonzero (zero ▸ member)
  simpa using present

theorem length_takeWhile_lt {pages : List Nat} (zero : 0 ∈ pages) :
    (pages.takeWhile (· ≠ 0)).length < pages.length := by
  have isPrefix := List.takeWhile_prefix (p := fun page : Nat => decide (page ≠ 0)) (l := pages)
  refine Nat.lt_of_le_of_ne isPrefix.length_le fun same => ?_
  have whole := isPrefix.eq_of_length same
  have all := List.takeWhile_eq_self_iff.mp whole 0 zero
  simp at all

/-- Without page `0`, or without new pages, the replay sees what the notifications said. -/
theorem replay_eq_notifications (start r : Nat) {pages added : List Nat}
    (agree : added = [] ∨ 0 ∉ pages ++ added) :
    Space.wrapEntries start r 0 (pages.takeWhile (· ≠ 0)) ++ Space.wrapEntries start r pages.length added =
      Space.wrapEntries start r 0 ((pages ++ added).takeWhile (· ≠ 0)) := by
  rcases agree with rfl | nonzero
  · rw [List.append_nil]
    exact List.append_nil _
  · have before : 0 ∉ pages := fun member => nonzero (List.mem_append_left _ member)
    rw [takeWhile_eq_self_of_nonzero nonzero, takeWhile_eq_self_of_nonzero before, Space.wrapEntries_append,
      Nat.zero_add]

theorem lastMapped_eq_none {map : List VmemMap} {page : Nat} :
    lastMapped map page = none ↔ ∀ entry ∈ map, entry.virtualAddr ≠ page := by
  unfold lastMapped
  rw [Option.map_eq_none_iff, List.find?_eq_none]
  simp

/-- With new pages and page `0` the last page of the region is missing from the replay. -/
theorem last_page_missing (start r : Nat) {pages added : List Nat} (some : added ≠ [])
    (zero : 0 ∈ pages ++ added) (fits : (pages ++ added).length ≤ 2 ^ 52) :
    ∃ page, lastMapped (Space.wrapEntries start r 0 (pages.takeWhile (· ≠ 0)) ++
        Space.wrapEntries start r pages.length added) page ≠ none ∧
      lastMapped (Space.wrapEntries start r 0 ((pages ++ added).takeWhile (· ≠ 0))) page = none := by
  have positive := List.length_pos_of_ne_nil some
  have fewer := length_takeWhile_lt zero
  rw [List.length_append] at fits fewer
  refine ⟨wrap (start + 4096 * (pages.length + (added.length - 1))), fun absent => ?_, ?_⟩
  · rw [lastMapped_eq_none] at absent
    refine absent ⟨_, added.get ⟨added.length - 1, by omega⟩, r⟩ (List.mem_append_right _ ?_) rfl
    exact List.mem_mapIdx.mpr ⟨added.length - 1, by omega, rfl⟩
  · rw [lastMapped_eq_none]
    intro entry member same
    obtain ⟨i, bound, rfl⟩ := List.mem_mapIdx.mp member
    dsimp only at same
    unfold wrap at same
    omega

/-- What the map of an address space says about the pages of a region. -/
def regionTranslation (k : Kernel) (v r page : Nat) : Option Nat :=
  lastMapped ((k.vmem v).map.items.filter (·.region = r)) page

/-- The maps of an address space attached first and of one attached last. -/
theorem maps_of_orders (quiet : Quiet P kalloc) (mode : P k.alloc) (settled : Settled k)
    (knownV : v < k.core.vmems.count) (knownR : r < k.core.vmemRegions.count) {ops : List RegionOp} {added : List Nat}
    (isAdded : added = addedPages (k.region r).start ops (k.region r).allocatedSize k.core.pmem)
    {first last : Kernel} (isFirst : first = runAll kalloc r ops (vmemAttach kalloc (some v) (some r) k).2)
    (isLast : last = (vmemAttach kalloc (some v) (some r) (runAll kalloc r ops k)).2)
    (servedFirst : Served first.alloc.blocks) (servedLast : Served last.alloc.blocks) :
    first.space.map v = ((k.space.join v r).extend r added).map v ∧
      last.space.map v = ((k.space.extend r added).join v r).map v := by
  refine ⟨?_, ?_⟩
  · obtain ⟨attached, isAttached⟩ : ∃ attached,
      attached = (vmemAttach kalloc (some v) (some r) k).2 := ⟨_, rfl⟩
    rw [← isAttached] at isFirst
    have attachedMode : P attached.alloc := by
      rw [isAttached]
      exact (quiet.along (vmemAttach_path (some v) (some r) k) mode).1
    have attachedServed : Served attached.alloc.blocks := by
      rw [isFirst] at servedFirst
      exact quiet.served_before (runAll_path r ops attached) attachedMode servedFirst
    have acts : Acts P (Space.join v r) k attached := by
      rw [isAttached] at attachedServed ⊢
      exact (vmemAttach_joins quiet mode settled.ready knownV knownR (fun _ => settled.word r knownR) attachedServed).2
    have pmem : attached.core.pmem = k.core.pmem := by
      rw [isAttached]
      exact vmemAttach_pmem quiet mode v r
    obtain ⟨-, starts, allocations⟩ := k.space.join_region v r
    have start : (attached.region r).start = (k.region r).start :=
      congrFun ((congrArg Space.start acts.space).trans starts) r
    have allocated : (attached.region r).allocatedSize = (k.region r).allocatedSize :=
      congrFun ((congrArg Space.allocated acts.space).trans allocations) r
    have known : r < attached.core.vmemRegions.count := by
      rw [acts.regionCount (k.space.join_counts v r).2]
      exact knownR
    obtain ⟨size, grows⟩ := runAll_grows quiet r ops attached attachedMode (settled.join acts knownV knownR) known
      (by rw [← isFirst]; exact servedFirst)
    rw [start, allocated, pmem, ← isAdded, ← isFirst] at grows
    rw [grows.space, acts.space]
    rfl
  · obtain ⟨grown, isGrown⟩ : ∃ grown, grown = runAll kalloc r ops k := ⟨_, rfl⟩
    rw [← isGrown] at isLast
    have grownMode : P grown.alloc := by
      rw [isGrown]
      exact (quiet.along (runAll_path r ops k) mode).1
    have grownServed : Served grown.alloc.blocks := by
      rw [isLast] at servedLast
      exact quiet.served_before (vmemAttach_path (some v) (some r) grown) grownMode servedLast
    have grows : Grows P r added k grown := by
      rw [isGrown] at grownServed ⊢
      rw [isAdded]
      exact runAll_grows quiet r ops k mode settled knownR grownServed
    have settled' := grows.settled settled
    have known := grows.known knownR
    obtain ⟨size, acts⟩ := grows
    have attach := (vmemAttach_joins quiet grownMode settled'.ready
      (by rw [acts.vmemCount rfl]; exact knownV) known (fun _ => settled'.word r known)
      (by rw [← isLast]; exact servedLast)).2
    rw [← isLast] at attach
    rw [attach.space, acts.space]
    exact Space.map_join_setSize r size v _

/-- Attaching an address space before a sequence of growth calls and attaching it after them give
it the same translation of the region's pages when the region was attached already, when the
calls add no page, or when neither the region nor the added pages contain physical page `0`;
and, for a region that fits the address space, only then. -/
theorem attach_order_irrelevant_iff (quiet : Quiet P kalloc) (mode : P k₀.alloc)
    (blank : k₀.core = Core.blank pmem) (run : WordRun kalloc k₀ k) (knownV : v < k.core.vmems.count)
    (knownR : r < k.core.vmemRegions.count) (ops : List RegionOp)
    {added : List Nat}
    (isAdded : added = addedPages (k.region r).start ops (k.region r).allocatedSize k.core.pmem)
    {first last : Kernel} (isFirst : first = runAll kalloc r ops (vmemAttach kalloc (some v) (some r) k).2)
    (isLast : last = (vmemAttach kalloc (some v) (some r) (runAll kalloc r ops k)).2)
    (servedFirst : Served first.alloc.blocks) (servedLast : Served last.alloc.blocks) :
    (r ∈ (k.vmem v).regions.items ∨ added = [] ∨ 0 ∉ (k.region r).pages.items ++ added →
      ∀ page, regionTranslation first v r page = regionTranslation last v r page) ∧
    (((k.region r).pages.items ++ added).length ≤ 2 ^ 52 →
      ((∀ page, regionTranslation first v r page = regionTranslation last v r page) ↔
        r ∈ (k.vmem v).regions.items ∨ added = [] ∨ 0 ∉ (k.region r).pages.items ++ added)) := by
  obtain ⟨mode', settledAt⟩ := run.settled quiet mode blank
  have served : Served k.alloc.blocks := by
    rw [isLast] at servedLast
    exact quiet.served_before ((runAll_path r ops k).trans (vmemAttach_path (some v) (some r) _)) mode'
      servedLast
  have settled := settledAt served
  obtain ⟨mapFirst, mapLast⟩ := maps_of_orders quiet mode' settled knownV knownR isAdded isFirst isLast
    servedFirst servedLast
  have translations : ∀ (k : Kernel) page, regionTranslation k v r page =
      lastMapped ((k.space.map v).filter (·.region = r)) page := fun _ _ => rfl
  have agree : r ∈ (k.vmem v).regions.items ∨ added = [] ∨ 0 ∉ (k.region r).pages.items ++ added →
      ∀ page, regionTranslation first v r page = regionTranslation last v r page := by
    intro condition page
    rw [translations, translations, mapFirst, mapLast]
    by_cases already : r ∈ k.space.regions v
    · rw [Space.join, if_pos already, Space.join, if_pos (show r ∈ (k.space.extend r added).regions v from already)]
    · have replayed := replay_eq_notifications (k.space.start r) r (condition.resolve_left already)
      rw [Space.map_join_extend already, Space.map_extend_join settled.linked already]
      exact congrArg (fun entries => lastMapped ((k.space.map v ++ entries).filter (·.region = r)) page) replayed
  refine ⟨agree, fun fits => ⟨fun same => ?_, agree⟩⟩
  by_contra failure
  push Not at failure
  obtain ⟨free, some, zero⟩ := failure
  have apart : v ∉ k.space.attached r := fun member => free ((settled.linked.symmetric v r).mpr member)
  obtain ⟨page, present, missing⟩ := last_page_missing (k.region r).start r some zero fits
  have here := same page
  rw [translations, translations, mapFirst, mapLast, Space.map_join_extend free,
    Space.map_extend_join settled.linked free, List.filter_append, List.filter_append, List.filter_append,
    settled.unmapped v r apart, Space.filter_wrapEntries, Space.filter_wrapEntries, Space.filter_wrapEntries,
    List.nil_append, List.nil_append] at here
  exact present (here.trans missing)

/-- Two address spaces, and an empty region in the first of them. -/
def twoSpaces : Kernel :=
  VmemOp.run BubackOS.kalloc (VmemOp.run BubackOS.kalloc (vmemStart BubackOS.kalloc sampleKernel) .create)
    (.createRegion (some 0) (some "shared") 0x200000 0 false true false)

theorem twoSpaces_run : WordRun BubackOS.kalloc sampleKernel twoSpaces := by
  refine .step (.step .start trivial trivial) ?_ ?_
  · rintro v ⟨⟩
    decide +kernel
  · rintro v ⟨⟩
    decide

/-- The second address space joins the region, then the calls are made. -/
def attachedFirst (ops : List RegionOp) : Kernel :=
  runAll BubackOS.kalloc 0 ops (vmemAttach BubackOS.kalloc (some 1) (some 0) twoSpaces).2

/-- The calls are made, then the second address space joins the region. -/
def attachedLast (ops : List RegionOp) : Kernel :=
  (vmemAttach BubackOS.kalloc (some 1) (some 0) (runAll BubackOS.kalloc 0 ops twoSpaces)).2

theorem attach_order_irrelevant_iff_twoSpaces :
    regionTranslation (attachedFirst [.map 0x100000 8192, .resize 12288]) 1 0 0x201000 =
      regionTranslation (attachedLast [.map 0x100000 8192, .resize 12288]) 1 0 0x201000 := by
  have early : Early sampleKernel.alloc := rfl
  have blank : sampleKernel.core = Core.blank sampleKernel.core.pmem := rfl
  refine (attach_order_irrelevant_iff kalloc_quiet early blank twoSpaces_run (v := 1) (r := 0)
    ?_ ?_ [.map 0x100000 8192, .resize 12288] rfl rfl rfl ?_ ?_).1 (Or.inr (Or.inr ?_)) 0x201000
  all_goals first | unfold Served | skip
  all_goals decide +kernel

/-- Two pages from physical page `0` on: attached last, the address space gets neither. -/
theorem page_zero_hides_pages :
    (∀ block ∈ (attachedFirst [.map 0 8192]).alloc.blocks, block.addr ≠ 0) ∧
      (∀ block ∈ (attachedLast [.map 0 8192]).alloc.blocks, block.addr ≠ 0) ∧
      regionTranslation (attachedFirst [.map 0 8192]) 1 0 0x201000 = some 4096 ∧
      regionTranslation (attachedLast [.map 0 8192]) 1 0 0x201000 = none ∧
      vmemGetPhysicalAddress (attachedFirst [.map 0 8192]) 1 0x201008 = 4104 ∧
      vmemGetPhysicalAddress (attachedLast [.map 0 8192]) 1 0x201008 = 0 := by
  decide +kernel

end BubackOS
