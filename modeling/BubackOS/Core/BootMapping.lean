import BubackOS.Core.BootHeap
import BubackOS.Core.FilePages
import BubackOS.Core.RegionRanges

/-!
# The kernel regions after `memory_allocator_initialize`

`memory_allocator_initialize` creates a region for the code and one for the data of the kernel,
maps both and then lets the processor use the new tables.  Everything allocated up to then has to
be in the data region, at the addresses it had before.
-/

namespace BubackOS

open Library

variable {P : Allocator → Prop} {k k' k₀ : Kernel} {v r : Nat}

section Quiet

variable {kalloc : Kalloc}

/-! ## Mapping physical pages -/

theorem pagesFrom_length (count paddr : Nat) : (pagesFrom count paddr).length = count := by
  simp [pagesFrom]

/-- A loop that does not fail adds all the pages. -/
theorem mapPhysicalLoop_pages (quiet : Quiet P kalloc) (r first count : Nat) :
    ∀ paddr returning (k : Kernel), P k.alloc → Settled k → r < k.core.vmemRegions.count → paddr < 2 ^ 64 →
      Served (mapPhysicalLoop kalloc r first count paddr returning k).2.alloc.blocks →
      (mapPhysicalLoop kalloc r first count paddr returning k).1 ≠ 0 →
        Grows P r (pagesFrom count paddr) k (mapPhysicalLoop kalloc r first count paddr returning k).2 := by
  induction count with
  | zero => exact fun _ _ k mode settled known _ _ _ => Grows.refl mode (settled.sized r known)
  | succ count ih =>
      intro paddr returning k mode settled known word served done
      have step : Served (vmemRegionAssocPhysicalAddress kalloc r paddr k).2.alloc.blocks → _ :=
        vmemRegionAssoc_grows quiet mode settled known
      have later := (quiet.along (associate_path r paddr k) mode).1
      rw [pagesFrom_succ count word]
      unfold mapPhysicalLoop at served done ⊢
      dsimp only at served done ⊢
      generalize vmemRegionAssocPhysicalAddress kalloc r paddr k = associated at step later served done ⊢
      by_cases failed : associated.1 = 0
      · rw [if_pos failed] at done
        exact absurd rfl done
      · rw [if_neg failed] at served done ⊢
        have served' := quiet.served_before ((mapPhysicalLoop_path r first count (Set.mem_univ r)
          _ _ _).head (.declare r (·.allocatedSize) _)) later served
        obtain ⟨-, grows, -⟩ := step served'
        have declared := grows.then_size (·.allocatedSize)
        exact declared.trans (ih _ _ _ declared.mode (declared.settled settled) (declared.known known)
          (wrap_lt _) served done)

/-- A loop that does not fail declares all its pages. -/
theorem mapPhysicalLoop_size (r first count : Nat) : ∀ paddr returning (k : Kernel),
    (mapPhysicalLoop kalloc r first count paddr returning k).1 ≠ 0 →
      (count = 0 → (k.region r).size = (k.region r).allocatedSize) →
        ((mapPhysicalLoop kalloc r first count paddr returning k).2.region r).size =
          ((mapPhysicalLoop kalloc r first count paddr returning k).2.region r).allocatedSize := by
  induction count with
  | zero => exact fun _ _ _ _ same => same rfl
  | succ count ih =>
      intro paddr returning k done _
      unfold mapPhysicalLoop at done ⊢
      dsimp only at done ⊢
      generalize vmemRegionAssocPhysicalAddress kalloc r paddr k = associated at done ⊢
      by_cases failed : associated.1 = 0
      · rw [if_pos failed] at done
        exact absurd rfl done
      · rw [if_neg failed] at done ⊢
        refine ih _ _ _ done fun _ => ?_
        rw [Kernel.region_modifyRegion_self]

/-- A mapping that does not fail has page addresses and adds all the pages. -/
theorem vmemRegionMapPhysicalAddress_done (quiet : Quiet P kalloc) (mode : P k.alloc) (settled : Settled k)
    (known : r < k.core.vmemRegions.count) {paddr size : Nat} (word : paddr < 2 ^ 64) {mapped : Nat × Kernel}
    (isMapped : mapped = vmemRegionMapPhysicalAddress kalloc (some r) paddr size k) (done : mapped.1 ≠ 0)
    (served : Served mapped.2.alloc.blocks) :
    paddr % 4096 = 0 ∧ size % 4096 = 0 ∧ Grows P r (pagesFrom (size / 4096) paddr) k mapped.2 ∧
      (mapped.2.region r).size = (mapped.2.region r).allocatedSize := by
  unfold vmemRegionMapPhysicalAddress at isMapped
  dsimp only at isMapped
  split at isMapped
  · rw [isMapped] at done
    exact absurd rfl done
  · rename_i aligned
    rw [not_or, not_not, not_not] at aligned
    rw [isMapped] at served done ⊢
    refine ⟨(memAlign_eq_iff paddr).mp aligned.1.symm, (memAlign_eq_iff size).mp aligned.2.symm,
      mapPhysicalLoop_pages quiet r paddr _ paddr 0 k mode settled known word served done,
      mapPhysicalLoop_size r paddr _ paddr 0 k done fun none => ?_⟩
    rw [none] at done
    exact absurd rfl done

/-! ## A new region without pages -/

/-- A new region, attached to one address space. -/
def Space.opened (v r place : Nat) (s : Space) : Space := ((s.newRegion place).join v r).setSize r 0

theorem Space.opened_eq {s : Space} (linked : s.Linked) (v place : Nat) :
    (s.opened v s.regionCount place).map = s.map ∧
      (s.opened v s.regionCount place).attached s.regionCount = [v] ∧
      (s.opened v s.regionCount place).pages s.regionCount = [] := by
  have free : s.regionCount ∉ (s.newRegion place).regions v := (linked.newRegion_free v).1
  have pages : (s.newRegion place).pages s.regionCount = [] := Function.update_self _ _ _
  have attached : (s.newRegion place).attached s.regionCount = [] := Function.update_self _ _ _
  unfold Space.opened Space.setSize Space.join
  rw [if_neg free, pages, attached]
  dsimp only
  refine ⟨?_, Function.update_self _ _ _, rfl⟩
  have none : Space.wrapEntries ((s.newRegion place).start s.regionCount) s.regionCount 0
      (([] : List Nat).takeWhile (· ≠ 0)) = [] := rfl
  rw [none, List.append_nil]
  exact Function.update_eq_self v s.map

theorem vmemRegionResize_zero (kalloc : Kalloc) (empty : (k.region r).allocatedSize = 0) :
    vmemRegionResize kalloc (some r) 0 k = (true, k.modifyRegion r fun region => { region with size := 0 }) := by
  have none : alignNext 0 systemPageSize = 0 := by decide
  have missing : wrapSub 0 0 / systemPageSize = 0 := by decide
  have adopt : adoptSize 0 = fun region => { region with size := 0 } := by
    funext region
    exact if_pos (Nat.zero_le _)
  unfold vmemRegionResize
  dsimp only
  rw [none, empty, if_neg (Nat.lt_irrefl 0), missing, adopt]
  rfl

section Opening

variable {name : String} {start : Nat} {user writable executable : Bool}

/-- A new region in the lists of its address space. -/
theorem openRegion_joins (quiet : Quiet P kalloc) (mode : P k.alloc) (settled : Settled k)
    (known : v < k.core.vmems.count) (word : start < 2 ^ 64) {opened : Option Nat × Kernel}
    (isOpened : opened = openRegion kalloc v name start user writable executable k) (isRegion : opened.1 = some r)
    (served : Served opened.2.alloc.blocks) :
    r = k.core.vmemRegions.count ∧ Settled opened.2 ∧ Acts P (fun s => (s.newRegion start).join v r) k opened.2 := by
  obtain ⟨object, isObject⟩ : ∃ object, object = kalloc sizeofVmemRegion k := ⟨_, rfl⟩
  have called : Acts P (fun s => s) k object.2 := isObject ▸ Acts.call quiet mode sizeofVmemRegion
  have count : object.2.core.vmemRegions.count = k.core.vmemRegions.count := called.regionCount rfl
  obtain ⟨linked, isLinked⟩ : ∃ linked, linked = vmemAttach kalloc (some v) (some object.2.core.vmemRegions.count)
    (regionRecord kalloc name start user writable executable object.2) := ⟨_, rfl⟩
  rcases openRegion_cases isObject isLinked with ⟨-, result⟩ | ⟨-, ⟨-, result⟩ | ⟨-, result⟩⟩
  · rw [isOpened, result] at isRegion
    cases isRegion
  · rw [isOpened, result] at isRegion
    cases isRegion
  rw [isOpened, result] at isRegion served ⊢
  obtain rfl : k.core.vmemRegions.count = r := count.symm.trans (Option.some.inj isRegion)
  rw [count] at isLinked
  dsimp only at served ⊢
  obtain ⟨record, isRecord⟩ : ∃ record, record = regionRecord kalloc name start user writable executable object.2 :=
    ⟨_, rfl⟩
  rw [← isRecord] at isLinked
  have recordPath : AnyPath kalloc object.2 record := by
    rw [isRecord]
    exact (regionRecord_recordPath name start user writable executable object.2 (Nat.zero_le _)).path
  have recordMode := (quiet.along recordPath called.mode).1
  have linkedPath : AnyPath kalloc record linked.2 := by
    rw [isLinked]
    exact vmemAttach_path (some v) (some k.core.vmemRegions.count) record
  have recordServed := quiet.served_before linkedPath recordMode served
  have recordActs : Acts P (Space.newRegion start) k record := by
    rw [isRecord] at recordServed ⊢
    exact called.trans (regionRecord_acts quiet called.mode recordServed)
  have recorded := settled.newRegion recordActs word
  have recordKnown : k.core.vmemRegions.count < record.core.vmemRegions.count := by
    have grown : record.core.vmemRegions.count = k.core.vmemRegions.count + 1 :=
      congrArg Space.regionCount recordActs.space
    rw [grown]
    exact Nat.lt_succ_self _
  have recordKnownV : v < record.core.vmems.count := by
    rw [recordActs.vmemCount rfl]
    exact known
  rw [isLinked] at served ⊢
  obtain ⟨-, linkedActs⟩ := vmemAttach_joins quiet recordMode recorded.ready recordKnownV recordKnown
    (fun _ => recorded.word _ recordKnown) served
  exact ⟨rfl, recorded.join linkedActs recordKnownV recordKnown, recordActs.trans linkedActs⟩

/-- The rest of `vmem_region_create` with size `0`. -/
theorem finishRegion_sized (quiet : Quiet P kalloc) (mode : P k.alloc) (settled : Settled k)
    (known : r < k.core.vmemRegions.count) (empty : (k.region r).allocatedSize = 0) :
    Settled (finishRegion kalloc r 0 k).2 ∧ Acts P (Space.setSize r 0) k (finishRegion kalloc r 0 k).2 := by
  obtain ⟨sized, isSized⟩ : ∃ sized, sized = k.modifyRegion r fun region => { region with size := 0 } := ⟨_, rfl⟩
  have sizedActs : Acts P (Space.setSize r 0) k sized := by
    rw [isSized]
    exact Acts.declare mode r fun _ => 0
  have sizedSettled : Settled sized := by
    have grows : Grows P r [] k sized :=
      ⟨0, sizedActs.congr (by rw [Space.extend_nil (settled.sized r known)])⟩
    exact grows.settled settled
  have named : ∀ id, Acts P (fun s => s) sized
      ((idMapperAdd kalloc vmemRegionMapper r sized).2.modifyRegion r
        fun region => { region with vmemRegionId := id }) := by
    intro id
    have identified := idMapperAdd_acts quiet sizedActs.mode Acts.regionIds r
    exact identified.trans (Acts.setRegionId identified.mode r id)
  unfold finishRegion
  dsimp only
  rw [vmemRegionResize_zero kalloc empty, if_pos rfl, ← isSized]
  split <;> exact ⟨sizedSettled.still (named _), sizedActs.trans (named _)⟩

/-- `vmem_region_create` with size `0`, when it succeeds. -/
theorem vmemRegionCreate_opens (quiet : Quiet P kalloc) (mode : P k.alloc) (settled : Settled k)
    (known : v < k.core.vmems.count) (word : (placeRegion v start k).1 < 2 ^ 64) {created : Kernel}
    (made : vmemRegionCreate kalloc (some v) (some name) start 0 user writable executable k = (some r, created))
    (served : Served created.alloc.blocks) :
    r = k.core.vmemRegions.count ∧ (placeRegion v start k).1 % 4096 = 0 ∧ Settled created ∧
      Acts P (Space.opened v r (placeRegion v start k).1) k created := by
  have placeActs := placeRegion_acts mode v start
  obtain ⟨placed, isPlaced⟩ : ∃ placed, placed = placeRegion v start k := ⟨_, rfl⟩
  obtain ⟨opened, isOpened⟩ : ∃ opened, opened = openRegion kalloc v name placed.1 user writable executable placed.2 :=
    ⟨_, rfl⟩
  obtain ⟨aligned, isRegion, finished⟩ := vmemRegionCreate_some isPlaced isOpened (congrArg Prod.fst made)
  rw [finished] at made
  rw [← isPlaced] at word placeActs ⊢
  have openedMode : P opened.2.alloc := by
    rw [isOpened]
    exact (quiet.along (openRegion_path v name placed.1 user writable executable placed.2) placeActs.mode).1
  have openedServed : Served opened.2.alloc.blocks := by
    refine quiet.served_before (finishRegion_path r 0 opened.2) openedMode ?_
    rw [made]
    exact served
  have knownV : v < placed.2.core.vmems.count := by
    rw [placeActs.vmemCount rfl]
    exact known
  obtain ⟨isNew, openedSettled, openedActs⟩ := openRegion_joins quiet placeActs.mode (settled.still placeActs) knownV
    word isOpened isRegion openedServed
  have acts := placeActs.trans openedActs
  rw [placeActs.regionCount rfl] at isNew
  have openedKnown : r < opened.2.core.vmemRegions.count := by
    have grown : opened.2.core.vmemRegions.count = k.core.vmemRegions.count + 1 :=
      (congrArg Space.regionCount acts.space).trans (Space.join_counts v r _).2
    rw [grown, isNew]
    exact Nat.lt_succ_self _
  have empty : (opened.2.region r).allocatedSize = 0 := by
    have same : opened.2.space.allocated r = (k.space.newRegion placed.1).allocated r := by
      rw [acts.space, (Space.join_region v r _).2.2]
    rw [isNew] at same ⊢
    exact same.trans (Function.update_self _ _ _)
  have last := finishRegion_sized quiet acts.mode openedSettled openedKnown empty
  rw [made] at last
  exact ⟨isNew, (memAlign_eq_iff placed.1).mp aligned, last.1, acts.trans last.2⟩

end Opening

/-! ## A region created and mapped -/

/-- A new region `r` of `count` pages from `paddr` on, at `place` in the address space `v`. -/
structure Opens (P : Allocator → Prop) (v r place paddr count : Nat) (k k' : Kernel) : Prop where
  aligned : place % 4096 = 0
  settled : Settled k'
  acts : ∃ f, Acts P f k k'
  vmems : k'.core.vmems.count = k.core.vmems.count
  map : ∀ w, k'.space.map w =
    if w = v then k.space.map w ++ Space.wrapEntries place r 0 (pagesFrom count paddr) else k.space.map w
  start : k'.space.start = Function.update k.space.start r place
  allocated : k'.space.allocated = Function.update k.space.allocated r (wrap (4096 * count))

theorem Space.opened_sizes (v r place : Nat) (s : Space) :
    (s.opened v r place).vmemCount = s.vmemCount ∧ (s.opened v r place).regionCount = s.regionCount + 1 ∧
      (s.opened v r place).start = Function.update s.start s.regionCount place ∧
      (s.opened v r place).allocated = Function.update s.allocated s.regionCount 0 := by
  obtain ⟨-, start, allocated⟩ := (s.newRegion place).join_region v r
  obtain ⟨vmems, regions⟩ := (s.newRegion place).join_counts v r
  exact ⟨vmems, regions, start, allocated⟩

/-- What creating a region, noting it as the kernel's and mapping it come to. -/
theorem opens_of_map (quiet : Quiet P kalloc) (mode : P k.alloc) (settled : Settled k)
    (known : v < k.core.vmems.count) {name : String} {start : Nat} {user writable executable : Bool}
    (word : (placeRegion v start k).1 < 2 ^ 64) {created noted : Kernel}
    (made : vmemRegionCreate kalloc (some v) (some name) start 0 user writable executable k = (some r, created))
    (note : Acts P (fun s => s) created noted) {paddr size : Nat} (word' : paddr < 2 ^ 64) {mapped : Nat × Kernel}
    (isMapped : mapped = vmemRegionMapPhysicalAddress kalloc (some r) paddr size noted) (done : mapped.1 ≠ 0)
    (served : Served mapped.2.alloc.blocks) :
    paddr % 4096 = 0 ∧ size % 4096 = 0 ∧ (mapped.2.region r).size = (mapped.2.region r).allocatedSize ∧
      Opens P v r (placeRegion v start k).1 paddr (size / 4096) k mapped.2 := by
  have path : AnyPath kalloc noted mapped.2 := by
    rw [isMapped]
    exact vmemRegionMapPhysicalAddress_path (some r) (fun s _ => Set.mem_univ s) paddr size noted
  have notedServed := quiet.served_before path note.mode served
  obtain ⟨isNew, alignedPlace, createdSettled, opened⟩ :=
    vmemRegionCreate_opens quiet mode settled known word made (notedServed.of_suffix note.log)
  generalize (placeRegion v start k).1 = place at alignedPlace opened word ⊢
  have notedActs := opened.trans note
  have notedSettled := createdSettled.still note
  obtain ⟨sizeVmems, sizeRegions, starts, allocations⟩ := Space.opened_sizes v r place k.space
  have notedKnown : r < noted.core.vmemRegions.count := by
    have grown : noted.core.vmemRegions.count = k.core.vmemRegions.count + 1 :=
      (congrArg Space.regionCount notedActs.space).trans sizeRegions
    rw [grown, isNew]
    exact Nat.lt_succ_self _
  obtain ⟨alignedAddr, alignedSize, grows, sized⟩ :=
    vmemRegionMapPhysicalAddress_done quiet note.mode notedSettled notedKnown word' isMapped done served
  refine ⟨alignedAddr, alignedSize, sized, ?_⟩
  have mappedSettled := grows.settled notedSettled
  obtain ⟨newSize, growsActs⟩ := grows
  have acts := notedActs.trans growsActs
  subst isNew
  obtain ⟨maps, attached, pages⟩ := Space.opened_eq settled.linked v place
  have placed : (k.space.opened v k.core.vmemRegions.count place).start k.core.vmemRegions.count = place := by
    rw [starts]
    exact Function.update_self _ _ _
  refine ⟨alignedPlace, mappedSettled, ⟨_, acts⟩, acts.vmemCount sizeVmems, fun w => ?_, ?_, ?_⟩
  · have entries := congrFun (congrArg Space.map acts.space) w
    rw [entries]
    unfold Space.setSize Space.extend
    dsimp only
    rw [show k.core.vmemRegions.count = k.space.regionCount from rfl] at placed ⊢
    rw [attached, maps, pages, placed]
    simp only [List.mem_singleton, List.length_nil]
  · exact (congrArg Space.start acts.space).trans starts
  · have sizes := congrArg Space.allocated acts.space
    rw [sizes]
    unfold Space.setSize Space.extend
    dsimp only
    have empty : Function.update k.space.allocated k.space.regionCount 0 k.core.vmemRegions.count = 0 :=
      Function.update_self _ _ _
    rw [allocations, pagesFrom_length, empty, Nat.zero_add]
    exact Function.update_idem _ _ _

/-! ## Before there is a region -/

/-- A state without regions. -/
structure Bare (P : Allocator → Prop) (k₀ k : Kernel) : Prop where
  settled : Settled k
  acts : ∃ f, Acts P f k₀ k
  regions : k.core.vmemRegions.count = 0
  map : ∀ w, k.space.map w = []

theorem Bare.mode (bare : Bare P k₀ k) : P k.alloc := by
  obtain ⟨_, acts⟩ := bare.acts
  exact acts.mode

theorem Bare.then (bare : Bare P k₀ k) {f : Space → Space} (acts : Acts P f k k') (settled : Settled k')
    (regions : (f k.space).regionCount = k.space.regionCount) (map : ∀ w, (f k.space).map w = []) :
    Bare P k₀ k' where
  settled := settled
  acts := by
    obtain ⟨_, before⟩ := bare.acts
    exact ⟨_, before.trans acts⟩
  regions := (acts.regionCount regions).trans bare.regions
  map := by
    intro w
    rw [acts.space]
    exact map w

theorem Bare.still (bare : Bare P k₀ k) (acts : Acts P (fun s => s) k k') : Bare P k₀ k' :=
  bare.then acts (bare.settled.still acts) rfl bare.map

theorem bare_builds (k₀ : Kernel) : Builds P kalloc (Bare P k₀) fun _ _ => False where
  mode := Bare.mode
  known := fun bare v r member => (bare.settled.linked.known v r member).2
  still := Bare.still
  newVmem := by
    intro k k' bare acts
    refine bare.then acts (bare.settled.newVmem acts) rfl fun w => ?_
    by_cases new : w = k.space.vmemCount
    · rw [new]
      exact Function.update_self _ _ _
    · exact (Function.update_of_ne new _ _).trans (bare.map w)
  newRegion := fun _ _ never => never.elim
  attach := fun bare _ known => absurd (bare.regions ▸ known) (Nat.not_lt_zero _)
  resize := fun bare known => absurd (bare.regions ▸ known) (Nat.not_lt_zero _)

theorem blank_bare {pmem : Pmem} (mode : P k.alloc) (blank : k.core = Core.blank pmem) : Bare P k k where
  settled := blank_settled blank
  acts := ⟨_, Acts.refl mode⟩
  regions := by rw [blank]; rfl
  map := by
    intro w
    have none : (k.vmem w).map.items = [] := by rw [blank_vmem blank]; rfl
    exact none

theorem vmemInitialize_log (quiet : Quiet P kalloc) (mode : P k.alloc) :
    P (vmemInitialize kalloc k).alloc ∧ k.alloc.blocks <:+ (vmemInitialize kalloc k).alloc.blocks := by
  have ids := idMapperCreate_acts vmemIdMapper quiet mode Acts.vmemIds
  have created := quiet.along (vmemCreate_path (idMapperCreate kalloc vmemIdMapper k) (Nat.zero_le _)) ids.mode
  exact ⟨created.1, ids.log.trans created.2⟩

theorem Bare.vmemInitialize (bare : Bare P k₀ k) (quiet : Quiet P kalloc)
    (served : Served (vmemInitialize kalloc k).alloc.blocks) : Bare P k₀ (vmemInitialize kalloc k) := by
  have ids := bare.still (idMapperCreate_acts vmemIdMapper quiet bare.mode Acts.vmemIds)
  have created := (bare_builds k₀).vmemCreate quiet ids served
  exact created.still (Acts.setKernelVmem created.mode _)

theorem idMapperCreate_path (mapper : MapperField)
    (edit : ∀ change k, Transition kalloc 0 0 Set.univ k (mapper.modify change k)) (k : Kernel) :
    AnyPath kalloc k (idMapperCreate kalloc mapper k) :=
  (linkedlistCreate_tablePath k).path.tail (edit _ _)

theorem vmemInitialize_eq (kalloc : Kalloc) (k : Kernel) : vmemInitialize kalloc k =
    (vmemCreate kalloc (idMapperCreate kalloc vmemIdMapper k)).2.setKernelVmem
      (vmemCreate kalloc (idMapperCreate kalloc vmemIdMapper k)).1 := rfl

theorem vmemIds_path (k : Kernel) : AnyPath kalloc k (idMapperCreate kalloc vmemIdMapper k) :=
  idMapperCreate_path vmemIdMapper (fun change k => .vmemIds change k) k

theorem vmemRegionInitialize_path (k : Kernel) : AnyPath kalloc k (vmemRegionInitialize kalloc k) :=
  idMapperCreate_path vmemRegionMapper (fun change k => .regionIds change k) k

end Quiet

/-! ## The boot -/

/-- The calls up to `memory_allocator_initialize`, with requests for memory before, between and after them. -/
def bootRun (first second third : List Nat) (k : Kernel) : Kernel :=
  kallocs third (vmemRegionInitialize kalloc (kallocs second (vmemInitialize kalloc (kallocs first k))))

theorem kallocs_acts (sizes : List Nat) : ∀ {k : Kernel}, Early k.alloc → Acts Early (fun s => s) k (kallocs sizes k) := by
  induction sizes with
  | nil => exact fun early => Acts.refl early
  | cons size rest ih =>
      intro k early
      have called := Acts.call kalloc_quiet early size
      rw [kallocs_cons]
      exact called.trans (ih called.mode)

theorem kallocs_tablePath (sizes : List Nat) : ∀ k : Kernel, TablePath kalloc k (kallocs sizes k) := by
  induction sizes with
  | nil => exact fun _ => .refl
  | cons size rest ih =>
      intro k
      rw [kallocs_cons]
      exact (ih _).head (.call size k)

/-- What holds before `memory_allocator_initialize`. -/
theorem bootRun_bare {pmem : Pmem} (early : Early k.alloc) (blank : k.core = Core.blank pmem)
    (first second third : List Nat)
    (served : Served (bootRun first second third k).alloc.blocks) : Bare Early k (bootRun first second third k) := by
  have bare := (blank_bare early blank).still (kallocs_acts first early)
  have before := vmemInitialize_log kalloc_quiet bare.mode
  have more := kallocs_acts second before.1
  have ids := idMapperCreate_acts vmemRegionMapper kalloc_quiet more.mode Acts.regionIds
  have rest := (more.trans ids).trans (kallocs_acts third ids.mode)
  exact (bare.vmemInitialize kalloc_quiet (served.of_suffix rest.log)).still rest

theorem bootRun_wellLinked {pmem : Pmem} (early : Early k.alloc) (blank : k.core = Core.blank pmem)
    (first second third : List Nat) : WellLinked Early (bootRun first second third k) := by
  have calls : ∀ sizes {k : Kernel}, WellLinked Early k → WellLinked Early (kallocs sizes k) := by
    intro sizes k well
    obtain ⟨mode, frame⟩ := kalloc_quiet.tame.table (kallocs_tablePath sizes k) well.mode
    exact well.of_frame mode frame
  have initialized := vmemInitialize_wellLinked kalloc_quiet.tame (calls first (blank_wellLinked early blank))
  have before := calls second initialized
  obtain ⟨mode, frame⟩ := idMapperCreate_frame vmemRegionMapper kalloc_quiet.tame before.mode Frame.regionIds
    (fun _ _ => rfl)
  exact calls third (before.of_frame mode frame)

variable {S : Nat} {image : Region}

theorem log_of_path (path : AnyPath kalloc k k') : k.alloc.blocks <:+ k'.alloc.blocks :=
  (kalloc_reliable.laterOf path).blocks

/-- A step before kernel data has its region. -/
structure Lays (S : Nat) (image : Region) (k k' : Kernel) : Prop where
  log : k.alloc.blocks <:+ k'.alloc.blocks
  data : k'.core.kernelDataVmemRegion = k.core.kernelDataVmemRegion
  heap : Roomy k'.alloc.blocks → Heap S image k → k.core.kernelDataVmemRegion = none → Heap S image k'

theorem Lays.trans {k'' : Kernel} (first : Lays S image k k') (second : Lays S image k' k'') : Lays S image k k'' where
  log := first.log.trans second.log
  data := second.data.trans first.data
  heap := fun roomy heap noData =>
    second.heap roomy (first.heap (roomy.of_suffix second.log) heap noData) (first.data.trans noData)

theorem Lays.of_path (positive : 4096 ≤ S) (path : AnyPath kalloc k k') : Lays S image k k' where
  log := log_of_path path
  data := kernelData_closed.path kernelData_closed.growth.calls.kalloc path
  heap := fun roomy heap noData => heap.along positive noData path roomy

theorem Lays.edit (alloc : k'.alloc = k.alloc)
    (data : k'.core.kernelDataVmemRegion = k.core.kernelDataVmemRegion) : Lays S image k k' where
  log := by rw [alloc]
  data := data
  heap := fun _ heap noData => heap.still alloc (by rw [dataAllocated_of_none noData]; exact Nat.zero_le _)

theorem Lays.setKernelVmem (vmem : Option Nat) (k : Kernel) : Lays S image k (k.setKernelVmem vmem) := .edit rfl rfl

theorem vmemInitialize_lays (positive : 4096 ≤ S) (k : Kernel) : Lays S image k (vmemInitialize kalloc k) := by
  have ids : Lays S image k (idMapperCreate kalloc vmemIdMapper k) := .of_path positive (vmemIds_path k)
  have created := ids.trans (.of_path positive (vmemCreate_path _ (Nat.zero_le _)))
  rw [vmemInitialize_eq]
  exact created.trans (.setKernelVmem _ _)

/-- The heap before `memory_allocator_initialize`. -/
theorem bootRun_lays (positive : 4096 ≤ S) (first second third : List Nat) (k : Kernel) :
    Lays S image k (bootRun first second third k) := by
  have calls : ∀ sizes k, Lays S image k (kallocs sizes k) := fun sizes k =>
    .of_path positive (kallocs_tablePath sizes k).path
  have regionIds : ∀ k, Lays S image k (vmemRegionInitialize kalloc k) := fun k =>
    .of_path positive (vmemRegionInitialize_path k)
  unfold bootRun
  have before := ((calls first k).trans (vmemInitialize_lays positive _)).trans (calls second _)
  exact before.trans ((regionIds _).trans (calls third _))

theorem vmemInitialize_keepsNext (k : Kernel) : KeepsNext k (vmemInitialize kalloc k) := by
  have ids : KeepsNext k (idMapperCreate kalloc vmemIdMapper k) := .path (vmemIds_path k)
  have created : ∀ k, KeepsNext k (vmemCreate kalloc k).2 := fun k => .path (vmemCreate_path k (Nat.zero_le _))
  have noted : ∀ (k : Kernel) vmem, KeepsNext k (k.setKernelVmem vmem) := fun k vmem => .of_vmems rfl
  rw [vmemInitialize_eq]
  exact fun words => noted _ _ (created _ (ids words))

/-- The automatic addresses are words before `memory_allocator_initialize`. -/
theorem bootRun_nextWords {pmem : Pmem} (blank : k.core = Core.blank pmem) (first second third : List Nat) :
    NextWords (bootRun first second third k) := by
  have calls : ∀ sizes k, KeepsNext k (kallocs sizes k) := fun sizes k => .path (kallocs_tablePath sizes k).path
  have regionIds : ∀ k, KeepsNext k (vmemRegionInitialize kalloc k) := fun k => .path (vmemRegionInitialize_path k)
  have words : NextWords k := fun v => by
    rw [blank_vmem blank]
    decide
  unfold bootRun
  exact calls third _ (regionIds _ (calls second _ (vmemInitialize_keepsNext _ (calls first k words))))

/-- The stages of a `memory_allocator_initialize` that returns true. -/
theorem initialise_stages (done : memoryAllocatorInitialize k = (true, k')) :
    ∃ c d, ∃ code data : Kernel, ∃ first second : Nat × Kernel,
      vmemRegionCreate kalloc k.core.kernelVmem (some "kernel-code")
        k.alloc.platform.kernel.addrStart 0 false true true k =
        (some c, code) ∧
      first = vmemRegionMapPhysicalAddress kalloc (some c) k.alloc.platform.kernel.addrStart
        (alignNext k.alloc.platform.kernel.size systemPageSize) (code.setKernelCode (some c)) ∧ first.1 ≠ 0 ∧
      vmemRegionCreate kalloc first.2.core.kernelVmem (some "kernel-data")
        first.2.alloc.platform.kernelData.addrStart 0 false true true first.2 = (some d, data) ∧
      second = vmemRegionMapPhysicalAddress kalloc (some d) data.alloc.platform.kernelData.addrStart
        (alignNext (wrap (data.alloc.platform.kernelData.size + kernelMemoryPageReserve)) systemPageSize)
        (data.setKernelData (some d)) ∧ second.1 ≠ 0 ∧
      second.2.alloc.platform.kernelData.size ≤
        vmemRegionCurrentSize second.2.core.kernelDataVmemRegion second.2 ∧
      k'.mem = second.2.mem ∧ k'.alloc.blocks = second.2.alloc.blocks ∧
      ∃ cr3, k'.core = { second.2.core with cr3 := cr3 } := by
  unfold memoryAllocatorInitialize vmemMapCurrentKernelMemoryAddress at done
  dsimp only at done
  generalize isCode : vmemRegionCreate kalloc k.core.kernelVmem (some "kernel-code")
    k.alloc.platform.kernel.addrStart 0 false true true k = code at done
  generalize isFirst : vmemRegionMapPhysicalAddress kalloc code.1 k.alloc.platform.kernel.addrStart
    (alignNext k.alloc.platform.kernel.size systemPageSize) (code.2.setKernelCode code.1) = first at done
  by_cases failed : first.1 = 0
  · rw [if_pos failed] at done
    cases done
  rw [if_neg failed] at done
  generalize isData : vmemRegionCreate kalloc first.2.core.kernelVmem (some "kernel-data")
    first.2.alloc.platform.kernelData.addrStart 0 false true true first.2 = data at done
  have alloc : (data.2.setKernelData data.1).alloc = data.2.alloc := rfl
  rw [alloc] at done
  generalize isSecond : vmemRegionMapPhysicalAddress kalloc data.1 data.2.alloc.platform.kernelData.addrStart
    (alignNext (wrap (data.2.alloc.platform.kernelData.size + kernelMemoryPageReserve)) systemPageSize)
    (data.2.setKernelData data.1) = second at done
  by_cases failed' : second.1 = 0
  · rw [if_pos failed'] at done
    cases done
  rw [if_neg failed', if_pos rfl] at done
  dsimp only at done
  by_cases grown : vmemRegionCurrentSize second.2.core.kernelDataVmemRegion second.2 <
      second.2.alloc.platform.kernelData.size
  · rw [if_pos grown] at done
    cases done
  rw [if_neg grown] at done
  have last : k'.mem = second.2.mem ∧ k'.alloc.blocks = second.2.alloc.blocks ∧
      ∃ cr3, k'.core = { second.2.core with cr3 := cr3 } := by
    split at done
    · cases done
      unfold nativeVmemSwitch
      split
      · exact ⟨rfl, rfl, second.2.core.cr3, rfl⟩
      · exact ⟨rfl, rfl, _, rfl⟩
    · cases done
      exact ⟨rfl, rfl, second.2.core.cr3, rfl⟩
  -- without a region there is nothing to map
  obtain ⟨codeRegion, codeKernel⟩ := code
  obtain ⟨dataRegion, dataKernel⟩ := data
  cases codeRegion with
  | none =>
      rw [← isFirst] at failed
      exact absurd rfl failed
  | some c =>
      cases dataRegion with
      | none =>
          rw [← isSecond] at failed'
          exact absurd rfl failed'
      | some d =>
          exact ⟨c, d, codeKernel, dataKernel, first, second, rfl, isFirst.symm, failed, isData, isSecond.symm,
            failed', Nat.le_of_not_lt grown, last⟩

/-- A new region without pages, and what does not change for it. -/
theorem vmemRegionCreate_new (linked : k.space.Linked) (known : DataKnown k) {name : String} {start : Nat}
    {user writable executable : Bool} {created : Kernel}
    (made : vmemRegionCreate kalloc (some v) (some name) start 0 user writable executable k = (some r, created)) :
    r = k.core.vmemRegions.count ∧ created.core.vmemRegions.count = k.core.vmemRegions.count + 1 ∧
      (created.region r).start = (placeRegion v start k).1 ∧ (created.region r).allocatedSize = 0 ∧
      created.core.kernelVmem = k.core.kernelVmem := by
  obtain ⟨-, links⟩ := vmemRegionCreate_relinks kalloc_tame trivial linked v name start 0 user writable executable
    made.symm
  rcases links with ⟨none, -⟩ | ⟨none, -⟩ | ⟨new, relinks⟩
  · cases none
  · cases none
  · have isNew := new r rfl
    have count : created.core.vmemRegions.count = k.core.vmemRegions.count + 1 :=
      relinks.links.regionCount.trans (Space.attach_counts _ _ _).2
    obtain ⟨place, reach⟩ := createRegion_new known v name start 0 user writable executable made.symm
      (by rw [count]; exact Nat.lt_succ_self _)
    rw [← isNew] at place reach
    have empty : (created.region r).allocatedSize ≤ alignNext 0 systemPageSize := Nat.le_trans (Nat.le_add_right _ _) reach
    exact ⟨isNew, count, place, Nat.eq_zero_of_le_zero empty, relinks.kernelVmem⟩

theorem mapPhysical_frame (region : Option Nat) (paddr size : Nat) (k : Kernel) :
    Frame k (vmemRegionMapPhysicalAddress kalloc region paddr size k).2 :=
  (kalloc_tame.growth (@vmemRegionMapPhysicalAddress_growthPath _ Set.univ region (fun s _ => Set.mem_univ s) paddr size k)
    trivial).2

theorem wholePages_lt {size : Nat} (word : size < 2 ^ 64) : 4096 * (size / 4096) < 2 ^ 64 :=
  Nat.lt_of_le_of_lt (Nat.mul_div_le size 4096) word

/-- Mapping the data region keeps the heap. -/
theorem Heap.mapPhysical (heap : Heap S image k) (positive : 4096 ≤ S) (isData : k.core.kernelDataVmemRegion = some r)
    (empty : (k.region r).allocatedSize = 0) {paddr size : Nat} (word : size < 2 ^ 64) {mapped : Nat × Kernel}
    (isMapped : mapped = vmemRegionMapPhysicalAddress kalloc (some r) paddr size k) (roomy : Roomy mapped.2.alloc.blocks) :
    Heap S image mapped.2 := by
  unfold vmemRegionMapPhysicalAddress at isMapped
  dsimp only at isMapped
  split at isMapped
  · rw [isMapped]
    exact heap
  · rw [isMapped] at roomy ⊢
    refine mapPhysicalLoop_heap positive _ _ _ _ k heap isData ?_ roomy
    rw [dataAllocated_of_some isData, empty, Nat.zero_add]
    exact wholePages_lt word

/-! ## The maps -/

/-- Of the entries of a page the last counts; behind all others are those of pages mapped to themselves. -/
theorem lastMapped_of_same (map : List VmemMap) {last : List VmemMap} {page : Nat}
    (same : ∀ entry ∈ last, entry.physicalAddr = entry.virtualAddr) (found : ∃ entry ∈ last, entry.virtualAddr = page) :
    lastMapped (map ++ last) page = some page := by
  obtain ⟨entry, member, isPage⟩ := found
  have isSome : (last.reverse.find? (·.virtualAddr = page)).isSome := by
    rw [List.find?_isSome]
    exact ⟨entry, List.mem_reverse.mpr member, decide_eq_true isPage⟩
  obtain ⟨first, isFirst⟩ := Option.isSome_iff_exists.mp isSome
  have here : first.virtualAddr = page := by simpa using List.find?_some isFirst
  have listed := List.mem_reverse.mp (List.mem_of_find?_eq_some isFirst)
  rw [lastMapped, List.reverse_append, List.find?_append, isFirst, Option.some_or, Option.map_some,
    same first listed, here]

theorem wrapEntries_same {start r count : Nat} :
    ∀ entry ∈ Space.wrapEntries start r 0 (pagesFrom count start), entry.physicalAddr = entry.virtualAddr := by
  intro entry member
  obtain ⟨i, bound, rfl⟩ := List.mem_mapIdx.mp member
  simp only [pagesFrom, List.getElem_map, List.getElem_range, Nat.zero_add]

theorem wrapEntries_found {start r count i : Nat} (range : start + 4096 * count ≤ 2 ^ 64) (inside : i < count) :
    ∃ entry ∈ Space.wrapEntries start r 0 (pagesFrom count start), entry.virtualAddr = start + 4096 * i := by
  have bound : i < (pagesFrom count start).length := by rwa [pagesFrom_length]
  refine ⟨_, List.mem_mapIdx.mpr ⟨i, bound, rfl⟩, ?_⟩
  dsimp only
  rw [Nat.zero_add]
  exact wrap_of_lt (by omega)

/-- Entries of a run of pages. -/
theorem aligned_of_pagesFrom {place paddr r count : Nat} (alignedPlace : place % 4096 = 0) (aligned : paddr % 4096 = 0) :
    ∀ entry ∈ Space.wrapEntries place r 0 (pagesFrom count paddr), entry.Aligned := by
  intro entry member
  obtain ⟨i, bound, rfl⟩ := List.mem_mapIdx.mp member
  constructor
  · dsimp only
    unfold wrap
    omega
  · simp only [pagesFrom, List.getElem_map, List.getElem_range]
    unfold wrap
    omega

/-- Pages below `2 ^ 48` that are mapped to themselves. -/
theorem low_of_pagesFrom {start r count : Nat} (low : start + 4096 * count ≤ 2 ^ 48) :
    ∀ entry ∈ Space.wrapEntries start r 0 (pagesFrom count start),
      entry.virtualAddr < 2 ^ 48 ∧ entry.physicalAddr < 2 ^ 48 := by
  intro entry member
  have same := wrapEntries_same entry member
  obtain ⟨i, bound, rfl⟩ := List.mem_mapIdx.mp member
  rw [pagesFrom_length] at bound
  rw [same]
  dsimp only
  rw [Nat.zero_add, wrap_of_lt (by omega)]
  omega

/-! ## The allocator after its boot -/

theorem Heap.served (heap : Heap S image k) (positive : 4096 ≤ S) : Served k.alloc.blocks := by
  intro block member
  have place := (heap.inside block member).1
  omega

/-- Blocks in a heap that ends below `2 ^ 48` are sound. -/
theorem Heap.sound (heap : Heap S image k) (positive : 4096 ≤ S)
    (low : ∀ block ∈ k.alloc.blocks, block.addr + block.size ≤ 2 ^ 48) : Sound k.alloc.blocks := by
  have served := heap.served positive
  have all : returned k.alloc.blocks = k.alloc.blocks := by
    rw [returned, List.filter_eq_self]
    exact fun block member => decide_eq_true (served block member)
  refine Sound.of_ascending (fun block member => ⟨served block member, low block member⟩) ?_
  have ascending := heap.tidy.ascending
  rwa [all] at ascending

/-- The state the kernel starts in has an empty heap. -/
theorem start_heap {platform : Platform} (fresh : platform.kernelData.addrEnd = platform.kernelData.addrStart)
    (pmem : Pmem) (m : Memory) : Heap platform.kernelData.addrStart platform.kernel (.start platform pmem m) := by
  have pointer : (Kernel.start platform pmem m).located.alloc.currentMemPtr = platform.kernelData.addrStart := fresh
  have none : (Kernel.start platform pmem m).alloc.blocks = [] := rfl
  refine ⟨rfl, rfl, rfl, Nat.le_of_eq pointer.symm, ?_, fun some => absurd none some, ?_⟩
  · rw [none]
    exact fun block member => absurd member List.not_mem_nil
  · exact ⟨fun block member => absurd member List.not_mem_nil, List.Pairwise.nil⟩

theorem createRegion_steps {vmem : Option Nat} {name : String} {start : Nat} {user writable executable : Bool}
    {created : Kernel}
    (made : vmemRegionCreate kalloc vmem (some name) start 0 user writable executable k = (some r, created)) :
    AnyPath kalloc k created ∧ Steady Set.univ k created := by
  have path : AnyPath kalloc k (vmemRegionCreate kalloc vmem (some name) start 0 user writable executable k).2 :=
    vmemRegionCreate_path vmem (some name) start 0 user writable executable k
      fun _ _ => ⟨Nat.zero_le _, Set.mem_univ _⟩
  have steady : Steady Set.univ k (vmemRegionCreate kalloc vmem (some name) start 0 user writable executable k).2 :=
    (steady_composed (T := Set.univ) kalloc_steady).createRegion vmem (some name) start 0 user writable executable k
      fun _ _ => ⟨Nat.zero_le _, Set.mem_univ _⟩
  rw [made] at path steady
  exact ⟨path, steady⟩

theorem mapPhysical_path (region : Option Nat) (paddr size : Nat) (k : Kernel) :
    AnyPath kalloc k (vmemRegionMapPhysicalAddress kalloc region paddr size k).2 :=
  vmemRegionMapPhysicalAddress_path region (fun s _ => Set.mem_univ s) paddr size k

/-- The regions of a `memory_allocator_initialize` that returns true: the image and the heap. -/
structure Booted (S : Nat) (image : Region) (v : Nat) (k k' : Kernel) : Prop where
  opened : ∃ c d place count, ∃ first last : Kernel,
    Opens Early v c place image.addrStart (alignNext image.size systemPageSize / 4096) k first ∧
    Opens Early v d S S count first last ∧ 4096 * count < 2 ^ 64 ∧ image.addrStart % 4096 = 0 ∧
    Heap S image last ∧ last.core.kernelDataVmemRegion = some d ∧ last.core.kernelVmem = some v ∧
    last.alloc.platform.kernelData.size ≤ (last.region d).allocatedSize ∧
    k'.mem = last.mem ∧ k'.alloc.blocks = last.alloc.blocks ∧ ∃ cr3, k'.core = { last.core with cr3 := cr3 }

theorem initialise_booted (heap : Heap S image k) (positive : 4096 ≤ S) (noData : k.core.kernelDataVmemRegion = none)
    (bare : Bare Early k₀ k) (known : KernelKnown k) (words : NextWords k) (wordImage : image.addrStart < 2 ^ 64)
    (done : memoryAllocatorInitialize k = (true, k')) (roomy : Roomy k'.alloc.blocks)
    (wordData : ∀ d ∈ k'.core.kernelDataVmemRegion, (k'.region d).start < 2 ^ 64) :
    ∃ v < k.core.vmems.count, Booted S image v k k' := by
  obtain ⟨c, d, code, data, first, second, isCode, isFirst, firstDone, isData, isSecond, secondDone, checked, mem, blocks,
    cr3, core⟩ := initialise_stages done
  rw [heap.kernel] at isCode isFirst
  rw [blocks] at roomy
  -- the kernel's address space
  obtain ⟨v, isKernel⟩ : ∃ v, k.core.kernelVmem = some v := by
    cases isKernel : k.core.kernelVmem with
    | none =>
        rw [isKernel] at isCode
        cases isCode
    | some v => exact ⟨v, rfl⟩
  refine ⟨v, known v isKernel, ?_⟩
  rw [isKernel] at isCode
  have noneKnown : DataKnown k := fun s isS => by rw [noData] at isS; cases isS
  obtain ⟨isC, codeCount, codePlace, -, codeKernel⟩ := vmemRegionCreate_new bare.settled.linked noneKnown isCode
  -- the heap up to the data region
  have firstFrame : Frame (code.setKernelCode (some c)) first.2 := by
    rw [isFirst]
    exact mapPhysical_frame _ _ _ _
  have firstPath : AnyPath kalloc (code.setKernelCode (some c)) first.2 := by
    rw [isFirst]
    exact mapPhysical_path _ _ _ _
  have codeLays : Lays S image k code := .of_path positive (createRegion_steps isCode).1
  have noteLays : Lays S image code (code.setKernelCode (some c)) := .edit rfl rfl
  have firstLays : Lays S image k first.2 := (codeLays.trans noteLays).trans (.of_path positive firstPath)
  have firstKernel : first.2.core.kernelVmem = some v := firstFrame.kernelVmem.trans (codeKernel.trans isKernel)
  rw [firstKernel] at isData
  obtain ⟨dataPath, dataSteady⟩ := createRegion_steps isData
  have dataLays : Lays S image k data := firstLays.trans (.of_path positive dataPath)
  have secondPath : AnyPath kalloc (data.setKernelData (some d)) second.2 := by
    rw [isSecond]
    exact mapPhysical_path _ _ _ _
  have secondFrame : Frame (data.setKernelData (some d)) second.2 := by
    rw [isSecond]
    exact mapPhysical_frame _ _ _ _
  have notedRoomy : Roomy (data.setKernelData (some d)).alloc.blocks := roomy.of_suffix (log_of_path secondPath)
  have dataRoomy : Roomy data.alloc.blocks := notedRoomy
  have dataHeap := dataLays.heap dataRoomy heap noData
  have firstHeap := firstLays.heap (dataRoomy.of_suffix (log_of_path dataPath)) heap noData
  have firstNone : first.2.core.kernelDataVmemRegion = none := firstLays.data.trans noData
  have firstKnown : DataKnown first.2 := fun s isS => by rw [firstNone] at isS; cases isS
  rw [firstHeap.base] at isData
  rw [dataHeap.base] at isSecond
  -- both regions are where they were put
  have wordC : (placeRegion v image.addrStart k).1 < 2 ^ 64 := by
    unfold placeRegion
    split
    · exact words v
    · exact wordImage
  have noteCode : Acts Early (fun s => s) code (code.setKernelCode (some c)) := by
    refine .edit ?_ rfl rfl rfl (fun _ => rfl) (fun _ => rfl) rfl fun ready => ⟨ready.vmems, ready.regions⟩
    exact (kalloc_quiet.along (createRegion_steps isCode).1 heap.early).1
  obtain ⟨alignedImage, -, -, openC⟩ := opens_of_map kalloc_quiet heap.early bare.settled (known v isKernel)
    wordC isCode noteCode wordImage isFirst firstDone (firstHeap.served positive)
  have nonzero : S ≠ 0 := by omega
  obtain ⟨isD, dataCount, dataPlace, dataEmpty, dataKernel⟩ := vmemRegionCreate_new openC.settled.linked firstKnown isData
  have placeD : (placeRegion v S first.2).1 = S := by rw [placeRegion, if_neg nonzero]
  rw [placeD] at dataPlace
  have secondData : second.2.core.kernelDataVmemRegion = some d := secondFrame.kernelData
  have word : S < 2 ^ 64 := by
    have last : k'.region d = second.2.region d := by rw [Kernel.region, core]; rfl
    have bound := wordData d (by rw [core]; exact secondData)
    rwa [last, secondFrame.start, show ((data.setKernelData (some d)).region d).start = S from dataPlace] at bound
  have noteData : Acts Early (fun s => s) data (data.setKernelData (some d)) :=
    .edit dataHeap.early rfl rfl rfl (fun _ => rfl) (fun _ => rfl) rfl fun ready => ⟨ready.vmems, ready.regions⟩
  have notedHeap : Heap S image (data.setKernelData (some d)) :=
    dataHeap.still rfl (by rw [dataAllocated_of_none (dataLays.data.trans noData)]; exact Nat.zero_le _)
  have secondHeap := notedHeap.mapPhysical positive rfl dataEmpty (alignNext_lt _) isSecond roomy
  have knownV : v < first.2.core.vmems.count := openC.vmems ▸ known v isKernel
  obtain ⟨-, -, sized, openD⟩ := opens_of_map kalloc_quiet firstHeap.early openC.settled knownV
    (by rwa [placeD]) isData noteData word isSecond secondDone (secondHeap.served positive)
  rw [placeD] at openD
  rw [secondData] at checked
  refine ⟨c, d, _, _, first.2, second.2, openC, openD, wholePages_lt (alignNext_lt _), alignedImage, secondHeap,
    secondData, ?_, ?_, mem, blocks, cr3, core⟩
  · exact secondFrame.kernelVmem.trans (dataKernel.trans firstKernel)
  · exact Nat.le_trans checked (Nat.le_of_eq sized)

/-- What `memory_allocator_initialize` leaves when it returns true. -/
theorem Booted.maps {pmem : Pmem} (booted : Booted S image v k k') (known : v < k.core.vmems.count)
    (positive : 4096 ≤ S) (bare : Bare Early k₀ k) (blank : k₀.core = Core.blank pmem)
    (low : ∀ d ∈ k'.core.kernelDataVmemRegion, (k'.region d).start + (k'.region d).allocatedSize ≤ 2 ^ 48) :
    ∃ d, k'.core.kernelVmem = some v ∧ k'.core.kernelDataVmemRegion = some d ∧ (k'.region d).start = S ∧
      (∀ block ∈ k'.alloc.blocks, S ≤ block.addr ∧
        block.addr + block.size + kernelMemoryPageReserve ≤ S + (k'.region d).allocatedSize) ∧
      ∀ a, S ≤ a → a < S + (k'.region d).allocatedSize → walk k' v a = some (memAlign a) := by
  obtain ⟨c, d, place, count, first, last, openC, openD, word, alignedImage, heap, isData, isKernel, checked, mem,
    blocks, cr3, core⟩ := booted.opened
  have sameRegion : ∀ r, k'.region r = last.region r := fun r => by unfold Kernel.region; rw [core]
  have sameWalk : ∀ a, walk k' v a = walk last v a := by
    intro a
    unfold walk Kernel.native Kernel.vmem
    rw [core, mem]
  have startD : (last.region d).start = S := by
    have start := congrFun openD.start d
    rwa [Function.update_self] at start
  have sizeD : (last.region d).allocatedSize = wrap (4096 * count) := by
    have size := congrFun openD.allocated d
    rwa [Function.update_self] at size
  rw [wrap_of_lt word] at sizeD
  have lowD := low d (by rw [core]; exact isData)
  rw [sameRegion, startD, sizeD] at lowD
  rw [sizeD] at checked
  have ends : ∀ block ∈ last.alloc.blocks, S ≤ block.addr ∧
      block.addr + block.size + kernelMemoryPageReserve ≤ S + 4096 * count := by
    intro block member
    have inside := heap.inside block member
    have room := heap.room (List.ne_nil_of_mem member)
    rw [dataAllocated_of_some isData, sizeD, Nat.max_eq_right checked] at room
    omega
  have sound : Sound last.alloc.blocks := heap.sound positive fun block member => by
    have place := (ends block member).2
    omega
  -- the image first, then the heap
  have mapV : last.space.map v =
      Space.wrapEntries place c 0 (pagesFrom (alignNext image.size systemPageSize / 4096) image.addrStart) ++
        Space.wrapEntries S d 0 (pagesFrom count S) := by
    rw [openD.map, if_pos rfl, openC.map, if_pos rfl, bare.map, List.nil_append]
  have alignedMaps : AlignedMaps last := by
    intro w _ entry member
    by_cases here : w = v
    · rw [here, show (last.vmem v).map.items = _ from mapV] at member
      rcases List.mem_append.mp member with image' | heap'
      · exact aligned_of_pagesFrom openC.aligned alignedImage entry image'
      · exact aligned_of_pagesFrom openD.aligned openD.aligned entry heap'
    · have none : last.space.map w = [] := by
        rw [openD.map, if_neg here, openC.map, if_neg here, bare.map]
      rw [show (last.vmem w).map.items = _ from none] at member
      exact absurd member List.not_mem_nil
  obtain ⟨_, booting⟩ := bare.acts
  obtain ⟨_, code⟩ := openC.acts
  obtain ⟨_, data⟩ := openD.acts
  have mirror : Mirror last := ((booting.trans code).trans data).mirror sound alignedMaps (blank_mirror blank)
  have knownV : v < last.core.vmems.count := by rwa [openD.vmems, openC.vmems]
  refine ⟨d, ?_, ?_, ?_, ?_, fun a above below => ?_⟩
  · rw [core]
    exact isKernel
  · rw [core]
    exact isData
  · rw [sameRegion, startD]
  · rw [blocks, sameRegion, sizeD]
    exact ends
  · rw [sameRegion, sizeD] at below
    have page : memAlign a = S + 4096 * ((a - S) / 4096) := by
      have aligned := openD.aligned
      have split := memAlign_add_mod a
      omega
    rw [sameWalk, mirror.walks v knownV a (by omega), show (last.vmem v).map.items = _ from mapV, List.map_append,
      map_cut_eq (low_of_pagesFrom lowD)]
    exact lastMapped_of_same _ wrapEntries_same (page ▸ wrapEntries_found (by omega) (by omega))

/-- Whatever the kernel asks for before `memory_allocator_initialize`: when that returns true, all
blocks so far end a reserve below the end of the data region, and the kernel's page table maps
each page of the region to itself. -/
theorem boot_maps_heap {platform : Platform} {pmem : Pmem} {m : Memory} (first second third : List Nat) {k' : Kernel}
    (nonzero : platform.kernelData.addrStart ≠ 0) (aligned : platform.kernelData.addrStart % 4096 = 0)
    (fresh : platform.kernelData.addrEnd = platform.kernelData.addrStart)
    (word : platform.kernel.addrStart < 2 ^ 64)
    (done : memoryAllocatorInitialize (bootRun first second third (.start platform pmem m)) = (true, k'))
    (roomy : Roomy k'.alloc.blocks)
    (low : ∀ d ∈ k'.core.kernelDataVmemRegion, (k'.region d).start + (k'.region d).allocatedSize ≤ 2 ^ 48) :
    ∃ v d, k'.core.kernelVmem = some v ∧ k'.core.kernelDataVmemRegion = some d ∧
      (k'.region d).start = platform.kernelData.addrStart ∧
      (∀ block ∈ k'.alloc.blocks, platform.kernelData.addrStart ≤ block.addr ∧
        block.addr + block.size + kernelMemoryPageReserve ≤
          platform.kernelData.addrStart + (k'.region d).allocatedSize) ∧
      ∀ a, platform.kernelData.addrStart ≤ a → a < platform.kernelData.addrStart + (k'.region d).allocatedSize →
        walk k' v a = some (memAlign a) := by
  have positive : 4096 ≤ platform.kernelData.addrStart := by omega
  have lays : Lays platform.kernelData.addrStart platform.kernel (.start platform pmem m)
      (bootRun first second third (.start platform pmem m)) := bootRun_lays positive first second third _
  have early : Early (Kernel.start platform pmem m).alloc := rfl
  have blank : (Kernel.start platform pmem m).core = Core.blank pmem := rfl
  have none : (bootRun first second third (.start platform pmem m)).core.kernelDataVmemRegion = none := lays.data
  have log := (later_boot.initialise (bootRun first second third (.start platform pmem m))).blocks
  rw [done] at log
  have heap := lays.heap (roomy.of_suffix log) (start_heap fresh pmem m) rfl
  have bare := bootRun_bare early blank first second third (heap.served positive)
  have known := (bootRun_wellLinked early blank first second third).kernel
  have words := bootRun_nextWords blank first second third
  obtain ⟨v, isKnown, booted⟩ := initialise_booted heap positive none bare known words word done roomy
    fun d isData => by have bound := low d isData; omega
  exact ⟨v, booted.maps isKnown positive bare blank low⟩

theorem eq_of_returned {result : Bool × Kernel} (returned : result.1 = true) : result = (true, result.2) :=
  Prod.ext returned rfl

/-- The machine of `sampleKernel` with kernel data elsewhere. -/
def samplePlatform (start : Nat) : Platform :=
  { sampleKernel.alloc.platform with kernelData := { addrStart := start, addrEnd := start, size := 0 } }

/-- A boot of the machine with a request at each point. -/
def sampleBooted (start : Nat) : Bool × Kernel :=
  memoryAllocatorInitialize
    (bootRun [16] [24] [40] (.start (samplePlatform start) sampleKernel.core.pmem sampleKernel.mem))

theorem boot_maps_heap_sample :
    ∃ v d, (sampleBooted 0x102000).2.core.kernelVmem = some v ∧
      (sampleBooted 0x102000).2.core.kernelDataVmemRegion = some d ∧
      ((sampleBooted 0x102000).2.region d).start = 0x102000 ∧
      (∀ block ∈ (sampleBooted 0x102000).2.alloc.blocks, 0x102000 ≤ block.addr ∧
        block.addr + block.size + kernelMemoryPageReserve ≤
          0x102000 + ((sampleBooted 0x102000).2.region d).allocatedSize) ∧
      ∀ a, 0x102000 ≤ a → a < 0x102000 + ((sampleBooted 0x102000).2.region d).allocatedSize →
        walk (sampleBooted 0x102000).2 v a = some (memAlign a) := by
  have run : (sampleBooted 0x102000).1 = true ∧ Roomy (sampleBooted 0x102000).2.alloc.blocks ∧
      ∀ d ∈ (sampleBooted 0x102000).2.core.kernelDataVmemRegion, ((sampleBooted 0x102000).2.region d).start +
        ((sampleBooted 0x102000).2.region d).allocatedSize ≤ 2 ^ 48 := by
    decide +kernel
  exact @boot_maps_heap (samplePlatform 0x102000) _ _ [16] [24] [40] (sampleBooted 0x102000).2 (by decide) (by decide) rfl
    (by decide) (eq_of_returned run.1) run.2.1 run.2.2

/-- Kernel data at `0`: the boot succeeds, but the region is put at the first automatic address.  Its pages are the
physical ones from `0` on, and the blocks are where nothing is mapped. -/
theorem boot_heap_not_mapped :
    (sampleBooted 0).1 = true ∧ Roomy (sampleBooted 0).2.alloc.blocks ∧
      (sampleBooted 0).2.core.kernelVmem = some 0 ∧ (sampleBooted 0).2.core.kernelDataVmemRegion = some 1 ∧
      ((sampleBooted 0).2.region 1).start = 0x100000 ∧ walk (sampleBooted 0).2 0 0x100000 = some 0 ∧
      ∃ block ∈ (sampleBooted 0).2.alloc.blocks, block.addr ≠ 0 ∧
        block.addr < ((sampleBooted 0).2.region 1).start ∧ walk (sampleBooted 0).2 0 block.addr = none := by
  decide +kernel

end BubackOS
