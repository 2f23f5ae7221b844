import BubackOS.Core.Acts
import BubackOS.Core.Transitions

/-!
# The vmem services on the lists

Under a quiet allocator all of whose calls succeed, every loop of the vmem services
is an iteration of the operations on the lists.
-/

namespace BubackOS

open Library

namespace Space

/-- Append entries to the map of an address space. -/
def note (v : Nat) (entries : List VmemMap) (s : Space) : Space :=
  { s with map := Function.update s.map v (s.map v ++ entries) }

theorem note_note (v : Nat) (first second : List VmemMap) (s : Space) :
    (s.note v first).note v second = s.note v (first ++ second) := by
  simp [note]

theorem note_nil (v : Nat) (s : Space) : s.note v [] = s := by
  simp [note]

end Space

variable {P : Allocator → Prop} {kalloc : Kalloc} {k : Kernel} {v r : Nat}

/-! ## Paths under a quiet allocator -/

theorem Quiet.along {k' : Kernel} (quiet : Quiet P kalloc) (path : AnyPath kalloc k k')
    (mode : P k.alloc) : P k'.alloc ∧ k.alloc.blocks <:+ k'.alloc.blocks := by
  have along : ∀ {k k'}, Transition kalloc 0 0 Set.univ k k' → P k.alloc →
      P k'.alloc ∧ k.alloc.blocks <:+ k'.alloc.blocks := by
    intro k k' step mode
    cases step with
    | table step =>
        cases step with
        | call size => exact ⟨quiet.stays size k mode, quiet.log mode⟩
        | write => exact ⟨mode, List.suffix_rfl⟩
        | native => exact ⟨mode, List.suffix_rfl⟩
    | grow found =>
        rw [pmemAllocate_of_success found]
        exact ⟨mode, List.suffix_rfl⟩
    | exhaust failed =>
        rw [pmemAllocate_of_failure failed]
        exact ⟨mode, List.suffix_rfl⟩
    | _ => exact ⟨mode, List.suffix_rfl⟩
  induction path with
  | refl => exact ⟨mode, List.suffix_rfl⟩
  | tail _ step ih =>
      obtain ⟨mode', log⟩ := ih
      obtain ⟨mode'', log'⟩ := along step mode'
      exact ⟨mode'', log.trans log'⟩

/-- The calls up to an earlier state succeeded if all did. -/
theorem Quiet.served_before {k' : Kernel} (quiet : Quiet P kalloc) (path : AnyPath kalloc k k')
    (mode : P k.alloc) (served : Served k'.alloc.blocks) : Served k.alloc.blocks :=
  served.of_suffix (quiet.along path mode).2

/-! ## Lists -/

/-- Appending when the node is there. -/
theorem linkedlistAppend_served {α : Type} {ll : ListField α} {data : α} (quiet : Quiet P kalloc)
    (mode : P k.alloc) (some : (ll.get k).isSome)
    (served : Served (linkedlistAppend kalloc ll data k).2.alloc.blocks) :
    linkedlistAppend kalloc ll data k =
      (true, ll.modify (· ++ [data]) (kalloc sizeofLinkedlistNode k).2) := by
  rw [linkedlistAppend_of_some some] at served ⊢
  by_cases failed : (kalloc sizeofLinkedlistNode k).1 = 0
  · rw [if_pos failed, quiet.logged _ k mode] at served
    exact absurd failed (served _ List.mem_cons_self)
  · rw [if_neg failed]

theorem linkedlistCreate_served {α : Type} (quiet : Quiet P kalloc) (mode : P k.alloc)
    (served : Served (linkedlistCreate (α := α) kalloc k).2.alloc.blocks) :
    linkedlistCreate (α := α) kalloc k = (some [], (kalloc sizeofLinkedlist k).2) := by
  unfold linkedlistCreate at served ⊢
  by_cases failed : (kalloc sizeofLinkedlist k).1 = 0
  · simp only [if_pos failed, quiet.logged _ k mode] at served
    exact absurd failed (served _ List.mem_cons_self)
  · simp only [if_neg failed]

/-! ## Notification -/

/-- Noting an entry and setting its page. -/
theorem Acts.mapPage (quiet : Quiet P kalloc) (mode : P k.alloc) (known : v < k.core.vmems.count)
    (ready : Ready k) (entry : VmemMap) (permission : Permission) :
    Acts P (Space.note v [entry]) k (nativeVmemSet kalloc v (entry.pageMapEntry permission)
      ((mapOf v).modify (· ++ [entry]) k)).2 := by
  obtain ⟨noted, isNoted⟩ : ∃ noted, noted = (mapOf v).modify (· ++ [entry]) k := ⟨_, rfl⟩
  have some := (ready.vmems v known).2
  have mode' : P noted.alloc := by rw [isNoted]; exact mode
  have only := nativeVmemSet_onlyNative (v := v) quiet mode' (entry.pageMapEntry permission)
  have items : (((mapOf v).modify (· ++ [entry]) k).vmem v).map.items =
      (k.vmem v).map.items ++ [entry] := mapOf_items some
  have count : (nativeVmemSet kalloc v (entry.pageMapEntry permission) noted).2.core.vmems.count =
      k.core.vmems.count := by
    obtain ⟨pt, core⟩ := only
    rw [core, isNoted]
    rfl
  have grows : ∀ w, ∀ e ∈ (k.vmem w).map.items, e ∈ (noted.vmem w).map.items := by
    intro w e member
    by_cases same : w = v
    · subst same
      rw [isNoted, items]
      exact List.mem_append_left _ member
    · rw [isNoted, mapOf_vmem_of_ne same]
      exact member
  rw [← isNoted]
  refine ⟨⟨nativeVmemSet_stays quiet mode' _, ?_, ?_, ?_, ?_⟩, ?_⟩
  · have log := (quiet.along (nativeVmemSet_tablePath v (entry.pageMapEntry permission) noted).path mode').2
    rwa [isNoted] at log ⊢
  · rw [only.space, isNoted, mapOf, space_modifyVmem]
    obtain ⟨list, found⟩ := Option.isSome_iff_exists.mp some
    have map : k.space.map v = list := by simp [Kernel.space, found, LinkedList.items]
    have regions : Function.update k.space.regions v (k.vmem v).regions.items = k.space.regions :=
      Function.update_eq_self v k.space.regions
    simp only [Space.note, found, Option.map_some, LinkedList.items, Option.getD_some, map]
    rw [show Function.update k.space.regions v ((k.vmem v).regions.getD []) = k.space.regions from regions]
  · intro aligned w bound e member
    have bound' : w < (nativeVmemSet kalloc v (entry.pageMapEntry permission) noted).2.core.vmems.count := by
      rw [count]
      exact bound
    refine aligned w bound' e ?_
    rw [only.map]
    exact grows w e member
  · intro sound aligned mirror
    have alignedEntry : entry.Aligned := by
      have bound : v < (nativeVmemSet kalloc v (entry.pageMapEntry permission) noted).2.core.vmems.count := by
        rw [count]
        exact known
      refine aligned v bound entry ?_
      rw [only.map, isNoted, items]
      simp
    rw [Mirror, Kernel.vmemSet, count]
    rw [isNoted] at sound ⊢
    exact MirrorOn.mapPage mirror quiet mode known some alignedEntry permission sound
  · intro ready
    refine only.ready ?_
    rw [isNoted]
    exact ready_modifyVmem ready id (by simp)

theorem mapOf_get (v : Nat) (k : Kernel) : (mapOf v).get k = (k.vmem v).map := rfl

/-- The state in which `vmem_notify_change` notes the entry. -/
def notifyReady (kalloc : Kalloc) (k : Kernel) : Kernel :=
  (kalloc sizeofLinkedlistNode (kalloc sizeofVmemMap k).2).2

theorem vmemNotifyChange_served (quiet : Quiet P kalloc) (mode : P k.alloc)
    (some : (k.vmem v).map.isSome) {paddr vaddr : Nat}
    (served : Served (vmemNotifyChange kalloc v r paddr vaddr k).2.alloc.blocks) :
    vmemNotifyChange kalloc v r paddr vaddr k =
      (true, (nativeVmemSet kalloc v
        (VmemMap.pageMapEntry { virtualAddr := vaddr, physicalAddr := paddr, region := r }
          (regionPermission (k.region r)))
        ((mapOf v).modify (· ++ [{ virtualAddr := vaddr, physicalAddr := paddr, region := r }])
          (notifyReady kalloc k))).2) := by
  have mode' := quiet.stays sizeofVmemMap k mode
  have mode'' := quiet.stays sizeofLinkedlistNode _ mode'
  by_cases failed : (kalloc sizeofVmemMap k).1 = 0
  · have result : vmemNotifyChange kalloc v r paddr vaddr k = (false, (kalloc sizeofVmemMap k).2) := by
      simp [vmemNotifyChange, failed]
    rw [result, quiet.logged _ k mode] at served
    exact absurd failed (served _ List.mem_cons_self)
  · have some' : ((mapOf v).get (kalloc sizeofVmemMap k).2).isSome := by
      rw [mapOf_get, quiet.vmem mode]
      exact some
    by_cases failed' : (kalloc sizeofLinkedlistNode (kalloc sizeofVmemMap k).2).1 = 0
    · have result : vmemNotifyChange kalloc v r paddr vaddr k =
          (false, (kalloc sizeofLinkedlistNode (kalloc sizeofVmemMap k).2).2) := by
        simp [vmemNotifyChange, failed, linkedlistAppend_of_some some', failed']
      rw [result, quiet.logged _ _ mode'] at served
      exact absurd failed' (served _ List.mem_cons_self)
    · have region : ((mapOf v).modify (· ++ [{ virtualAddr := vaddr, physicalAddr := paddr, region := r }])
          (notifyReady kalloc k)).region r = k.region r := by
        have same : (notifyReady kalloc k).region r = k.region r :=
          (quiet.region mode' _ r).trans (quiet.region mode _ r)
        exact same
      simp only [vmemNotifyChange, if_neg failed, linkedlistAppend_of_some some', if_neg failed', if_true]
      rw [← region]
      rfl

/-- `vmem_notify_change` appends one entry. -/
theorem vmemNotifyChange_acts (quiet : Quiet P kalloc) (mode : P k.alloc)
    (known : v < k.core.vmems.count) (ready : Ready k) (paddr vaddr : Nat)
    (served : Served (vmemNotifyChange kalloc v r paddr vaddr k).2.alloc.blocks) :
    (vmemNotifyChange kalloc v r paddr vaddr k).1 = true ∧
      Acts P (Space.note v [{ virtualAddr := vaddr, physicalAddr := paddr, region := r }]) k
        (vmemNotifyChange kalloc v r paddr vaddr k).2 := by
  rw [vmemNotifyChange_served quiet mode (ready.vmems v known).2 served]
  have mode' := quiet.stays sizeofVmemMap k mode
  have calls : Acts P (fun s => s) k (notifyReady kalloc k) :=
    (Acts.call quiet mode sizeofVmemMap).trans (Acts.call quiet mode' sizeofLinkedlistNode)
  have known' : v < (notifyReady kalloc k).core.vmems.count := by
    rw [notifyReady, quiet.core _ _ mode', quiet.core _ k mode]
    exact known
  exact ⟨rfl, calls.trans (Acts.mapPage quiet calls.mode known' (calls.ready ready) _ _)⟩

theorem foldl_note (vs : List Nat) (entry : VmemMap) (s : Space) (nodup : vs.Nodup) :
    vs.foldl (fun s v => s.note v [entry]) s =
      { s with map := fun v => if v ∈ vs then s.map v ++ [entry] else s.map v } := by
  induction vs generalizing s with
  | nil => simp
  | cons v rest ih =>
      obtain ⟨new, nodup'⟩ := List.nodup_cons.mp nodup
      rw [List.foldl_cons, ih _ nodup']
      simp only [Space.note]
      congr 1
      funext w
      by_cases same : w = v
      · subst same
        simp [new]
      · simp [same]

/-- The notification loop appends the entry to every address space of the list. -/
theorem notifyAttached_acts (quiet : Quiet P kalloc) (paddr vaddr : Nat) (vs : List Nat) :
    ∀ k : Kernel, P k.alloc → Ready k → (∀ v ∈ vs, v < k.core.vmems.count) →
      Served (notifyAttached kalloc r paddr vaddr vs k).2.alloc.blocks →
      (notifyAttached kalloc r paddr vaddr vs k).1 = true ∧
        Acts P (fun s => vs.foldl (fun s v =>
            s.note v [{ virtualAddr := vaddr, physicalAddr := paddr, region := r }]) s) k
          (notifyAttached kalloc r paddr vaddr vs k).2 := by
  induction vs with
  | nil =>
      intro k mode _ _ _
      exact ⟨rfl, Acts.refl mode⟩
  | cons v rest ih =>
      intro k mode ready known served
      have here := known v List.mem_cons_self
      have mode' := (quiet.along   (vmemNotifyChange_path v r paddr vaddr k) mode).1
      have served' : Served (vmemNotifyChange kalloc v r paddr vaddr k).2.alloc.blocks := by
        unfold notifyAttached at served
        dsimp only at served
        split at served
        · exact quiet.served_before       (notifyAttached_path r paddr vaddr rest _) mode' served
        · exact served
      obtain ⟨done, acts⟩ := vmemNotifyChange_acts quiet mode here ready paddr vaddr served'
      have unfolded : notifyAttached kalloc r paddr vaddr (v :: rest) k =
          notifyAttached kalloc r paddr vaddr rest (vmemNotifyChange kalloc v r paddr vaddr k).2 :=
        if_pos done
      rw [unfolded] at served ⊢
      have known' : ∀ w ∈ rest, w < (vmemNotifyChange kalloc v r paddr vaddr k).2.core.vmems.count := by
        intro w member
        have count : (vmemNotifyChange kalloc v r paddr vaddr k).2.space.vmemCount =
          k.space.vmemCount := by rw [acts.space]; rfl
        exact Nat.lt_of_lt_of_eq (known w (List.mem_cons_of_mem v member)) count.symm
      obtain ⟨done', acts'⟩ := ih _ mode' (acts.ready ready) known' served
      exact ⟨done', acts.trans acts'⟩

/-! ## Associating a page -/

theorem space_update_region {α : Type} (field : VmemRegion → α) (k : Kernel) (r : Nat) :
    Function.update (fun s => field (k.region s)) r (field (k.region r)) = fun s => field (k.region s) :=
  Function.update_eq_self r _

theorem Acts.beginAssociate (mode : P k.alloc) (r paddr : Nat) :
    Acts P (fun s => { s with allocated := Function.update s.allocated r (wrap (s.allocated r + 4096)) }) k
      (k.beginAssociate r paddr) := by
  refine (Acts.record mode _).trans (Acts.modifyRegion mode ?_ id id)
  rw [space_modifyRegion]
  simp only [Kernel.space, Kernel.region_record]
  rw [space_update_region (fun region => region.attached.items),
    space_update_region (fun region => region.pages.items), space_update_region (·.start),
    space_update_region (·.size)]
  rfl

theorem Acts.appendPage (mode : P k.alloc) (page : Nat) (some : (k.region r).pages.isSome) :
    Acts P (fun s => { s with pages := Function.update s.pages r (s.pages r ++ [page]) }) k
      ((pagesOf r).modify (· ++ [page]) k) := by
  refine Acts.modifyRegion mode ?_ (by simp) id
  obtain ⟨list, found⟩ := Option.isSome_iff_exists.mp some
  rw [space_modifyRegion]
  simp only [Kernel.space]
  rw [space_update_region (fun region => region.attached.items), space_update_region (·.start),
    space_update_region (·.size), space_update_region (·.allocatedSize)]
  simp only [found, Option.map_some, LinkedList.items, Option.getD_some]

theorem Acts.appendAttached (mode : P k.alloc) (v : Nat) (some : (k.region r).attached.isSome) :
    Acts P (fun s => { s with attached := Function.update s.attached r (s.attached r ++ [v]) }) k
      ((attachedOf r).modify (· ++ [v]) k) := by
  refine Acts.modifyRegion mode ?_ id (by simp)
  obtain ⟨list, found⟩ := Option.isSome_iff_exists.mp some
  rw [space_modifyRegion]
  simp only [Kernel.space]
  rw [space_update_region (fun region => region.pages.items), space_update_region (·.start),
    space_update_region (·.size), space_update_region (·.allocatedSize)]
  simp only [found, Option.map_some, LinkedList.items, Option.getD_some]

theorem Acts.declare (mode : P k.alloc) (r : Nat) (size : VmemRegion → Nat) :
    Acts P (Space.setSize r (size (k.region r))) k
      (k.modifyRegion r fun region => { region with size := size region }) := by
  refine Acts.modifyRegion mode ?_ id id
  rw [space_modifyRegion]
  simp only [Kernel.space]
  rw [space_update_region (fun region => region.pages.items), space_update_region (·.start),
    space_update_region (fun region => region.attached.items), space_update_region (·.allocatedSize)]
  rfl

theorem Acts.appendRegion (mode : P k.alloc) (r : Nat) (some : (k.vmem v).regions.isSome) :
    Acts P (fun s => { s with regions := Function.update s.regions v (s.regions v ++ [r]) }) k
      ((regionsOf v).modify (· ++ [r]) k) := by
  refine Acts.modifyVmem mode ?_ rfl rfl (by simp)
  obtain ⟨list, found⟩ := Option.isSome_iff_exists.mp some
  rw [space_modifyVmem]
  have map : Function.update k.space.map v (k.vmem v).map.items = k.space.map :=
    Function.update_eq_self v k.space.map
  have regions : k.space.regions v = list := by simp [Kernel.space, found, LinkedList.items]
  rw [map, regions]
  simp only [found, Option.map_some, LinkedList.items, Option.getD_some]

/-- The space after a step with a known effect keeps its objects. -/
theorem Acts.regionCount {k' : Kernel} {f : Space → Space} (acts : Acts P f k k')
    (same : (f k.space).regionCount = k.space.regionCount) :
    k'.core.vmemRegions.count = k.core.vmemRegions.count := by
  have count : k'.space.regionCount = k.space.regionCount := by rw [acts.space, same]
  exact count

theorem Acts.vmemCount {k' : Kernel} {f : Space → Space} (acts : Acts P f k k')
    (same : (f k.space).vmemCount = k.space.vmemCount) :
    k'.core.vmems.count = k.core.vmems.count := by
  have count : k'.space.vmemCount = k.space.vmemCount := by rw [acts.space, same]
  exact count

/-- Appending, with the effect of the edit. -/
theorem linkedlistAppend_acts {α : Type} {f : Space → Space} (ll : ListField α) (data : α)
    (quiet : Quiet P kalloc) (mode : P k.alloc)
    (same : ll.get (kalloc sizeofLinkedlistNode k).2 = ll.get k) (some : (ll.get k).isSome)
    (edit : ∀ k, P k.alloc → (ll.get k).isSome → Acts P f k (ll.modify (· ++ [data]) k))
    (served : Served (linkedlistAppend kalloc ll data k).2.alloc.blocks) :
    (linkedlistAppend kalloc ll data k).1 = true ∧
      Acts P f k (linkedlistAppend kalloc ll data k).2 := by
  rw [linkedlistAppend_served quiet mode some served]
  have called := Acts.call quiet mode sizeofLinkedlistNode
  exact ⟨rfl, called.trans (edit _ called.mode (by rw [same]; exact some))⟩

/-- The entries of pages from a position on, with the additions of the machine. -/
def Space.wrapEntries (start r first : Nat) (pages : List Nat) : List VmemMap :=
  pages.mapIdx fun i page =>
    { virtualAddr := wrap (start + 4096 * (first + i)), physicalAddr := page, region := r }

theorem Space.wrapEntries_cons (start r first page : Nat) (pages : List Nat) :
    Space.wrapEntries start r first (page :: pages) =
      { virtualAddr := wrap (start + 4096 * first), physicalAddr := page, region := r } ::
        Space.wrapEntries start r (first + 1) pages := by
  unfold Space.wrapEntries
  rw [List.mapIdx_cons]
  simp only [Nat.add_zero]
  refine congrArg (List.cons _) (congrArg (fun f => List.mapIdx f pages) ?_)
  funext i page
  rw [Nat.add_assoc, Nat.add_comm 1 i]

theorem Space.wrapEntries_eq {start r : Nat} {pages : List Nat} (range : start + pages.length * 4096 ≤ 2 ^ 64) :
    Space.wrapEntries start r 0 pages = Space.entries start r pages := by
  unfold Space.wrapEntries Space.entries
  refine List.mapIdx_eq_mapIdx_iff.mpr fun i bound => ?_
  rw [Nat.zero_add, wrap_of_lt (by omega)]

/-- Put a page at the end of a region, with the additions of the machine. -/
def Space.associateWrap (r page : Nat) (s : Space) : Space :=
  { s with
    pages := Function.update s.pages r (s.pages r ++ [page])
    allocated := Function.update s.allocated r (wrap (s.allocated r + 4096))
    map := fun v =>
      if v ∈ s.attached r then
        s.map v ++ [{ virtualAddr := wrap (s.start r + s.allocated r), physicalAddr := page, region := r }]
      else s.map v }

/-- `vmem_region_assoc_physical_address` puts the page at the end of the region. -/
theorem vmemRegionAssoc_wraps (quiet : Quiet P kalloc) (mode : P k.alloc) (ready : Ready k)
    (linked : k.space.Linked) (known : r < k.core.vmemRegions.count) {paddr : Nat}
    (served : Served (vmemRegionAssocPhysicalAddress kalloc r paddr k).2.alloc.blocks) :
    (vmemRegionAssocPhysicalAddress kalloc r paddr k).1 =
        wrap ((k.region r).start + (k.region r).allocatedSize) ∧
      Acts P (Space.associateWrap r paddr) k (vmemRegionAssocPhysicalAddress kalloc r paddr k).2 := by
  have begun := Acts.beginAssociate mode r paddr
  obtain ⟨stored, isStored⟩ : ∃ stored, stored =
    linkedlistAppend kalloc (pagesOf r) paddr (k.beginAssociate r paddr) := ⟨_, rfl⟩
  obtain ⟨notified, isNotified⟩ : ∃ notified, notified = notifyAttached kalloc r paddr
    (wrap ((k.region r).start + (k.region r).allocatedSize)) (stored.2.region r).attached.items
    stored.2 := ⟨_, rfl⟩
  have page : notifyPage kalloc r paddr k =
      (notified.1, notified.2.conclude { region := r, listed := stored.1, mapped := notified.1 }) := by
    rw [isNotified, isStored]
    rfl
  have served' : Served notified.2.alloc.blocks := by
    rw [vmemRegionAssocPhysicalAddress_snd, page] at served
    exact served
  have storedMode : P stored.2.alloc := by
    rw [isStored]
    exact (quiet.along (Path.append (pagesOf r) paddr (fun k => .appendPage r paddr k) _) begun.mode).1
  have storedServed : Served stored.2.alloc.blocks := by
    rw [isNotified] at served'
    exact quiet.served_before (notifyAttached_path _ _ _ _ _) storedMode served'
  have appended := linkedlistAppend_acts (pagesOf r) paddr quiet begun.mode
    (congrArg VmemRegion.pages (quiet.region begun.mode _ r)) ((begun.ready ready).regions r known).1
    (fun k mode some => Acts.appendPage mode paddr some) (by rw [← isStored]; exact storedServed)
  rw [← isStored] at appended
  have stores := begun.trans appended.2
  have attached : (stored.2.region r).attached.items = k.space.attached r :=
    congrFun (congrArg Space.attached stores.space) r
  have notifies := notifyAttached_acts (r := r) quiet paddr
    (wrap ((k.region r).start + (k.region r).allocatedSize)) (stored.2.region r).attached.items stored.2
    storedMode (stores.ready ready) ?_ (by rw [← isNotified]; exact served')
  · rw [← isNotified] at notifies
    rw [vmemRegionAssocPhysicalAddress_eq, page, if_pos notifies.1]
    refine ⟨rfl, ((stores.trans notifies.2).trans (Acts.conclude notifies.2.mode _)).congr ?_⟩
    rw [foldl_note _ _ _ (attached ▸ linked.attachedNodup r), attached]
    rfl
  · intro v member
    rw [attached] at member
    rw [stores.vmemCount rfl]
    exact (linked.known v r ((linked.symmetric v r).mpr member)).1

/-- The same without a wrap. -/
theorem vmemRegionAssoc_acts (quiet : Quiet P kalloc) (mode : P k.alloc) (ready : Ready k)
    (coherent : k.space.Coherent) (known : r < k.core.vmemRegions.count) {paddr : Nat}
    (range : (k.region r).start + (k.region r).allocatedSize < 2 ^ 64)
    (small : (k.region r).allocatedSize + 4096 < 2 ^ 64)
    (served : Served (vmemRegionAssocPhysicalAddress kalloc r paddr k).2.alloc.blocks) :
    (vmemRegionAssocPhysicalAddress kalloc r paddr k).1 =
        (k.region r).start + (k.region r).allocatedSize ∧
      Acts P (Space.associate r paddr) k (vmemRegionAssocPhysicalAddress kalloc r paddr k).2 := by
  obtain ⟨result, acts⟩ := vmemRegionAssoc_wraps quiet mode ready coherent.linked known served
  refine ⟨result.trans (wrap_of_lt range), acts.congr ?_⟩
  unfold Space.associateWrap Space.associate
  rw [show wrap (k.space.start r + k.space.allocated r) = k.space.start r + k.space.allocated r from
      wrap_of_lt range,
    show wrap (k.space.allocated r + 4096) = k.space.allocated r + 4096 from wrap_of_lt small]

end BubackOS
