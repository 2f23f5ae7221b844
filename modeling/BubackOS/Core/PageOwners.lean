import BubackOS.Core.PageGrants
import BubackOS.Core.Settled

/-!
# Physical pages have one owner

A page in the list of a region, or in a map on its behalf, was granted to the region, and no page is
granted twice.  `kalloc` grants pages to the kernel-data region in the middle of other services: a page
on its way to a list is overtaken by them, so the lists are compared with the grants by counting.
-/

namespace BubackOS

open Library

variable {kalloc : Kalloc} {k k' k'' k₀ : Kernel} {v r page : Nat} {pmem : Pmem}

/-- The page is in the list of the region, or in a map on behalf of the region. -/
def Kernel.Holds (k : Kernel) (r page : Nat) : Prop :=
  page ∈ (k.region r).pages.items ∨
    ∃ v, ∃ entry ∈ (k.vmem v).map.items, entry.region = r ∧ entry.physicalAddr = page

/-- No page has two owners. -/
structure Exclusive (k : Kernel) : Prop where
  nodup : ∀ r, (k.region r).pages.items.Nodup
  single : ∀ r s page, k.Holds r page → k.Holds s page → r = s

/-- No list has a page more often than the region got it, and the maps have pages their regions got. -/
structure Granted (k : Kernel) : Prop where
  pages : ∀ r page, (k.region r).pages.items.count page ≤ (k.handed r).count page
  maps : ∀ v, ∀ entry ∈ (k.vmem v).map.items, entry.physicalAddr ∈ k.handed entry.region

theorem Granted.listed (granted : Granted k) (listed : page ∈ (k.region r).pages.items) : page ∈ k.handed r :=
  List.count_pos_iff.mp (Nat.lt_of_lt_of_le (List.count_pos_iff.mpr listed) (granted.pages r page))

theorem Granted.held (granted : Granted k) (holds : k.Holds r page) : page ∈ k.handed r := by
  rcases holds with listed | ⟨v, entry, member, rfl, rfl⟩
  · exact granted.listed listed
  · exact granted.maps v entry member

/-- Every page is granted once. -/
theorem Granted.exclusive (granted : Granted k) (grants : Grants ∅ k₀ k) (none : ∀ r, k₀.handed r = []) :
    Exclusive k := by
  have acquires : ∀ r, Acquires r (k.handed r).reverse k₀ k := fun r =>
    grants.acquires (by rw [none, List.append_nil, List.reverse_reverse])
  refine ⟨fun r => List.nodup_iff_count_le_one.mpr fun page => ?_, fun r s page holds other => ?_⟩
  · exact (granted.pages r page).trans
      (List.nodup_iff_count_le_one.mp (List.nodup_reverse.mp (acquires r).nodup) page)
  · by_contra different
    refine (acquires s).apart r different _ ?_ page (List.mem_reverse.mpr (granted.held other)) (granted.held holds)
    rw [none, List.append_nil]

/-! ## Steps -/

/-- A step that lists no page more often than it grants it, and maps only what was granted. -/
structure Keeps (k k' : Kernel) : Prop where
  grants : Grants ∅ k k'
  pages : ∀ r page, (k'.region r).pages.items.count page + (k.handed r).count page ≤
    (k.region r).pages.items.count page + (k'.handed r).count page
  maps : Granted k → ∀ v, ∀ entry ∈ (k'.vmem v).map.items, entry.physicalAddr ∈ k'.handed entry.region

theorem Keeps.granted (keeps : Keeps k k') (granted : Granted k) : Granted k' := by
  refine ⟨fun r page => ?_, keeps.maps granted⟩
  have before := granted.pages r page
  have step := keeps.pages r page
  omega

theorem Keeps.handed (keeps : Keeps k k') (got : page ∈ k.handed r) : page ∈ k'.handed r := by
  obtain ⟨more, -, -, handed⟩ := keeps.grants.handed
  rw [handed]
  exact List.mem_append_right _ got

theorem Keeps.trans (first : Keeps k k') (second : Keeps k' k'') : Keeps k k'' := by
  refine ⟨first.grants.trans second.grants, fun r page => ?_, fun granted => second.maps (first.granted granted)⟩
  have before := first.pages r page
  have after := second.pages r page
  omega

/-- Nothing is added: lists and maps get shorter at most, and no page is taken. -/
theorem Keeps.of_sublist (pmem : k'.core.pmem = k.core.pmem) (trace : k'.core.trace = k.core.trace)
    (pages : ∀ r, (k'.region r).pages.items.Sublist (k.region r).pages.items)
    (maps : ∀ v, (k'.vmem v).map.items ⊆ (k.vmem v).map.items) : Keeps k k' := by
  have handed : ∀ r, k'.handed r = k.handed r := fun r => by rw [Kernel.handed, trace, Kernel.handed]
  refine ⟨.of_pmem pmem trace, fun r page => ?_, fun granted v entry member => ?_⟩
  · rw [handed]
    exact Nat.add_le_add_right ((pages r).count_le page) _
  · rw [handed]
    exact granted.maps v entry (maps v member)

/-- A change outside the regions, the address spaces and the page services. -/
theorem Keeps.of_records (pmem : k'.core.pmem = k.core.pmem) (trace : k'.core.trace = k.core.trace)
    (regions : k'.core.vmemRegions = k.core.vmemRegions) (vmems : k'.core.vmems = k.core.vmems) : Keeps k k' := by
  refine of_sublist pmem trace (fun r => ?_) fun v => ?_
  · rw [Kernel.region, regions, Kernel.region]
  · rw [Kernel.vmem, vmems, Kernel.vmem]
    exact List.Subset.refl _

theorem Keeps.of_core (core : k'.core = k.core) : Keeps k k' :=
  of_records (by rw [core]) (by rw [core]) (by rw [core]) (by rw [core])

theorem Keeps.refl (k : Kernel) : Keeps k k := of_core rfl

theorem Keeps.modifyRegion {change : VmemRegion → VmemRegion}
    (pages : (change (k.region r)).pages.items.Sublist (k.region r).pages.items) :
    Keeps k (k.modifyRegion r change) := by
  refine of_sublist rfl rfl (fun s => ?_) fun v => List.Subset.refl _
  by_cases same : s = r
  · subst same
    rw [Kernel.region_modifyRegion_self]
    exact pages
  · rw [Kernel.region_modifyRegion_of_ne same]

theorem Keeps.modifyVmem {change : Vmem → Vmem}
    (map : (change (k.vmem v)).map.items ⊆ (k.vmem v).map.items) : Keeps k (k.modifyVmem v change) := by
  refine of_sublist rfl rfl (fun s => List.Sublist.refl _) fun w => ?_
  by_cases same : w = v
  · subst same
    rw [Kernel.vmem_modifyVmem_self]
    exact map
  · rw [Kernel.vmem_modifyVmem_of_ne same]
    exact List.Subset.refl _

theorem Keeps.exhaust (failed : (pmemAllocate k).1 = 0) : Keeps k (pmemAllocate k).2 := by
  refine ⟨.exhaust failed, fun r page => ?_, fun granted v entry member => ?_⟩
  · rw [region_pmemAllocate, handed_pmemAllocate]
  · rw [vmem_pmemAllocate] at member
    rw [handed_pmemAllocate]
    exact granted.maps v entry member

/-- A page is taken for a region, which gets larger; its list does not have the page yet. -/
theorem Keeps.begin (found : (pmemAllocate k).1 ≠ 0) (r : Nat) :
    Keeps k ((pmemAllocate k).2.beginAssociate r (pmemAllocate k).1) := by
  have grants := Grants.grow (A := ∅) r found
  obtain ⟨more, -, -, handed⟩ := grants.handed
  refine ⟨grants, fun s page => ?_, fun granted v entry member => ?_⟩
  · have pages : (((pmemAllocate k).2.beginAssociate r (pmemAllocate k).1).region s).pages = (k.region s).pages := by
      by_cases same : s = r
      · rw [same, region_beginAssociate_self, region_pmemAllocate]
      · rw [region_beginAssociate_of_ne _ _ same, region_pmemAllocate]
    rw [pages, handed, List.count_append]
    omega
  · have old : entry ∈ ((pmemAllocate k).2.vmem v).map.items := member
    rw [vmem_pmemAllocate] at old
    rw [handed]
    exact List.mem_append_right _ (granted.maps v entry old)

theorem items_map_append {α : Type} (list : LinkedList α) (data : α) :
    (LinkedList.items (list.map (· ++ [data]))).Sublist (list.items ++ [data]) := by
  cases list with
  | none => exact List.nil_sublist _
  | some items => exact List.Sublist.refl _

/-- An entry for a page the region got. -/
theorem Keeps.appendMap (keeps : Keeps k k') {entry : VmemMap}
    (got : Granted k → entry.physicalAddr ∈ k.handed entry.region)
    (v : Nat) : Keeps k ((mapOf v).modify (· ++ [entry]) k') := by
  refine ⟨keeps.grants.trans (.of_pmem rfl rfl), keeps.pages, fun granted w found member => ?_⟩
  have member' : found ∈
      ((k'.modifyVmem v fun vmem => { vmem with map := vmem.map.map (· ++ [entry]) }).vmem w).map.items :=
    member
  by_cases same : w = v
  · subst same
    rw [Kernel.vmem_modifyVmem_self] at member'
    rcases List.mem_append.mp ((items_map_append _ _).subset member') with before | new
    · exact keeps.maps granted w found before
    · rw [List.mem_singleton.mp new]
      exact keeps.handed (got granted)
  · rw [Kernel.vmem_modifyVmem_of_ne same] at member'
    exact keeps.maps granted w found member'

/-! ## Growing -/

section Calls

variable (calls : ∀ size k, Keeps k (kalloc size k).2)

include calls

theorem TablePath.keeps (path : TablePath kalloc k k') : Keeps k k' := by
  induction path with
  | refl => exact Keeps.refl k
  | tail _ step ih =>
      refine ih.trans ?_
      cases step with
      | call size => exact calls size _
      | write => exact Keeps.of_core rfl
      | native v change => exact .modifyVmem (List.Subset.refl _)

theorem vmemNotifyChange_keeps (got : Granted k → page ∈ k.handed r) (v vaddr : Nat) :
    Keeps k (vmemNotifyChange kalloc v r page vaddr k).2 := by
  unfold vmemNotifyChange
  dsimp only
  have called := calls sizeofVmemMap k
  generalize kalloc sizeofVmemMap k = map at called ⊢
  split
  · exact called
  · have listed : Keeps k (linkedlistAppend kalloc (mapOf v)
        { virtualAddr := vaddr, physicalAddr := page, region := r } map.2).2 := by
      have node := called.trans (calls sizeofLinkedlistNode map.2)
      exact linkedlistAppend_snd called node (node.appendMap got v)
    split
    · exact listed.trans (TablePath.keeps calls (nativeVmemSet_tablePath v _ _))
    · exact listed

theorem notifyAttached_keeps (vaddr : Nat) (vs : List Nat) :
    ∀ k : Kernel, page ∈ k.handed r → Keeps k (notifyAttached kalloc r page vaddr vs k).2 := by
  induction vs with
  | nil => exact fun k _ => Keeps.refl k
  | cons v rest ih =>
      intro k got
      have notified := vmemNotifyChange_keeps calls (fun _ => got) v vaddr
      unfold notifyAttached
      dsimp only
      split
      · exact notified.trans (ih _ (notified.handed got))
      · exact notified

/-- The list gets the page it was granted before, whatever was granted and listed meanwhile. -/
theorem storePage_keeps (found : (pmemAllocate k).1 ≠ 0) (r : Nat) {stored : Bool × Kernel}
    (isStored : stored = linkedlistAppend kalloc (pagesOf r) (pmemAllocate k).1
      ((pmemAllocate k).2.beginAssociate r (pmemAllocate k).1)) :
    Keeps k stored.2 ∧ (pmemAllocate k).1 ∈ stored.2.handed r := by
  have begun := Keeps.begin found r
  have handed : ((pmemAllocate k).2.beginAssociate r (pmemAllocate k).1).handed r =
      (pmemAllocate k).1 :: k.handed r := by
    rw [handed_beginAssociate_self, handed_pmemAllocate]
  have listed : (((pmemAllocate k).2.beginAssociate r (pmemAllocate k).1).region r).pages = (k.region r).pages := by
    rw [region_beginAssociate_self, region_pmemAllocate]
  generalize (pmemAllocate k).2.beginAssociate r (pmemAllocate k).1 = middle at begun handed listed isStored
  generalize (pmemAllocate k).1 = page at handed isStored ⊢
  have got : page ∈ middle.handed r := by
    rw [handed]
    exact List.mem_cons_self
  have called := calls sizeofLinkedlistNode middle
  have node := begun.trans called
  rw [isStored]
  refine linkedlistAppend_snd (P := fun k' => Keeps k k' ∧ page ∈ k'.handed r) ⟨begun, got⟩ ⟨node, called.handed got⟩
    ⟨⟨node.grants.trans (.of_pmem rfl rfl), fun s other => ?_, node.maps⟩, called.handed got⟩
  by_cases same : s = r
  · subst same
    have grown := (items_map_append ((kalloc sizeofLinkedlistNode middle).2.region s).pages page).count_le other
    have before := called.pages s other
    rw [List.count_append, List.count_singleton] at grown
    rw [handed, List.count_cons, listed] at before
    rw [pagesOf, Kernel.region_modifyRegion_self]
    refine Nat.le_trans (Nat.add_le_add_right grown _) ?_
    rw [Nat.add_assoc, Nat.add_comm (ite _ _ _)]
    exact before
  · rw [pagesOf, Kernel.region_modifyRegion_of_ne same]
    exact node.pages s other

/-- A page is taken from the allocator and given to a region. -/
theorem grow_keeps (found : (pmemAllocate k).1 ≠ 0) (r : Nat) :
    Keeps k (vmemRegionAssocPhysicalAddress kalloc r (pmemAllocate k).1 (pmemAllocate k).2).2 := by
  obtain ⟨stored, got⟩ := storePage_keeps calls found r rfl
  rw [vmemRegionAssocPhysicalAddress_snd]
  exact (stored.trans (notifyAttached_keeps calls _ _ _ got)).trans (.of_records rfl rfl rfl rfl)

theorem vmemRegionResize_keeps (region : Option Nat) (newSize : Nat) (k : Kernel) :
    Keeps k (vmemRegionResize kalloc region newSize k).2 := by
  cases region with
  | none => exact Keeps.refl k
  | some r =>
      exact Resizing.resize ⟨Keeps.refl, Keeps.trans, Keeps.exhaust, fun found => grow_keeps calls found r,
        fun _ _ => .modifyRegion (List.Sublist.refl _)⟩ newSize k

/-! ## Attaching -/

/-- The replay announces pages of the list. -/
theorem attachPages_keeps (v r fuel : Nat) :
    ∀ node vaddr k, Keeps k (attachPages kalloc v r fuel node vaddr k).2 := by
  induction fuel with
  | zero =>
      intro node vaddr k
      cases node with
      | none => exact Keeps.refl k
      | some node => exact .of_records rfl rfl rfl rfl
  | succ fuel ih =>
      intro node vaddr k
      cases node with
      | none => exact Keeps.refl k
      | some node =>
          unfold attachPages
          dsimp only
          split
          · exact Keeps.refl k
          · rename_i nonzero
            have listed : (k.region r).pages.items.getD node 0 ∈ (k.region r).pages.items := by
              rw [List.getD_eq_getElem?_getD] at nonzero ⊢
              cases found : (k.region r).pages.items[node]? with
              | none =>
                  rw [found] at nonzero
                  exact absurd rfl nonzero
              | some page => exact List.mem_of_getElem? found
            have notified := vmemNotifyChange_keeps calls (fun granted => granted.listed listed) v vaddr
            split
            · exact notified.trans (ih _ _ _)
            · exact notified

theorem replayPages_keeps (v r : Nat) (k : Kernel) : Keeps k (replayPages kalloc v r k).2 :=
  attachPages_keeps calls v r _ _ _ k

theorem RecordStep.keeps (step : RecordStep kalloc 0 0 k k') : Keeps k k' := by
  cases step with
  | table step => exact TablePath.keeps calls (.single step.table)
  | appendRegion v r => exact .modifyVmem (List.Subset.refl _)
  | appendAttached r v => exact .modifyRegion (List.Sublist.refl _)
  | detach v r =>
      exact Keeps.trans (.modifyVmem (List.Subset.refl _)) (.modifyRegion (List.Sublist.refl _))
  | nextStart v => exact .modifyVmem (List.Subset.refl _)
  | newVmem =>
      refine .of_sublist rfl rfl (fun _ => List.Sublist.refl _) fun w => ?_
      by_cases new : w = k.core.vmems.count
      · subst new
        rw [Kernel.newVmem, Kernel.vmem, Store.new_get_self]
        exact List.nil_subset _
      · rw [Kernel.newVmem, Kernel.vmem, Store.new_get_of_ne new]
        exact List.Subset.refl _
  | newRegion =>
      refine .of_sublist rfl rfl (fun s => ?_) fun _ => List.Subset.refl _
      by_cases new : s = k.core.vmemRegions.count
      · subst new
        rw [Kernel.newRegion, Kernel.region, Store.new_get_self]
        exact List.nil_sublist _
      · rw [Kernel.newRegion, Kernel.region, Store.new_get_of_ne new]
        exact List.Sublist.refl _
  | setRegions => exact .modifyVmem (List.Subset.refl _)
  | setMap _ empty =>
      refine .modifyVmem ?_
      dsimp only
      rw [empty]
      exact List.nil_subset _
  | setPages _ empty =>
      refine .modifyRegion ?_
      dsimp only
      rw [empty]
      exact List.nil_sublist _
  | setAttached => exact .modifyRegion (List.Sublist.refl _)
  | setVmemId => exact .modifyVmem (List.Subset.refl _)
  | setRegionId => exact .modifyRegion (List.Sublist.refl _)
  | vmemIds => exact .of_records rfl rfl rfl rfl
  | regionIds => exact .of_records rfl rfl rfl rfl

/-- The services keep the owners because their parts do. -/
theorem keeps_composed : Composed kalloc 0 0 Set.univ Keeps where
  refl := Keeps.refl
  trans := Keeps.trans
  record := RecordStep.keeps calls
  replay := replayPages_keeps calls
  resize := fun _ newSize k => vmemRegionResize_keeps calls _ newSize k

theorem vmemCreate_keeps (k : Kernel) : Keeps k (vmemCreate kalloc k).2 :=
  (keeps_composed calls).create k (Nat.zero_le _) fun _ => TablePath.keeps calls (nativeVmemCreate_tablePath _ _)

end Calls

theorem keeps_closed : CallClosed Keeps where
  toHeapClosed := .of_core Keeps.trans Keeps.of_core
  resize := fun _ calls k r _ newSize => vmemRegionResize_keeps calls (some r) newSize k

/-! ## Runs -/

/-- The call takes its pages from the page allocator. -/
def VmemOp.Allocates : VmemOp → Prop
  | mapPhysical _ _ _ => False
  | _ => True

/-- The states a run of valid calls reaches, none of which maps given physical pages. -/
inductive AllocatingRun (kalloc : Kalloc) (k₀ : Kernel) : Kernel → Prop where
  | start : AllocatingRun kalloc k₀ (vmemStart kalloc k₀)
  | step {k : Kernel} {op : VmemOp} (run : AllocatingRun kalloc k₀ k) (valid : op.Valid k) (words : op.Words k)
      (allocates : op.Allocates) : AllocatingRun kalloc k₀ (op.run kalloc k)

theorem AllocatingRun.word (run : AllocatingRun kalloc k₀ k) : WordRun kalloc k₀ k := by
  induction run with
  | start => exact .start
  | step _ valid words _ ih => exact ih.step valid words

theorem VmemOp.keeps {op : VmemOp} (calls : ∀ size k, Keeps k (kalloc size k).2) (allocates : op.Allocates)
    (k : Kernel) : Keeps k (op.run kalloc k) := by
  cases op with
  | create => exact vmemCreate_keeps calls k
  | createRegion =>
      exact (keeps_composed calls).createRegion _ _ _ _ _ _ _ k fun _ _ => ⟨Nat.zero_le _, Set.mem_univ _⟩
  | resize region newSize => exact vmemRegionResize_keeps calls region newSize k
  | mapPhysical => exact absurd allocates id
  | attach vmem region => exact (keeps_composed calls).attach vmem region k

theorem vmemStart_keeps (calls : ∀ size k, Keeps k (kalloc size k).2) (k : Kernel) :
    Keeps k (vmemStart kalloc k) := by
  have record : ∀ {k k'}, RecordStep kalloc 0 0 k k' → Keeps k k' := (keeps_composed calls).record
  exact vmemStart_steps Keeps Keeps.trans
    (fun k => (keeps_composed calls).records (linkedlistCreate_mapPath (α := Nat × Nat) k).record)
    (fun change k => record (.vmemIds change k)) (fun change k => record (.regionIds change k))
    (vmemCreate_keeps calls) (fun _ _ => .of_records rfl rfl rfl rfl) k

theorem AllocatingRun.keeps (run : AllocatingRun BubackOS.kalloc k₀ k) : Keeps k₀ k := by
  have calls := keeps_closed.kalloc
  induction run with
  | start => exact vmemStart_keeps calls k₀
  | step _ _ _ allocates ih => exact ih.trans (VmemOp.keeps calls allocates _)

/-- Every page has one owner in every state of a run, whatever fails and however often `kalloc`
grows the kernel-data region on the way. -/
theorem AllocatingRun.exclusive (blank : k₀.core = Core.blank pmem)
    (run : AllocatingRun BubackOS.kalloc k₀ k) : Exclusive k := by
  have none : ∀ r, k₀.handed r = [] := fun r => by rw [Kernel.handed, blank]; rfl
  have granted : Granted k₀ := by
    refine ⟨fun r page => ?_, fun v entry member => ?_⟩
    · rw [blank_region blank]
      exact Nat.zero_le _
    · rw [blank_vmem blank] at member
      exact absurd member List.not_mem_nil
  exact (run.keeps.granted granted).exclusive run.keeps.grants none

/-- In every state of a run of the services that take their pages from the allocator, no physical
page is twice in the list of a region or in the lists of two regions, and two maps name the same
page only on behalf of one region; as long as `kalloc` serves from the memory before its
initialisation, this region has the page and is attached to both address spaces. -/
theorem pages_exclusively_owned (blank : k₀.core = Core.blank pmem)
    (run : AllocatingRun BubackOS.kalloc k₀ k) :
    (∀ r, (k.region r).pages.items.Nodup) ∧
    (∀ r s page, page ∈ (k.region r).pages.items → page ∈ (k.region s).pages.items → r = s) ∧
    ∀ v w, ∀ entry ∈ (k.vmem v).map.items, ∀ other ∈ (k.vmem w).map.items,
      entry.physicalAddr = other.physicalAddr → entry.region = other.region ∧
        (Early k₀.alloc → Served k.alloc.blocks →
          entry.physicalAddr ∈ (k.region entry.region).pages.items ∧
            v ∈ (k.region entry.region).attached.items ∧ w ∈ (k.region entry.region).attached.items) := by
  have exclusive := run.exclusive blank
  refine ⟨exclusive.nodup, fun r s page listed listed' => exclusive.single r s page (Or.inl listed) (Or.inl listed'),
    fun v w entry member other member' same => ?_⟩
  have region : entry.region = other.region := exclusive.single _ _ entry.physicalAddr
    (Or.inr ⟨v, entry, member, rfl, rfl⟩) (Or.inr ⟨w, other, member', rfl, same.symm⟩)
  refine ⟨region, fun early served => ?_⟩
  have settled := (run.word.settled kalloc_quiet early blank).2 served
  refine ⟨settled.listed v entry member, settled.attached member, ?_⟩
  rw [region]
  exact settled.attached member'

theorem sampleVmems_allocating : AllocatingRun BubackOS.kalloc sampleKernel sampleVmems := by
  refine .step (.step (.step .start ?_ ?_ trivial) trivial trivial trivial) ?_ trivial trivial
  · rintro v ⟨⟩
    decide +kernel
  · rintro v ⟨⟩
    decide
  · exact ⟨by rintro v ⟨⟩; decide +kernel, by rintro r ⟨⟩; decide +kernel⟩

theorem pages_exclusively_owned_sampleVmems : (sampleVmems.region 0).pages.items.length = 2 ∧
    (sampleVmems.region 0).pages.items.Nodup := by
  have blank : sampleKernel.core = Core.blank sampleKernel.core.pmem := rfl
  exact ⟨by decide +kernel, (pages_exclusively_owned blank sampleVmems_allocating).1 0⟩

end BubackOS
