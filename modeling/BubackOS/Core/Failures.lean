import BubackOS.Core.LinkRuns
import BubackOS.Core.RegionGrowth

/-!
# When requests fail

What the vmem services leave behind when `kalloc` returns `NULL`, whichever of their
requests it is.  `vmem_attach` takes back all it has done; `vmem_region_create` takes
back nothing once the region is attached, and `vmem_region_resize` does not even
notice.
-/

namespace BubackOS

open Library

variable {kalloc : Kalloc} {fails : Nat → Kernel → Bool} {k k' k'' : Kernel} {v r : Nat}

/-! ## Attaching -/

/-- In every state in which attachment is symmetric, whichever requests are refused: a `vmem_attach` that
returns `false` leaves the regions of all address spaces and the address spaces of all regions as they
were, and one for a region that is attached already changes nothing at all. -/
theorem failed_attach_restores_links (fails : Nat → Kernel → Bool)
    (symmetric : ∀ v r, r ∈ (k.vmem v).regions.items ↔ v ∈ (k.region r).attached.items) (v r : Nat) :
    ((vmemAttach (refuseWhen fails BubackOS.kalloc) (some v) (some r) k).1 = false →
      (∀ w, ((vmemAttach (refuseWhen fails BubackOS.kalloc) (some v) (some r) k).2.vmem w).regions.items =
        (k.vmem w).regions.items) ∧
      ∀ s, ((vmemAttach (refuseWhen fails BubackOS.kalloc) (some v) (some r) k).2.region s).attached.items =
        (k.region s).attached.items) ∧
    (r ∈ (k.vmem v).regions.items →
      vmemAttach (refuseWhen fails BubackOS.kalloc) (some v) (some r) k = (true, k)) := by
  refine ⟨fun failed => ?_, fun already => if_pos (linkedlistFind_eq.mpr already)⟩
  obtain ⟨-, ⟨done, -⟩ | ⟨-, same⟩⟩ := vmemAttach_relinks (refuseWhen_tame fails) (k := k) trivial symmetric v r
  · rw [failed] at done
    cases done
  · exact ⟨congrFun same.links.regions, congrFun same.links.attached⟩

/-- `sampleVmems` with a region of the second address space only. -/
def sampleAside : Kernel :=
  VmemOp.run BubackOS.kalloc sampleVmems (.createRegion (some 1) (some "aside") 0x300000 4096 false true false)

theorem sampleAside_reached : Reached BubackOS.kalloc sampleKernel sampleAside := by
  refine .step sampleVmems_reached ?_
  rintro v ⟨⟩
  exact ⟨by decide +kernel, ⟨by decide, by decide⟩⟩

/-- The region cannot be attached to the kernel address space without memory for a map entry. -/
theorem failed_attach_restores_links_sampleAside :
    (vmemAttach (refuseWhen (fun size _ => size = sizeofVmemMap) BubackOS.kalloc) (some 0) (some 1) sampleAside).1 =
      false ∧
    ((vmemAttach (refuseWhen (fun size _ => size = sizeofVmemMap) BubackOS.kalloc) (some 0) (some 1)
      sampleAside).2.vmem 0).regions.items = (sampleAside.vmem 0).regions.items := by
  have early : Early sampleKernel.alloc := rfl
  have blank : sampleKernel.core = Core.blank sampleKernel.core.pmem := rfl
  have served : Served sampleAside.alloc.blocks := by decide +kernel
  have orderly := (sampleAside_reached.refines kalloc_quiet early blank served).orderly (blank_orderly blank)
  have failed : (vmemAttach (refuseWhen (fun size _ => size = sizeofVmemMap) BubackOS.kalloc) (some 0) (some 1)
      sampleAside).1 = false := by decide +kernel
  exact ⟨failed, ((failed_attach_restores_links _ orderly.coherent.symmetric 0 1).1 failed).1 0⟩

/-! ## Creating -/

/-- A call granted pages it took, or changed no map. -/
structure Charges (k k' : Kernel) : Prop where
  grants : Grants ∅ k k'
  maps : k'.grants = k.grants → ∀ v, (k'.vmem v).map = (k.vmem v).map

namespace Charges

theorem trans (first : Charges k k') (second : Charges k' k'') : Charges k k'' := by
  refine ⟨first.grants.trans second.grants, fun same v => ?_⟩
  obtain ⟨before, isBefore, -⟩ := first.grants.granted
  obtain ⟨after, isAfter, -⟩ := second.grants.granted
  rw [isAfter, isBefore, ← List.append_assoc, List.append_left_eq_self, List.append_eq_nil_iff] at same
  rw [same.1, List.nil_append] at isAfter
  rw [same.2, List.nil_append] at isBefore
  exact (second.maps isAfter v).trans (first.maps isBefore v)

/-- A change outside the page allocator, the history and the maps. -/
theorem still (pmem : k'.core.pmem = k.core.pmem) (trace : k'.core.trace = k.core.trace)
    (maps : ∀ v, (k'.vmem v).map = (k.vmem v).map) : Charges k k' :=
  ⟨.of_pmem pmem trace, fun _ => maps⟩

theorem of_core (core : k'.core = k.core) : Charges k k' :=
  still (by rw [core]) (by rw [core]) fun v => by rw [Kernel.vmem, core, Kernel.vmem]

/-- A region that got something got a page that was free. -/
theorem paid (charges : Charges k k') {s : Nat} (more : k'.handed s ≠ k.handed s) : ∃ page, Took page k k' := by
  obtain ⟨grants, -, -, handed⟩ := charges.grants.handed
  obtain ⟨page, member⟩ := List.exists_mem_of_ne_nil (grants.filterMap (grantFor s)) fun empty =>
    more (by rw [handed, empty, List.nil_append])
  exact ⟨page, charges.grants.took (Set.notMem_empty s) (handed s) page member⟩

/-- Without a page the maps and the free pages are as before. -/
theorem untouched (charges : Charges k k') (same : ∀ s, k'.handed s = k.handed s) :
    (∀ v, (k'.vmem v).map = (k.vmem v).map) ∧ ∀ i, k.core.pmem.pages i = .free → k'.core.pmem.pages i = .free := by
  refine ⟨charges.maps ?_, fun i free => ?_⟩
  · obtain ⟨more, isMore, -⟩ := charges.grants.granted
    cases more with
    | nil => exact isMore
    | cons grant rest =>
        have longer := congrArg List.length (same grant.1)
        rw [handed_eq_grants, isMore, List.cons_append, List.filterMap_cons_some (grantFor_eq_some.mpr rfl),
          List.filterMap_append, ← handed_eq_grants, List.length_cons, List.length_append] at longer
        omega
  · by_contra now
    obtain ⟨s, more, handed, member⟩ := charges.grants.taken ⟨i, rfl, free, now⟩
    rw [same, List.self_eq_append_left] at handed
    rw [handed] at member
    exact List.not_mem_nil member

theorem detach (v r : Nat) (k : Kernel) : Charges k (detach v r k) := by
  refine still rfl rfl fun w => ?_
  by_cases here : w = v <;>
    simp [BubackOS.detach, linkedlistRemoveElement, attachedOf, regionsOf, Kernel.vmem_modifyVmem, here]

section Calls

variable (calls : ∀ size k, Charges k (kalloc size k).2)

include calls

theorem linkedlistCreate {α : Type} (k : Kernel) : Charges k (linkedlistCreate (α := α) kalloc k).2 := by
  unfold BubackOS.linkedlistCreate
  dsimp only
  split <;> exact calls _ k

theorem linkedlistAppend {α : Type} {ll : ListField α} {data : α}
    (change : ∀ k : Kernel, Charges k (ll.modify (· ++ [data]) k)) (k : Kernel) :
    Charges k (linkedlistAppend kalloc ll data k).2 :=
  linkedlistAppend_snd (of_core rfl) (calls _ k) ((calls _ k).trans (change _))

/-- A page for a region: it was free, and whatever follows does not give it back. -/
theorem associate (found : (pmemAllocate k).1 ≠ 0) (r : Nat) :
    Charges k (vmemRegionAssocPhysicalAddress kalloc r (pmemAllocate k).1 (pmemAllocate k).2).2 := by
  have grown := Grants.grow (A := ∅) r found
  have rest := Grants.associate_rest (fun size k => (calls size k).grants) r (pmemAllocate k).1
    (pmemAllocate k).2
  refine ⟨grown.trans rest, fun same => ?_⟩
  obtain ⟨more, isMore, -⟩ := rest.granted
  have longer := congrArg List.length (isMore.symm.trans same)
  have one : ((pmemAllocate k).2.beginAssociate r (pmemAllocate k).1).grants =
      (r, (pmemAllocate k).1) :: k.grants := congrArg _ (Grants.pmemAllocate_grants k)
  rw [one, List.length_append, List.length_cons] at longer
  omega

theorem resizing (r : Nat) : Resizing kalloc r Charges where
  refl := fun _ => of_core rfl
  trans := trans
  exhaust := fun failed => ⟨.exhaust failed, fun _ v => by rw [vmem_pmemAllocate]⟩
  grow := fun found => associate calls found r
  declare := fun _ _ => still rfl rfl fun _ => rfl

end Calls

end Charges

theorem charges_closed : CallClosed Charges where
  toHeapClosed := .of_core Charges.trans Charges.of_core
  resize := fun _ calls k r _ newSize => (Charges.resizing calls r).resize newSize k

/-- A region without pages to which the allocator gives none. -/
structure Pageless (r : Nat) (k : Kernel) : Prop where
  other : k.core.kernelDataVmemRegion ≠ some r
  pages : (k.region r).pages.items = []

theorem Pageless.of_dataOnly (bare : Pageless r k) (data : DataOnly k k') : Pageless r k' :=
  ⟨data.data ▸ bare.other, by rw [data.region r bare.other]; exact bare.pages⟩

theorem Pageless.modifyRegion (bare : Pageless r k) {change : VmemRegion → VmemRegion}
    (pages : (change (k.region r)).pages.items = []) : Pageless r (k.modifyRegion r change) :=
  ⟨bare.other, by rw [Kernel.region_modifyRegion_self]; exact pages⟩

section Open

variable (calls : ∀ size k, Charges k (kalloc size k).2) (data : ∀ size k, DataOnly k (kalloc size k).2)

include data in
theorem linkedlistCreate_dataOnly {α : Type} (k : Kernel) : DataOnly k (linkedlistCreate (α := α) kalloc k).2 := by
  unfold linkedlistCreate
  dsimp only
  split <;> exact data _ k

include data in
theorem regionRecord_pageless (name : String) (start : Nat) (user writable executable : Bool)
    (other : k.core.kernelDataVmemRegion ≠ some k.core.vmemRegions.count) :
    Pageless k.core.vmemRegions.count (regionRecord kalloc name start user writable executable k) := by
  have lists := @linkedlistCreate_dataOnly kalloc data Nat
  have new : Pageless k.core.vmemRegions.count (k.newRegion { VmemRegion.zero with
      name := name, start := start, user := user, writable := writable, executable := executable }) := by
    refine ⟨other, ?_⟩
    have made := Store.new_get_self k.core.vmemRegions { VmemRegion.zero with
      name := name, start := start, user := user, writable := writable, executable := executable }
    exact congrArg (fun region : VmemRegion => region.pages.items) made
  have listed : ∀ {k : Kernel} {r : Nat}, Pageless r k →
      Pageless r ((linkedlistCreate (α := Nat) kalloc k).2.modifyRegion r
      fun region => { region with pages := (linkedlistCreate kalloc k).1 }) :=
    fun bare => (bare.of_dataOnly (lists _)).modifyRegion (linkedlistCreate_items kalloc _)
  have last := (listed new).of_dataOnly (lists _)
  exact last.modifyRegion last.pages

include calls in
theorem regionRecord_charges (name : String) (start : Nat) (user writable executable : Bool) (k : Kernel) :
    Charges k (regionRecord kalloc name start user writable executable k) := by
  have changed : ∀ (r : Nat) (change : VmemRegion → VmemRegion) (k : Kernel), Charges k (k.modifyRegion r change) :=
    fun r change k => .still rfl rfl fun _ => rfl
  have new : Charges k (k.newRegion { VmemRegion.zero with
      name := name, start := start, user := user, writable := writable, executable := executable }) :=
    .still rfl rfl fun _ => rfl
  exact ((new.trans (.linkedlistCreate calls _)).trans ((changed _ _ _).trans (.linkedlistCreate calls _))).trans
    (changed _ _ _)

include calls data

/-- Attaching a region without pages maps nothing. -/
theorem vmemAttach_charges (bare : Pageless r k) (v : Nat) : Charges k (vmemAttach kalloc (some v) (some r) k).2 := by
  obtain ⟨listed, isListed⟩ : ∃ listed, listed = linkedlistAppend kalloc (regionsOf v) r k := ⟨_, rfl⟩
  obtain ⟨linked, isLinked⟩ : ∃ linked, linked = linkedlistAppend kalloc (attachedOf r) v listed.2 := ⟨_, rfl⟩
  have first : Charges k listed.2 := by
    rw [isListed]
    refine Charges.linkedlistAppend calls (fun k => .still rfl rfl fun w => ?_) k
    by_cases here : w = v
    · subst here
      rw [regionsOf, Kernel.vmem_modifyVmem_self]
    · rw [regionsOf, Kernel.vmem_modifyVmem_of_ne here]
  have second : Charges listed.2 linked.2 := by
    rw [isLinked]
    exact Charges.linkedlistAppend calls (fun k => .still rfl rfl fun _ => rfl) _
  have bare' : Pageless r listed.2 := by
    have called := bare.of_dataOnly (data sizeofLinkedlistNode k)
    rw [isListed]
    exact linkedlistAppend_snd bare called ⟨called.other, called.pages⟩
  have bare'' : Pageless r linked.2 := by
    have called := bare'.of_dataOnly (data sizeofLinkedlistNode listed.2)
    rw [isLinked]
    exact linkedlistAppend_snd bare' called (called.modifyRegion called.pages)
  have nothing : replayPages kalloc v r linked.2 = (true, linked.2) := by
    rw [replayPages, bare''.pages, List.length_nil, if_neg (Nat.lt_irrefl 0)]
    unfold attachFuel attachPages
    rfl
  by_cases member : r ∈ (k.vmem v).regions.items
  · have already : vmemAttach kalloc (some v) (some r) k = (true, k) := if_pos (linkedlistFind_eq.mpr member)
    rw [already]
    exact .of_core rfl
  · rw [vmemAttach_of_new member isListed isLinked rfl, nothing, if_pos rfl]
    split
    · split
      · exact first.trans second
      · exact (first.trans second).trans (.detach v r _)
    · exact first.trans (.detach v r _)

theorem openRegion_charges (known : ∀ d ∈ k.core.kernelDataVmemRegion, d < k.core.vmemRegions.count) (v : Nat)
    (name : String) (start : Nat) (user writable executable : Bool) (frame : Frame k (kalloc sizeofVmemRegion k).2) :
    Charges k (openRegion kalloc v name start user writable executable k).2 := by
  have called := calls sizeofVmemRegion k
  have other : (kalloc sizeofVmemRegion k).2.core.kernelDataVmemRegion ≠
      some (kalloc sizeofVmemRegion k).2.core.vmemRegions.count := by
    rw [frame.kernelData, frame.vmemRegions]
    exact fun isData => Nat.lt_irrefl _ (known _ isData)
  have made := called.trans (regionRecord_charges calls name start user writable executable _)
  have attached := made.trans (vmemAttach_charges calls data
    (regionRecord_pageless data name start user writable executable other) v)
  rcases @openRegion_cases kalloc k v name start user writable executable _ rfl _ rfl with
    ⟨-, result⟩ | ⟨-, ⟨-, result⟩ | ⟨-, result⟩⟩
  · rw [result]
    exact called
  · rw [result]
    exact attached
  · rw [result]
    exact attached

end Open

/-- The address space lists the same regions and pages, and no page was taken. -/
structure Untouched (v : Nat) (k k' : Kernel) : Prop where
  regions : (k'.vmem v).regions.items = (k.vmem v).regions.items
  map : (k'.vmem v).map = (k.vmem v).map
  free : ∀ i, k.core.pmem.pages i = .free → k'.core.pmem.pages i = .free

theorem placeRegion_untouched (v w start : Nat) (k : Kernel) : Untouched w k (placeRegion v start k).2 := by
  unfold placeRegion
  split
  · by_cases here : w = v
    · subst here
      refine ⟨?_, ?_, fun _ free => free⟩
      all_goals
        rw [findNextMemoryAddress, Kernel.vmem_modifyVmem_self]
    · refine ⟨?_, ?_, fun _ free => free⟩
      all_goals
        rw [findNextMemoryAddress, Kernel.vmem_modifyVmem_of_ne here]
  · exact ⟨rfl, rfl, fun _ free => free⟩

/-- The new region is the last one in the list of its address space. -/
theorem attach_newRegion_regions {s : Space} (linked : s.Linked) (v start : Nat) :
    ((s.newRegion start).attach v s.regionCount).regions v = s.regions v ++ [s.regionCount] := by
  have new : s.regionCount ∉ (s.newRegion start).regions v := fun member =>
    Nat.lt_irrefl _ (linked.known v _ member).2
  rw [Space.attach, if_neg new]
  exact Function.update_self _ _ _

/-- The list of the address space after `vmem_region_create`: a region that was attached stays in it. -/
theorem vmemRegionCreate_listed {P : Allocator → Prop} (tame : Tame P kalloc) (mode : P k.alloc) (linked : k.space.Linked)
    {name : String} {start size : Nat} {user writable executable : Bool} {placed : Nat × Kernel}
    (isPlaced : placed = placeRegion v start k) {opened result : Option Nat × Kernel}
    (isOpened : opened = openRegion kalloc v name placed.1 user writable executable placed.2)
    (isResult : result = vmemRegionCreate kalloc (some v) (some name) start size user writable executable k) :
    memAlign placed.1 ≠ placed.1 ∧ result = (none, placed.2) ∨
    memAlign placed.1 = placed.1 ∧
      (opened.1 = none ∧ result = (none, opened.2) ∧
          (result.2.vmem v).regions.items = (k.vmem v).regions.items ∨
        opened.1 ≠ none ∧
          (result.2.vmem v).regions.items = (k.vmem v).regions.items ++ [k.core.vmemRegions.count]) := by
  have frame : Frame k placed.2 := isPlaced ▸ placeRegion_frame v start k
  have placedMode : P placed.2.alloc := by
    rw [isPlaced, placeRegion_alloc]
    exact mode
  have same : placed.2.space.regions v = k.space.regions v := congrArg LinkedList.items (frame.regions v)
  have placedLinked := frame.relinks.links.linked linked
  obtain ⟨openedMode, links⟩ := openRegion_relinks tame placedMode placedLinked v name placed.1 user writable executable
    isOpened
  rcases vmemRegionCreate_cases isPlaced isOpened with ⟨unaligned, ends⟩ | ⟨aligned, ⟨absent, ends⟩ | ⟨r, isR, ends⟩⟩
  · exact Or.inl ⟨unaligned, isResult.trans ends⟩
  · rw [isResult, ends]
    refine Or.inr ⟨aligned, Or.inl ⟨absent, rfl, ?_⟩⟩
    rcases links with ⟨-, kept⟩ | ⟨-, kept⟩ | ⟨isSome, -⟩
    · exact (congrFun kept.links.regions v).trans same
    · exact (congrFun kept.links.regions v).trans same
    · rw [absent] at isSome
      cases isSome
  · rcases links with ⟨absent, -⟩ | ⟨absent, -⟩ | ⟨-, attached⟩
    · rw [isR] at absent
      cases absent
    · rw [isR] at absent
      cases absent
    · obtain ⟨-, rest, -⟩ := finishRegion_frame tame openedMode r size (isResult.trans ends)
      have listed := (congrFun attached.links.regions v).trans (attach_newRegion_regions placedLinked v placed.1)
      rw [same] at listed
      refine Or.inr ⟨aligned, Or.inr ⟨?_, ?_⟩⟩
      · rw [isR]
        exact Option.some_ne_none r
      rw [rest.regions]
      exact listed.trans (congrArg (fun n => k.space.regions v ++ [n]) frame.vmemRegions)

theorem linkedlistCreate_of_served {α : Type} (honest : Honest kalloc)
    (served : Served (linkedlistCreate (α := α) kalloc k).2.alloc.blocks) :
    (linkedlistCreate (α := α) kalloc k).1 = some [] := by
  unfold linkedlistCreate at served ⊢
  dsimp only at served ⊢
  split at served
  · rename_i failed
    exact absurd failed (honest _ _ served)
  · rename_i present
    rw [if_neg present]

/-- An append for which there is memory. -/
theorem linkedlistAppend_of_served {α : Type} {ll : ListField α} {data : α} (honest : Honest kalloc)
    (some : (ll.get k).isSome) (served : Served (linkedlistAppend kalloc ll data k).2.alloc.blocks) :
    linkedlistAppend kalloc ll data k = (true, ll.modify (· ++ [data]) (kalloc sizeofLinkedlistNode k).2) := by
  rw [linkedlistAppend_of_some some] at served ⊢
  by_cases failed : (kalloc sizeofLinkedlistNode k).1 = 0
  · rw [if_pos failed] at served
    exact absurd failed (honest _ _ served)
  · rw [if_neg failed]

section New

variable (calls : ∀ size k, Beside r k (kalloc size k).2) (frame : ∀ size k, Frame k (kalloc size k).2)
  (honest : Honest kalloc)

include calls frame honest

/-- The record of a new region, with memory for its lists: the region is empty and listed nowhere. -/
theorem regionRecord_region {name : String} {start : Nat} {user writable executable : Bool}
    (isR : r = k.core.vmemRegions.count) (other : k.core.kernelDataVmemRegion ≠ some r)
    (served : Served (regionRecord kalloc name start user writable executable k).alloc.blocks) (v : Nat) :
    (regionRecord kalloc name start user writable executable k).Spares r ∧
    (regionRecord kalloc name start user writable executable k).region r =
      { VmemRegion.zero with
        name := name, start := start, user := user, writable := writable, executable := executable
        pages := some [], attached := some [] } ∧
    ((regionRecord kalloc name start user writable executable k).vmem v).regions = (k.vmem v).regions := by
  obtain ⟨created, isCreated⟩ : ∃ created, created = k.newRegion
    { VmemRegion.zero with
      name := name, start := start, user := user, writable := writable, executable := executable } := ⟨_, rfl⟩
  obtain ⟨pages, isPages⟩ : ∃ pages, pages = linkedlistCreate (α := Nat) kalloc created := ⟨_, rfl⟩
  obtain ⟨paged, isPaged⟩ : ∃ paged,
    paged = pages.2.modifyRegion r fun region => { region with pages := pages.1 } := ⟨_, rfl⟩
  obtain ⟨attached, isAttached⟩ : ∃ attached, attached = linkedlistCreate (α := Nat) kalloc paged := ⟨_, rfl⟩
  have result : regionRecord kalloc name start user writable executable k =
      attached.2.modifyRegion r fun region => { region with attached := attached.1 } := by
    rw [isAttached, isPaged, isPages, isCreated, isR]
    rfl
  have create : ∀ k : Kernel, Beside r k (linkedlistCreate (α := Nat) kalloc k).2 ∧
      Frame k (linkedlistCreate (α := Nat) kalloc k).2 := by
    intro k
    unfold linkedlistCreate
    dsimp only
    split <;> exact ⟨calls _ k, frame _ k⟩
  have spares : created.Spares r := by
    rw [isCreated]
    exact Or.inl other
  have record : created.region r = { VmemRegion.zero with
      name := name, start := start, user := user, writable := writable, executable := executable } := by
    rw [isCreated, isR]
    exact Store.new_get_self _ _
  obtain ⟨beside, framed⟩ := create created
  rw [← isPages] at beside framed
  obtain ⟨beside', framed'⟩ := create paged
  rw [← isAttached] at beside' framed'
  have spares' : paged.Spares r := by
    rw [isPaged]
    exact beside.spares spares
  rw [result] at served ⊢
  have servedPages : Served pages.2.alloc.blocks := by
    have before : Served paged.alloc.blocks := Served.of_suffix served beside'.later.blocks
    rw [isPaged] at before
    exact before
  have pagesListed : pages.1 = some [] := by
    rw [isPages] at servedPages ⊢
    exact linkedlistCreate_of_served honest servedPages
  have attachedListed : attached.1 = some [] := by
    have served' : Served attached.2.alloc.blocks := served
    rw [isAttached] at served' ⊢
    exact linkedlistCreate_of_served honest served'
  refine ⟨beside'.spares spares', ?_, ?_⟩
  · rw [Kernel.region_modifyRegion_self, beside'.region spares', isPaged, Kernel.region_modifyRegion_self,
      beside.region spares, record, pagesListed, attachedListed]
  · have regions : (attached.2.vmem v).regions = (k.vmem v).regions := by
      rw [framed'.regions, isPaged]
      exact (framed.regions v).trans (by rw [isCreated]; rfl)
    exact regions

/-- Attaching an empty region, with memory for the two nodes. -/
theorem vmemAttach_of_empty (spares : k.Spares r) (new : r ∉ (k.vmem v).regions.items)
    (regions : (k.vmem v).regions.isSome) (attached : (k.region r).attached.isSome)
    (empty : (k.region r).pages.items = [])
    (served : Served (vmemAttach kalloc (some v) (some r) k).2.alloc.blocks) :
    (vmemAttach kalloc (some v) (some r) k).1 = true ∧
      ((vmemAttach kalloc (some v) (some r) k).2.vmem v).regions.items = (k.vmem v).regions.items ++ [r] ∧
      (vmemAttach kalloc (some v) (some r) k).2.Spares r ∧
      (vmemAttach kalloc (some v) (some r) k).2.region r =
        { k.region r with attached := (k.region r).attached.map (· ++ [v]) } := by
  obtain ⟨listed, isListed⟩ : ∃ listed, listed = linkedlistAppend kalloc (regionsOf v) r k := ⟨_, rfl⟩
  obtain ⟨linked, isLinked⟩ : ∃ linked, linked = linkedlistAppend kalloc (attachedOf r) v listed.2 := ⟨_, rfl⟩
  obtain ⟨mapped, isMapped⟩ : ∃ mapped, mapped = replayPages kalloc v r linked.2 := ⟨_, rfl⟩
  rw [vmemAttach_of_new new isListed isLinked isMapped] at served ⊢
  have some : ((regionsOf v).get k).isSome := regions
  rw [linkedlistAppend_of_some some] at isListed
  by_cases failed : (kalloc sizeofLinkedlistNode k).1 = 0
  · rw [if_pos failed] at isListed
    rw [isListed, if_neg Bool.false_ne_true] at served
    exact absurd failed (honest _ _ served)
  rw [if_neg failed] at isListed
  obtain ⟨called, isCalled⟩ : ∃ called, called = (kalloc sizeofLinkedlistNode k).2 := ⟨_, rfl⟩
  have beside : Beside r k called := by rw [isCalled]; exact calls _ k
  have framed : Frame k called := by rw [isCalled]; exact frame _ k
  rw [← isCalled] at isListed
  have some' : ((attachedOf r).get listed.2).isSome := by
    have kept : (called.region r).attached.isSome := by rw [framed.attached]; exact attached
    rw [isListed]
    exact kept
  rw [linkedlistAppend_of_some some'] at isLinked
  by_cases failed' : (kalloc sizeofLinkedlistNode listed.2).1 = 0
  · rw [if_pos failed'] at isLinked
    rw [isLinked, isListed, if_pos rfl, if_neg Bool.false_ne_true] at served
    rw [isListed] at failed'
    exact absurd failed' (honest _ _ served)
  rw [if_neg failed'] at isLinked
  obtain ⟨called', isCalled'⟩ : ∃ called', called' = (kalloc sizeofLinkedlistNode listed.2).2 := ⟨_, rfl⟩
  have beside' : Beside r listed.2 called' := by rw [isCalled']; exact calls _ _
  have framed' : Frame listed.2 called' := by rw [isCalled']; exact frame _ _
  rw [← isCalled'] at isLinked
  have spares' : listed.2.Spares r := by
    rw [isListed]
    exact beside.spares spares
  have region : linked.2.region r = { k.region r with attached := (k.region r).attached.map (· ++ [v]) } := by
    have same : called'.region r = k.region r := by
      rw [beside'.region spares', isListed]
      exact beside.region spares
    rw [isLinked, attachedOf, Kernel.region_modifyRegion_self, same]
  have none : (linked.2.region r).pages.items = [] := by
    rw [region]
    exact empty
  have still : linked.2.Spares r := by
    rw [isLinked]
    exact beside'.spares spares'
  have nothing : mapped = (true, linked.2) := by
    rw [isMapped, replayPages, none, List.length_nil, if_neg (Nat.lt_irrefl 0)]
    unfold attachFuel attachPages
    rfl
  have grown : (linked.2.vmem v).regions.items = (k.vmem v).regions.items ++ [r] := by
    have here : (linked.2.vmem v).regions = (listed.2.vmem v).regions := by
      rw [isLinked]
      exact framed'.regions v
    have ready : (called.vmem v).regions.isSome := by
      rw [framed.regions]
      exact regions
    rw [here, isListed, regionsOf, Kernel.vmem_modifyVmem_self, items_append ready, framed.regions]
  rw [nothing]
  have listedDone : listed.1 = true := by rw [isListed]
  have linkedDone : linked.1 = true := by rw [isLinked]
  rw [if_pos listedDone, if_pos linkedDone, if_pos rfl]
  exact ⟨rfl, grown, still, region⟩

end New

/-- A machine with two free pages, before it has a region. -/
def scantStart : Kernel :=
  vmemStart BubackOS.kalloc
    (.start sampleKernel.alloc.platform { totalOfPages := 16386, pages := fun _ => .free } fun _ => 0)

end BubackOS
