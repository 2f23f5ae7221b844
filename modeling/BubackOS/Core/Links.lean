import BubackOS.Core.Refinement
import BubackOS.Core.Termination

/-!
# Who is attached to whom

A region lists the address spaces it is attached to, and an address space lists its
regions.  Growing a region changes neither, nor does `kalloc`, however deep it grows
the kernel's own region; attaching changes both sides or, when it fails, none.
-/

namespace BubackOS

open Library

variable {P : Allocator → Prop} {kalloc : Kalloc} {T : Set Nat} {k k' k'' : Kernel} {v r : Nat}

/-- What growing regions leaves alone: the objects there are, the links and the places. -/
structure Frame (k k' : Kernel) : Prop where
  vmems : k'.core.vmems.count = k.core.vmems.count
  vmemRegions : k'.core.vmemRegions.count = k.core.vmemRegions.count
  kernelVmem : k'.core.kernelVmem = k.core.kernelVmem
  kernelData : k'.core.kernelDataVmemRegion = k.core.kernelDataVmemRegion
  regions : ∀ v, (k'.vmem v).regions = (k.vmem v).regions
  attached : ∀ r, (k'.region r).attached = (k.region r).attached
  start : ∀ r, (k'.region r).start = (k.region r).start

namespace Frame

theorem of_core (same : k'.core = k.core) : Frame k k' := by
  refine ⟨?_, ?_, ?_, ?_, fun v => ?_, fun r => ?_, fun r => ?_⟩
  all_goals first | rw [same] | rw [Kernel.vmem, same, Kernel.vmem] | rw [Kernel.region, same, Kernel.region]

theorem refl (k : Kernel) : Frame k k := of_core rfl

theorem trans (first : Frame k k') (second : Frame k' k'') : Frame k k'' where
  vmems := second.vmems.trans first.vmems
  vmemRegions := second.vmemRegions.trans first.vmemRegions
  kernelVmem := second.kernelVmem.trans first.kernelVmem
  kernelData := second.kernelData.trans first.kernelData
  regions := fun v => (second.regions v).trans (first.regions v)
  attached := fun r => (second.attached r).trans (first.attached r)
  start := fun r => (second.start r).trans (first.start r)

theorem modifyVmem {change : Vmem → Vmem} (same : (change (k.vmem v)).regions = (k.vmem v).regions) :
    Frame k (k.modifyVmem v change) := by
  refine ⟨rfl, rfl, rfl, rfl, fun w => ?_, fun _ => rfl, fun _ => rfl⟩
  by_cases here : w = v
  · subst here
    rw [Kernel.vmem_modifyVmem_self, same]
  · rw [Kernel.vmem_modifyVmem_of_ne here]

theorem modifyRegion {change : VmemRegion → VmemRegion}
    (attached : (change (k.region r)).attached = (k.region r).attached)
    (start : (change (k.region r)).start = (k.region r).start) : Frame k (k.modifyRegion r change) := by
  refine ⟨rfl, rfl, rfl, rfl, fun _ => rfl, fun s => ?_, fun s => ?_⟩
  all_goals
    by_cases here : s = r
    · subst here
      rw [Kernel.region_modifyRegion_self]
      assumption
    · rw [Kernel.region_modifyRegion_of_ne here]

theorem setPmem (pmem : Pmem) (k : Kernel) : Frame k (k.setPmem pmem) :=
  ⟨rfl, rfl, rfl, rfl, fun _ => rfl, fun _ => rfl, fun _ => rfl⟩

theorem record (event : Event) (k : Kernel) : Frame k (k.record event) :=
  ⟨rfl, rfl, rfl, rfl, fun _ => rfl, fun _ => rfl, fun _ => rfl⟩

theorem pmemAllocate (k : Kernel) : Frame k (pmemAllocate k).2 :=
  pmemAllocate_cases ((setPmem _ k).trans (record _ _)) (setPmem _ k)

theorem beginAssociate (r paddr : Nat) (k : Kernel) : Frame k (k.beginAssociate r paddr) :=
  (record _ k).trans (modifyRegion rfl rfl)

theorem tableStep (calls : ∀ size, Frame k (kalloc size k).2) (step : TableStep kalloc k k') :
    Frame k k' := by
  cases step with
  | call size => exact calls size
  | write => exact of_core rfl
  | native v change => exact modifyVmem rfl

theorem notifyStep (calls : ∀ size, Frame k (kalloc size k).2) (step : NotifyStep kalloc k k') :
    Frame k k' := by
  cases step with
  | table step => exact tableStep calls step.table
  | appendMap v entry => exact modifyVmem rfl
  | annotate => exact ⟨rfl, rfl, rfl, rfl, fun _ => rfl, fun _ => rfl, fun _ => rfl⟩

theorem growthStep (calls : ∀ size, Frame k (kalloc size k).2) (step : GrowthStep kalloc T k k') :
    Frame k k' := by
  cases step with
  | notify step => exact notifyStep calls step
  | appendPage target page => exact modifyRegion rfl rfl
  | associate paddr target => exact beginAssociate _ paddr k
  | grow found target => exact (pmemAllocate k).trans (beginAssociate _ _ _)
  | exhaust failed => exact pmemAllocate k
  | declare target size => exact modifyRegion rfl rfl

end Frame

theorem frame_closed : GrowthClosed Frame where
  toHeapClosed := .of_core Frame.trans Frame.of_core
  grow := fun calls k _ step => Frame.growthStep (fun size => calls size k) step

/-! ## Allocators that keep the links -/

/-- In the mode `P`, `kalloc` leaves objects and links alone. -/
structure Tame (P : Allocator → Prop) (kalloc : Kalloc) : Prop where
  stays : ∀ size k, P k.alloc → P (kalloc size k).2.alloc
  frame : ∀ size k, P k.alloc → Frame k (kalloc size k).2

/-- The kernel's own allocator is tame in every mode. -/
theorem kalloc_tame : Tame (fun _ => True) BubackOS.kalloc :=
  ⟨fun _ _ mode => mode, fun size k _ => frame_closed.calls.kalloc size k⟩

/-- An allocator that refuses the requests of a pattern. -/
def refuseWhen (fails : Nat → Kernel → Bool) (kalloc : Kalloc) : Kalloc := fun size k =>
  if fails size k then k.refuse size else kalloc size k

/-- What holds for the allocator and for refused requests holds whichever requests are refused. -/
theorem refuseWhen_calls {R : Kernel → Kernel → Prop} (calls : ∀ size k, R k (kalloc size k).2)
    (refuse : ∀ size k, R k (Kernel.refuse size k).2) (fails : Nat → Kernel → Bool) (size : Nat) (k : Kernel) :
    R k (refuseWhen fails kalloc size k).2 := by
  unfold refuseWhen
  split
  · exact refuse size k
  · exact calls size k

theorem refuseWhen_tame (fails : Nat → Kernel → Bool) :
    Tame (fun _ => True) (refuseWhen fails BubackOS.kalloc) :=
  ⟨fun _ _ mode => mode, fun size k _ =>
    refuseWhen_calls frame_closed.calls.kalloc (fun _ _ => Frame.of_core rfl) fails size k⟩

theorem Quiet.tame (quiet : Quiet P kalloc) : Tame P kalloc :=
  ⟨quiet.stays, fun size k mode => Frame.of_core (quiet.core size k mode)⟩

theorem pmemAllocate_alloc (k : Kernel) : (pmemAllocate k).2.alloc = k.alloc :=
  pmemAllocate_cases (P := fun k' => k'.alloc = k.alloc) rfl rfl

namespace Tame

theorem tableStep (tame : Tame P kalloc) (mode : P k.alloc) (step : TableStep kalloc k k') :
    P k'.alloc := by
  cases step with
  | call size => exact tame.stays size k mode
  | write => exact mode
  | native => exact mode

theorem growthStep (tame : Tame P kalloc) (mode : P k.alloc) (step : GrowthStep kalloc T k k') :
    P k'.alloc := by
  cases step with
  | notify step =>
      cases step with
      | table step => exact tame.tableStep mode step.table
      | appendMap => exact mode
      | annotate => exact mode
  | grow =>
      have alloc := pmemAllocate_alloc k
      have same : ∀ r paddr, ((pmemAllocate k).2.beginAssociate r paddr).alloc = (pmemAllocate k).2.alloc :=
        fun _ _ => rfl
      rw [same, alloc]
      exact mode
  | exhaust => rw [pmemAllocate_alloc]; exact mode
  | appendPage => exact mode
  | associate => exact mode
  | declare => exact mode

/-- Growing regions keeps the mode and the links. -/
theorem growth (tame : Tame P kalloc) (path : GrowthPath kalloc T k k') (mode : P k.alloc) :
    P k'.alloc ∧ Frame k k' := by
  induction path with
  | refl => exact ⟨mode, Frame.refl k⟩
  | tail _ step ih =>
      exact ⟨tame.growthStep ih.1 step,
        ih.2.trans (Frame.growthStep (fun size => tame.frame size _ ih.1) step)⟩

theorem notify (tame : Tame P kalloc) (path : NotifyPath kalloc k k') (mode : P k.alloc) :
    P k'.alloc ∧ Frame k k' := tame.growth (T := ∅) path.growth mode

theorem table (tame : Tame P kalloc) (path : TablePath kalloc k k') (mode : P k.alloc) :
    P k'.alloc ∧ Frame k k' := by
  induction path with
  | refl => exact ⟨mode, Frame.refl k⟩
  | tail _ step ih =>
      exact ⟨tame.tableStep ih.1 step,
        ih.2.trans (Frame.tableStep (fun size => tame.frame size _ ih.1) step)⟩

end Tame

/-! ## Links on the lists -/

/-- The same objects and the same links. -/
structure Space.SameLinks (s s' : Space) : Prop where
  vmemCount : s'.vmemCount = s.vmemCount
  regionCount : s'.regionCount = s.regionCount
  regions : s'.regions = s.regions
  attached : s'.attached = s.attached

namespace Space.SameLinks

variable {s s' s'' : Space}

theorem refl (s : Space) : SameLinks s s := ⟨rfl, rfl, rfl, rfl⟩

theorem trans (first : SameLinks s s') (second : SameLinks s' s'') : SameLinks s s'' :=
  ⟨second.vmemCount.trans first.vmemCount, second.regionCount.trans first.regionCount,
    second.regions.trans first.regions, second.attached.trans first.attached⟩

theorem linked (same : SameLinks s s') (linked : s.Linked) : s'.Linked := by
  constructor
  · rw [same.regions, same.attached]
    exact linked.symmetric
  · rw [same.regions]
    exact linked.regionsNodup
  · rw [same.attached]
    exact linked.attachedNodup
  · rw [same.regions, same.vmemCount, same.regionCount]
    exact linked.known

theorem attach (same : SameLinks s s') (v r : Nat) : SameLinks (s.attach v r) (s'.attach v r) := by
  unfold Space.attach
  rw [same.regions, same.attached]
  split
  · exact same
  · exact ⟨same.vmemCount, same.regionCount, rfl, rfl⟩

end Space.SameLinks

/-- A step whose effect on the links is `f`. -/
structure Relinks (f : Space → Space) (k k' : Kernel) : Prop where
  links : Space.SameLinks (f k.space) k'.space
  kernelVmem : k'.core.kernelVmem = k.core.kernelVmem

theorem Frame.relinks (frame : Frame k k') : Relinks (fun s => s) k k' where
  links := by
    refine ⟨frame.vmems, frame.vmemRegions, funext fun v => ?_, funext fun r => ?_⟩
    · exact congrArg LinkedList.items (frame.regions v)
    · exact congrArg LinkedList.items (frame.attached r)
  kernelVmem := frame.kernelVmem

theorem Relinks.before {f : Space → Space} (frame : Frame k k') (relinks : Relinks f k' k'')
    (respects : Space.SameLinks (f k.space) (f k'.space)) : Relinks f k k'' :=
  ⟨respects.trans relinks.links, relinks.kernelVmem.trans frame.kernelVmem⟩

theorem Relinks.after {f : Space → Space} (relinks : Relinks f k k') (frame : Frame k' k'') : Relinks f k k'' :=
  ⟨relinks.links.trans frame.relinks.links, frame.kernelVmem.trans relinks.kernelVmem⟩

/-! ## Attaching -/

/-- An append to a list of a tame state: nothing but the call, or the edit of a list that exists. -/
theorem linkedlistAppend_tame {α : Type} (ll : ListField α) (data : α) (tame : Tame P kalloc)
    (mode : P k.alloc) (read : ∀ {k k'}, Frame k k' → ll.get k' = ll.get k) :
    ((linkedlistAppend kalloc ll data k).1 = false ∧ P (linkedlistAppend kalloc ll data k).2.alloc ∧
      Frame k (linkedlistAppend kalloc ll data k).2) ∨
    ∃ called, (linkedlistAppend kalloc ll data k) = (true, ll.modify (· ++ [data]) called) ∧
      P called.alloc ∧ Frame k called ∧ (ll.get called).isSome := by
  have called := tame.frame sizeofLinkedlistNode k mode
  have stays := tame.stays sizeofLinkedlistNode k mode
  unfold linkedlistAppend
  by_cases null : (ll.get k).isNone = true
  · rw [if_pos null]
    exact Or.inl ⟨rfl, mode, Frame.refl k⟩
  · rw [if_neg null]
    dsimp only
    by_cases failed : (kalloc sizeofLinkedlistNode k).1 = 0
    · rw [if_pos failed]
      exact Or.inl ⟨rfl, stays, called⟩
    · rw [if_neg failed]
      refine Or.inr ⟨_, rfl, stays, called, ?_⟩
      rw [read called]
      rw [Option.isSome_iff_ne_none]
      exact fun none => null (by rw [none]; rfl)

/-- Both sides of a link, as `vmem_attach` writes them. -/
theorem attached_links (new : r ∉ (k.vmem v).regions.items) {listed linked : Kernel}
    (first : Frame k listed) (some : (listed.vmem v).regions.isSome)
    (second : Frame ((regionsOf v).modify (· ++ [r]) listed) linked) (some' : (linked.region r).attached.isSome) :
    Relinks (Space.attach v r) k ((attachedOf r).modify (· ++ [v]) linked) := by
  have free : r ∉ k.space.regions v := new
  refine ⟨?_, second.kernelVmem.trans first.kernelVmem⟩
  rw [Space.attach, if_neg free]
  refine ⟨second.vmems.trans first.vmems, second.vmemRegions.trans first.vmemRegions, ?_, ?_⟩
  · funext w
    have regions : (((attachedOf r).modify (· ++ [v]) linked).vmem w).regions =
        (((regionsOf v).modify (· ++ [r]) listed).vmem w).regions := second.regions w
    have here : ((attachedOf r).modify (· ++ [v]) linked).space.regions w =
        (((regionsOf v).modify (· ++ [r]) listed).vmem w).regions.items := congrArg LinkedList.items regions
    rw [here]
    dsimp only
    by_cases same : w = v
    · subst same
      rw [regionsOf, Kernel.vmem_modifyVmem_self, items_append some, first.regions, Function.update_self]
      rfl
    · rw [regionsOf, Kernel.vmem_modifyVmem_of_ne same, first.regions, Function.update_of_ne same]
      rfl
  · funext s
    have attached : ∀ s, (linked.region s).attached = (k.region s).attached := fun s =>
      (second.attached s).trans (first.attached s)
    have here : ((attachedOf r).modify (· ++ [v]) linked).space.attached s =
        (((attachedOf r).modify (· ++ [v]) linked).region s).attached.items := rfl
    rw [here]
    dsimp only
    by_cases same : s = r
    · subst same
      rw [attachedOf, Kernel.region_modifyRegion_self, items_append some', attached, Function.update_self]
      rfl
    · rw [attachedOf, Kernel.region_modifyRegion_of_ne same, attached, Function.update_of_ne same]
      rfl

theorem detach_regions (v r : Nat) (k : Kernel) (w : Nat) : ((detach v r k).vmem w).regions.items =
    if w = v then (k.vmem v).regions.items.erase r else (k.vmem w).regions.items := by
  have moved : ((detach v r k).vmem w).regions =
      (((regionsOf v).modify (·.erase r) k).vmem w).regions := rfl
  rw [moved]
  by_cases same : w = v
  · subst same
    rw [if_pos rfl, regionsOf, Kernel.vmem_modifyVmem_self, items_erase]
  · rw [if_neg same, regionsOf, Kernel.vmem_modifyVmem_of_ne same]

theorem detach_attached (v r : Nat) (k : Kernel) (s : Nat) : ((detach v r k).region s).attached.items =
    if s = r then (k.region r).attached.items.erase v else (k.region s).attached.items := by
  have moved : (detach v r k).region s =
      ((attachedOf r).modify (·.erase v) ((regionsOf v).modify (·.erase r) k)).region s := rfl
  rw [moved]
  by_cases same : s = r
  · subst same
    rw [if_pos rfl, attachedOf, Kernel.region_modifyRegion_self, items_erase]
    rfl
  · rw [if_neg same, attachedOf, Kernel.region_modifyRegion_of_ne same]
    rfl

/-- A detachment that finds at most the two ends of a new link restores the links. -/
theorem detach_relinks (symmetric : ∀ v r, r ∈ k.space.regions v ↔ v ∈ k.space.attached r)
    (new : r ∉ (k.vmem v).regions.items) (kernel : k'.core.kernelVmem = k.core.kernelVmem)
    (vmems : k'.core.vmems.count = k.core.vmems.count)
    (vmemRegions : k'.core.vmemRegions.count = k.core.vmemRegions.count)
    (regions : ∀ w, (k'.vmem w).regions.items = (k.vmem w).regions.items ∨
      w = v ∧ (k'.vmem w).regions.items = (k.vmem w).regions.items ++ [r])
    (attached : ∀ s, (k'.region s).attached.items = (k.region s).attached.items ∨
      s = r ∧ (k'.region s).attached.items = (k.region s).attached.items ++ [v]) :
    Relinks (fun s => s) k (detach v r k') := by
  have free : v ∉ (k.region r).attached.items := fun member => new ((symmetric v r).mpr member)
  have erase : ∀ {list : List Nat} {el : Nat}, el ∉ list → (list ++ [el]).erase el = list := by
    intro list el absent
    rw [List.erase_append_right [el] absent, List.erase_cons_head, List.append_nil]
  refine ⟨⟨vmems, vmemRegions, funext fun w => ?_, funext fun s => ?_⟩, kernel⟩
  · have here : (detach v r k').space.regions w = ((detach v r k').vmem w).regions.items := rfl
    rw [here, detach_regions]
    by_cases same : w = v
    · subst same
      rw [if_pos rfl]
      rcases regions w with unchanged | ⟨-, grown⟩
      · rw [unchanged, List.erase_of_not_mem new]
        rfl
      · rw [grown, erase new]
        rfl
    · rw [if_neg same]
      rcases regions w with unchanged | ⟨isV, -⟩
      · exact unchanged
      · exact absurd isV same
  · have here : (detach v r k').space.attached s = ((detach v r k').region s).attached.items := rfl
    rw [here, detach_attached]
    by_cases same : s = r
    · subst same
      rw [if_pos rfl]
      rcases attached s with unchanged | ⟨-, grown⟩
      · rw [unchanged, List.erase_of_not_mem free]
        rfl
      · rw [grown, erase free]
        rfl
    · rw [if_neg same]
      rcases attached s with unchanged | ⟨isR, -⟩
      · exact unchanged
      · exact absurd isR same

section Attach

variable (symmetric : ∀ v r, r ∈ k.space.regions v ↔ v ∈ k.space.attached r) (new : r ∉ (k.vmem v).regions.items)

include symmetric new

/-- Without a node for the list of regions nothing was linked. -/
theorem detach_unlisted (frame : Frame k k') : Relinks (fun s => s) k (detach v r k') :=
  detach_relinks symmetric new frame.kernelVmem frame.vmems frame.vmemRegions
    (fun w => Or.inl (congrArg LinkedList.items (frame.regions w)))
    fun s => Or.inl (congrArg LinkedList.items (frame.attached s))

/-- Without a node for the list of address spaces the region is taken out of the first list again. -/
theorem detach_unlinked {listed : Kernel} (first : Frame k listed) (some : (listed.vmem v).regions.isSome)
    (second : Frame ((regionsOf v).modify (· ++ [r]) listed) k') : Relinks (fun s => s) k (detach v r k') := by
  refine detach_relinks symmetric new (second.kernelVmem.trans first.kernelVmem) (second.vmems.trans first.vmems)
    (second.vmemRegions.trans first.vmemRegions) (fun w => ?_) fun s => ?_
  · rw [second.regions]
    by_cases same : w = v
    · subst same
      refine Or.inr ⟨rfl, ?_⟩
      rw [regionsOf, Kernel.vmem_modifyVmem_self, items_append some, first.regions]
    · refine Or.inl ?_
      rw [regionsOf, Kernel.vmem_modifyVmem_of_ne same, first.regions]
  · rw [second.attached]
    exact Or.inl (congrArg LinkedList.items (first.attached s))

/-- If a page could not be announced, both ends of the link are taken out again. -/
theorem detach_attached_links (grown : Relinks (Space.attach v r) k k') : Relinks (fun s => s) k (detach v r k') := by
  have free : r ∉ k.space.regions v := new
  have effect := grown.links
  rw [Space.attach, if_neg free] at effect
  refine detach_relinks symmetric new grown.kernelVmem effect.vmemCount effect.regionCount (fun w => ?_) fun s => ?_
  · have here : (k'.vmem w).regions.items = _ := congrFun effect.regions w
    dsimp only at here
    by_cases same : w = v
    · subst same
      rw [Function.update_self] at here
      exact Or.inr ⟨rfl, here⟩
    · rw [Function.update_of_ne same] at here
      exact Or.inl here
  · have here : (k'.region s).attached.items = _ := congrFun effect.attached s
    dsimp only at here
    by_cases same : s = r
    · subst same
      rw [Function.update_self] at here
      exact Or.inr ⟨rfl, here⟩
    · rw [Function.update_of_ne same] at here
      exact Or.inl here

end Attach

/-- `vmem_attach` links the two objects, or fails and leaves the links alone. -/
theorem vmemAttach_relinks (tame : Tame P kalloc) (mode : P k.alloc)
    (symmetric : ∀ v r, r ∈ k.space.regions v ↔ v ∈ k.space.attached r) (v r : Nat) :
    P (vmemAttach kalloc (some v) (some r) k).2.alloc ∧
    ((vmemAttach kalloc (some v) (some r) k).1 = true ∧
        Relinks (Space.attach v r) k (vmemAttach kalloc (some v) (some r) k).2 ∨
      (vmemAttach kalloc (some v) (some r) k).1 = false ∧
        Relinks (fun s => s) k (vmemAttach kalloc (some v) (some r) k).2) := by
  by_cases already : r ∈ (k.vmem v).regions.items
  · have result : vmemAttach kalloc (some v) (some r) k = (true, k) := if_pos (linkedlistFind_eq.mpr already)
    rw [result]
    refine ⟨mode, Or.inl ⟨rfl, ⟨?_, rfl⟩⟩⟩
    rw [Space.attach, if_pos (show r ∈ k.space.regions v from already)]
    exact Space.SameLinks.refl _
  obtain ⟨listed, isListed⟩ : ∃ listed, listed = linkedlistAppend kalloc (regionsOf v) r k := ⟨_, rfl⟩
  obtain ⟨linking, isLinking⟩ : ∃ linking,
    linking = linkedlistAppend kalloc (attachedOf r) v listed.2 := ⟨_, rfl⟩
  obtain ⟨mapped, isMapped⟩ : ∃ mapped, mapped = replayPages kalloc v r linking.2 := ⟨_, rfl⟩
  rw [vmemAttach_of_new already isListed isLinking isMapped]
  have listing := linkedlistAppend_tame (regionsOf v) r tame mode (fun frame => frame.regions v)
  rw [← isListed] at listing
  rcases listing with ⟨failed, stays, frame⟩ | ⟨called, done, stays, frame, ready⟩
  · rw [if_neg (by rw [failed]; simp)]
    exact ⟨stays, Or.inr ⟨rfl, detach_unlisted symmetric already frame⟩⟩
  rw [done, if_pos rfl]
  have linkingCases := linkedlistAppend_tame (attachedOf r) v tame
    (k := (regionsOf v).modify (· ++ [r]) called) stays (fun frame => frame.attached r)
  rw [done] at isLinking
  rw [← isLinking] at linkingCases
  rcases linkingCases with ⟨failed, stays', frame'⟩ | ⟨called', done', stays', frame', ready'⟩
  · rw [if_neg (by rw [failed]; simp)]
    exact ⟨stays', Or.inr ⟨rfl, detach_unlinked symmetric already frame ready frame'⟩⟩
  rw [done', if_pos rfl]
  rw [done'] at isMapped
  have replayed := tame.notify (replayPages_notifyPath v r ((attachedOf r).modify (· ++ [v]) called')) stays'
  rw [← isMapped] at replayed
  have grown := (attached_links already frame ready frame' ready').after replayed.2
  cases complete : mapped.1 with
  | true => exact ⟨replayed.1, Or.inl ⟨rfl, grown⟩⟩
  | false => exact ⟨replayed.1, Or.inr ⟨rfl, detach_attached_links symmetric already grown⟩⟩

end BubackOS
