import BubackOS.Core.Links
import BubackOS.Core.VmemRuns

/-!
# The links along whole runs

Creating an address space attaches the kernel's regions to it one after the other,
creating a region attaches it to one address space.  In every state of every run,
whatever fails on the way, the two sides of the links agree.
-/

namespace BubackOS

open Library

variable {P : Allocator → Prop} {kalloc : Kalloc} {k k' k'' k₀ : Kernel} {v r : Nat} {pmem : Pmem}

/-! ## Compositions -/

/-- Attach regions to an address space, one after the other. -/
def Space.attachAll (v : Nat) (rs : List Nat) (s : Space) : Space := rs.foldl (fun s r => s.attach v r) s

namespace Space

variable {s s' : Space}

theorem SameLinks.attachAll (same : SameLinks s s') (v : Nat) (rs : List Nat) :
    SameLinks (s.attachAll v rs) (s'.attachAll v rs) := by
  induction rs generalizing s s' with
  | nil => exact same
  | cons r rest ih => exact ih (same.attach v r)

theorem SameLinks.newVmem (same : SameLinks s s') : SameLinks s.newVmem s'.newVmem := by
  refine ⟨congrArg (· + 1) same.vmemCount, same.regionCount, ?_, same.attached⟩
  unfold Space.newVmem
  rw [same.regions, same.vmemCount]

theorem SameLinks.newRegion (same : SameLinks s s') (start : Nat) :
    SameLinks (s.newRegion start) (s'.newRegion start) := by
  refine ⟨same.vmemCount, congrArg (· + 1) same.regionCount, same.regions, ?_⟩
  unfold Space.newRegion
  rw [same.attached, same.regionCount]

theorem attach_counts (s : Space) (v r : Nat) :
    (s.attach v r).vmemCount = s.vmemCount ∧ (s.attach v r).regionCount = s.regionCount := by
  unfold attach
  split <;> exact ⟨rfl, rfl⟩

theorem attachAll_counts (v : Nat) (rs : List Nat) : ∀ s : Space,
    (s.attachAll v rs).vmemCount = s.vmemCount ∧ (s.attachAll v rs).regionCount = s.regionCount := by
  induction rs with
  | nil => exact fun s => ⟨rfl, rfl⟩
  | cons r rest ih =>
      intro s
      have counts := s.attach_counts v r
      have later := ih (s.attach v r)
      exact ⟨later.1.trans counts.1, later.2.trans counts.2⟩

theorem mem_attach (s : Space) (v r w r' : Nat) :
    r' ∈ (s.attach v r).regions w ↔ r' ∈ s.regions w ∨ w = v ∧ r' = r := by
  unfold attach
  by_cases already : r ∈ s.regions v
  · rw [if_pos already]
    constructor
    · exact Or.inl
    · rintro (member | ⟨rfl, rfl⟩)
      · exact member
      · exact already
  · rw [if_neg already]
    by_cases same : w = v
    · subst same
      simp
    · simp [same]

theorem mem_attachAll (v : Nat) (rs : List Nat) (w r' : Nat) : ∀ s : Space,
    r' ∈ (s.attachAll v rs).regions w ↔ r' ∈ s.regions w ∨ w = v ∧ r' ∈ rs := by
  induction rs with
  | nil => exact fun s => by simp [attachAll]
  | cons r rest ih =>
      intro s
      have later := ih (s.attach v r)
      rw [attachAll, List.foldl_cons, ← attachAll, later, mem_attach, List.mem_cons]
      constructor
      · rintro ((member | ⟨here, first⟩) | ⟨here, member⟩)
        · exact Or.inl member
        · exact Or.inr ⟨here, Or.inl first⟩
        · exact Or.inr ⟨here, Or.inr member⟩
      · rintro (member | ⟨here, first | member⟩)
        · exact Or.inl (Or.inl member)
        · exact Or.inl (Or.inr ⟨here, first⟩)
        · exact Or.inr ⟨here, member⟩

theorem Linked.attachAll {v : Nat} (rs : List Nat) : ∀ {s : Space}, s.Linked → v < s.vmemCount →
    (∀ r ∈ rs, r < s.regionCount) → (s.attachAll v rs).Linked := by
  induction rs with
  | nil => exact fun linked _ _ => linked
  | cons r rest ih =>
      intro s linked knownV known
      have counts := s.attach_counts v r
      refine ih (linked.attach knownV (known r List.mem_cons_self)) ?_ fun r' member => ?_
      · rw [counts.1]
        exact knownV
      · rw [counts.2]
        exact known r' (List.mem_cons_of_mem r member)

end Space

namespace Relinks

variable {f g : Space → Space}

theorem trans (first : Relinks f k k') (second : Relinks g k' k'')
    (respects : Space.SameLinks (g (f k.space)) (g k'.space)) : Relinks (fun s => g (f s)) k k'' :=
  ⟨respects.trans second.links, second.kernelVmem.trans first.kernelVmem⟩

theorem then_attach (first : Relinks f k k') (second : Relinks (Space.attach v r) k' k'') :
    Relinks (fun s => (f s).attach v r) k k'' :=
  first.trans second (first.links.attach v r)

/-- An edit of an address space that shows the same regions. -/
theorem modifyVmem {change : Vmem → Vmem}
    (same : (change (k.vmem v)).regions.items = (k.vmem v).regions.items) :
    Relinks (fun s => s) k (k.modifyVmem v change) := by
  refine ⟨⟨rfl, rfl, funext fun w => ?_, rfl⟩, rfl⟩
  have here : (k.modifyVmem v change).space.regions w =
      ((k.modifyVmem v change).vmem w).regions.items := rfl
  rw [here]
  by_cases isV : w = v
  · subst isV
    rw [Kernel.vmem_modifyVmem_self, same]
    rfl
  · rw [Kernel.vmem_modifyVmem_of_ne isV]
    rfl

/-- An edit of a region that shows the same address spaces. -/
theorem modifyRegion {change : VmemRegion → VmemRegion}
    (same : (change (k.region r)).attached.items = (k.region r).attached.items) :
    Relinks (fun s => s) k (k.modifyRegion r change) := by
  refine ⟨⟨rfl, rfl, rfl, funext fun s => ?_⟩, rfl⟩
  have here : (k.modifyRegion r change).space.attached s =
      ((k.modifyRegion r change).region s).attached.items := rfl
  rw [here]
  by_cases isR : s = r
  · subst isR
    rw [Kernel.region_modifyRegion_self, same]
    rfl
  · rw [Kernel.region_modifyRegion_of_ne isR]
    rfl

theorem then_same (first : Relinks f k k') (second : Relinks (fun s => s) k' k'') : Relinks f k k'' :=
  first.trans second first.links

end Relinks

/-! ## Records -/

theorem newVmem_space (k : Kernel) : (k.newVmem blankVmem).space = k.space.newVmem := by
  have pointwise : ∀ {α : Type} (field : Vmem → List α), field blankVmem = [] →
      (fun w => field ((k.newVmem blankVmem).vmem w)) =
        Function.update (fun w => field (k.vmem w)) k.core.vmems.count [] := by
    intro α field empty
    funext w
    by_cases same : w = k.core.vmems.count
    · subst same
      rw [Function.update_self, ← empty]
      exact congrArg field (Store.new_get_self _ _)
    · rw [Function.update_of_ne same]
      exact congrArg field (Store.new_get_of_ne same)
  simp only [Kernel.space]
  rw [pointwise (fun vmem => vmem.regions.items) rfl, pointwise (fun vmem => vmem.map.items) rfl]
  rfl

theorem vmemRecord_relinks (tame : Tame P kalloc) (mode : P k.alloc) :
    P (vmemRecord kalloc k).alloc ∧ Relinks Space.newVmem k (vmemRecord kalloc k) := by
  obtain ⟨created, isCreated⟩ : ∃ created, created = k.newVmem blankVmem := ⟨_, rfl⟩
  have new : Relinks Space.newVmem k created := by
    rw [isCreated]
    exact ⟨by rw [newVmem_space]; exact Space.SameLinks.refl _, rfl⟩
  have fresh : (created.vmem k.core.vmems.count).regions.items = [] := by
    have here : created.space.regions k.core.vmems.count = [] := by
      rw [new.links.regions]
      exact Function.update_self _ _ _
    exact here
  have createdMode : P created.alloc := by
    rw [isCreated]
    exact mode
  obtain ⟨regions, isRegions⟩ : ∃ regions,
    regions = linkedlistCreate (α := Nat) kalloc created := ⟨_, rfl⟩
  have regionsTame : P regions.2.alloc ∧ Frame created regions.2 := by
    rw [isRegions]
    exact tame.table (linkedlistCreate_tablePath created) createdMode
  have listed : Relinks (fun s => s) regions.2 (regions.2.modifyVmem k.core.vmems.count fun vmem =>
      { vmem with regions := regions.1 }) := by
    refine Relinks.modifyVmem ?_
    rw [regionsTame.2.regions, fresh, isRegions]
    exact linkedlistCreate_items kalloc created
  obtain ⟨listing, isListing⟩ : ∃ listing, listing = regions.2.modifyVmem k.core.vmems.count fun vmem =>
    { vmem with regions := regions.1 } := ⟨_, rfl⟩
  rw [← isListing] at listed
  have listingMode : P listing.alloc := by
    rw [isListing]
    exact regionsTame.1
  have mapTame := tame.table (linkedlistCreate_tablePath (α := VmemMap) listing) listingMode
  have result : vmemRecord kalloc k = (linkedlistCreate (α := VmemMap) kalloc listing).2.modifyVmem
      k.core.vmems.count fun vmem => { vmem with map := (linkedlistCreate kalloc listing).1 } := by
    rw [isListing, isRegions, isCreated]
    rfl
  rw [result]
  exact ⟨mapTame.1, (((new.after regionsTame.2).then_same listed).after mapTame.2).after
    (Frame.modifyVmem rfl)⟩

theorem regionRecord_relinks (tame : Tame P kalloc) (mode : P k.alloc) (name : String) (start : Nat)
    (user writable executable : Bool) :
    P (regionRecord kalloc name start user writable executable k).alloc ∧
      Relinks (Space.newRegion start) k (regionRecord kalloc name start user writable executable k) := by
  obtain ⟨created, isCreated⟩ : ∃ created,
    created = k.newRegion (blankRegion name start user writable executable) := ⟨_, rfl⟩
  have new : Relinks (Space.newRegion start) k created := by
    rw [isCreated]
    exact ⟨by rw [blankRegion_space]; exact Space.SameLinks.refl _, rfl⟩
  have fresh : (created.region k.core.vmemRegions.count).attached.items = [] := by
    have here : created.space.attached k.core.vmemRegions.count = [] := by
      rw [new.links.attached]
      exact Function.update_self _ _ _
    exact here
  have createdMode : P created.alloc := by
    rw [isCreated]
    exact mode
  obtain ⟨pages, isPages⟩ : ∃ pages, pages = linkedlistCreate (α := Nat) kalloc created := ⟨_, rfl⟩
  have pagesTame : P pages.2.alloc ∧ Frame created pages.2 := by
    rw [isPages]
    exact tame.table (linkedlistCreate_tablePath created) createdMode
  obtain ⟨paged, isPaged⟩ : ∃ paged, paged = pages.2.modifyRegion k.core.vmemRegions.count fun region =>
    { region with pages := pages.1 } := ⟨_, rfl⟩
  have pagedFrame : Frame created paged := by
    rw [isPaged]
    exact pagesTame.2.trans (Frame.modifyRegion rfl rfl)
  have pagedMode : P paged.alloc := by
    rw [isPaged]
    exact pagesTame.1
  have attachedTame := tame.table (linkedlistCreate_tablePath (α := Nat) paged) pagedMode
  have result : regionRecord kalloc name start user writable executable k =
      (linkedlistCreate (α := Nat) kalloc paged).2.modifyRegion k.core.vmemRegions.count fun region =>
        { region with attached := (linkedlistCreate kalloc paged).1 } := by
    rw [isPaged, isPages, isCreated]
    rfl
  have before := (new.after pagedFrame).after attachedTame.2
  rw [result]
  refine ⟨attachedTame.1, before.then_same (Relinks.modifyRegion ?_)⟩
  rw [attachedTame.2.attached, pagedFrame.attached, fresh]
  exact linkedlistCreate_items kalloc paged

theorem idMapperAdd_frame (mapper : MapperField) (tame : Tame P kalloc) (mode : P k.alloc)
    (edit : ∀ change k, Frame k (mapper.modify change k))
    (alloc : ∀ change k, (mapper.modify change k).alloc = k.alloc) (val : Nat) :
    P (idMapperAdd kalloc mapper val k).2.alloc ∧ Frame k (idMapperAdd kalloc mapper val k).2 := by
  have called := tame.frame sizeofIdMapperEntry k mode
  have stays := tame.stays sizeofIdMapperEntry k mode
  unfold idMapperAdd
  dsimp only
  generalize kalloc sizeofIdMapperEntry k = entry at called stays ⊢
  split
  · exact ⟨stays, called⟩
  · obtain ⟨drawn, isDrawn⟩ : ∃ drawn,
      drawn = mapper.modify (fun m => { m with next := wrap (m.next + 1) }) entry.2 := ⟨_, rfl⟩
    have drawnFrame : Frame k drawn := by
      rw [isDrawn]
      exact called.trans (edit _ _)
    have drawnMode : P drawn.alloc := by
      rw [isDrawn, alloc]
      exact stays
    rw [← isDrawn]
    have node := tame.frame sizeofLinkedlistNode drawn drawnMode
    have nodeMode := tame.stays sizeofLinkedlistNode drawn drawnMode
    have added : P (linkedlistAppend kalloc mapper.list ((mapper.get entry.2).next, val) drawn).2.alloc ∧
        Frame k (linkedlistAppend kalloc mapper.list ((mapper.get entry.2).next, val) drawn).2 := by
      refine linkedlistAppend_snd (P := fun k' => P k'.alloc ∧ Frame k k') ⟨drawnMode, drawnFrame⟩
        ⟨nodeMode, drawnFrame.trans node⟩ ⟨?_, (drawnFrame.trans node).trans (edit _ _)⟩
      rw [MapperField.list, alloc]
      exact nodeMode
    split <;> exact added

theorem Frame.vmemIds (change : IdMapper → IdMapper) (k : Kernel) : Frame k (vmemIdMapper.modify change k) :=
  ⟨rfl, rfl, rfl, rfl, fun _ => rfl, fun _ => rfl, fun _ => rfl⟩

theorem Frame.regionIds (change : IdMapper → IdMapper) (k : Kernel) :
    Frame k (vmemRegionMapper.modify change k) :=
  ⟨rfl, rfl, rfl, rfl, fun _ => rfl, fun _ => rfl, fun _ => rfl⟩

/-! ## Address spaces -/

/-- The loop of `vmem_create` attaches the first regions of the list, all of them if it succeeds. -/
theorem attachRegions_relinks (tame : Tame P kalloc) (v : Nat) (rs : List Nat) :
    ∀ k : Kernel, P k.alloc → k.space.Linked → v < k.core.vmems.count →
      (∀ r ∈ rs, r < k.core.vmemRegions.count) →
      P (attachRegions kalloc v rs k).2.alloc ∧
      ∃ done, done <+: rs ∧ ((attachRegions kalloc v rs k).1 = true → done = rs) ∧
        Relinks (Space.attachAll v done) k (attachRegions kalloc v rs k).2 ∧
        (done = [] ↔ ∀ r ∈ rs.head?, (vmemAttach kalloc (some v) (some r) k).1 = false) := by
  induction rs with
  | nil =>
      intro k mode _ _ _
      exact ⟨mode, [], List.prefix_rfl, fun _ => rfl, (Frame.refl k).relinks, by simp⟩
  | cons r rest ih =>
      intro k mode linked knownV known
      have attach := vmemAttach_relinks tame mode linked.symmetric v r
      unfold attachRegions
      dsimp only
      generalize isAttached : vmemAttach kalloc (some v) (some r) k = attached at attach ⊢
      obtain ⟨stays, ⟨done, links⟩ | ⟨failed, links⟩⟩ := attach
      · rw [if_pos done]
        have here := linked.attach knownV (known r List.mem_cons_self)
        have counts := k.space.attach_counts v r
        have vmems : attached.2.core.vmems.count = k.core.vmems.count := links.links.vmemCount.trans counts.1
        have regions : attached.2.core.vmemRegions.count = k.core.vmemRegions.count :=
          links.links.regionCount.trans counts.2
        obtain ⟨mode', prefixOf, isPrefix, complete, later, -⟩ := ih attached.2 stays (links.links.linked here)
          (by rw [vmems]; exact knownV)
          (fun r' member => by rw [regions]; exact known r' (List.mem_cons_of_mem r member))
        refine ⟨mode', r :: prefixOf, (List.prefix_cons_inj r).mpr isPrefix, fun success => ?_, ?_,
          by simp [isAttached, done]⟩
        · rw [complete success]
        · exact links.trans later (links.links.attachAll v prefixOf)
      · rw [if_neg (by rw [failed]; simp)]
        exact ⟨stays, [], List.nil_prefix, fun success => absurd success (by simp), links, by simp [isAttached, failed]⟩

/-- The kernel's address space exists. -/
def KernelKnown (k : Kernel) : Prop := ∀ w ∈ k.core.kernelVmem, w < k.core.vmems.count

/-- The regions of the kernel's address space. -/
def Space.kernelRegions (kernel : Option Nat) (s : Space) : List Nat :=
  match kernel with
  | some w => s.regions w
  | none => []

theorem kernelRegions_space (k : Kernel) :
    k.kernelRegions = k.space.kernelRegions k.core.kernelVmem := rfl

theorem kernelRegions_newVmem (known : KernelKnown k) {made : Kernel} (relinks : Relinks Space.newVmem k made) :
    made.kernelRegions = k.kernelRegions := by
  rw [kernelRegions_space, kernelRegions_space, relinks.kernelVmem]
  unfold Space.kernelRegions
  cases kernel : k.core.kernelVmem with
  | none => rfl
  | some w =>
      have other : w ≠ k.space.vmemCount := Nat.ne_of_lt (known w kernel)
      dsimp only
      rw [relinks.links.regions, Space.newVmem]
      exact Function.update_of_ne other _ _

/-- `vmem_create` attaches no region: the record or the table is not made, or the kernel has no region or its
first one is not attached. -/
def AttachesNothing (kalloc : Kalloc) (k : Kernel) : Prop :=
  let object := kalloc sizeofVmem k
  let native := nativeVmemCreate kalloc object.2.core.vmems.count (vmemRecord kalloc object.2)
  object.1 = 0 ∨ native.1 = false ∨
    ∀ r ∈ k.kernelRegions.head?, (vmemAttach kalloc (some object.2.core.vmems.count) (some r) native.2).1 = false

/-- What `vmem_create` does to the links: nothing, or a new address space with the first regions of
the kernel, with all of them if it succeeds. -/
theorem vmemCreate_relinks (tame : Tame P kalloc) (mode : P k.alloc) (linked : k.space.Linked)
    (known : KernelKnown k) :
    P (vmemCreate kalloc k).2.alloc ∧
    ((vmemCreate kalloc k).1 = none ∧ Relinks (fun s => s) k (vmemCreate kalloc k).2 ∧ AttachesNothing kalloc k ∨
      ∃ done, done <+: k.kernelRegions ∧
        ((vmemCreate kalloc k).1 ≠ none →
          (vmemCreate kalloc k).1 = some k.core.vmems.count ∧ done = k.kernelRegions) ∧
        Relinks (fun s => s.newVmem.attachAll k.core.vmems.count done) k (vmemCreate kalloc k).2 ∧
        (done = [] ↔ AttachesNothing kalloc k)) := by
  have called := tame.frame sizeofVmem k mode
  have stays := tame.stays sizeofVmem k mode
  unfold vmemCreate AttachesNothing
  dsimp only
  generalize kalloc sizeofVmem k = object at called stays ⊢
  by_cases failed : object.1 = 0
  · rw [if_pos failed]
    exact ⟨stays, Or.inl ⟨rfl, called.relinks, Or.inl failed⟩⟩
  · rw [if_neg failed, called.vmems]
    obtain ⟨recordMode, record⟩ := vmemRecord_relinks tame stays
    have native := tame.table (nativeVmemCreate_tablePath k.core.vmems.count (vmemRecord kalloc object.2)) recordMode
    have recorded : Relinks Space.newVmem k (vmemRecord kalloc object.2) :=
      Relinks.before called record called.relinks.links.newVmem
    generalize nativeVmemCreate kalloc k.core.vmems.count (vmemRecord kalloc object.2) = made at native ⊢
    have new := recorded.after native.2
    have newLinked := new.links.linked linked.newVmem
    by_cases created : made.1 = true
    · rw [if_pos created, kernelRegions_newVmem known new]
      have vmems : made.2.core.vmems.count = k.core.vmems.count + 1 := new.links.vmemCount
      have regions : made.2.core.vmemRegions.count = k.core.vmemRegions.count := new.links.regionCount
      have kernelKnown : ∀ r ∈ k.kernelRegions, r < made.2.core.vmemRegions.count := by
        intro r member
        rw [regions]
        rw [kernelRegions_space] at member
        unfold Space.kernelRegions at member
        split at member
        · exact (linked.known _ r member).2
        · exact absurd member List.not_mem_nil
      obtain ⟨attachedMode, done, isPrefix, complete, attached, nothing⟩ := attachRegions_relinks tame k.core.vmems.count
        k.kernelRegions made.2 native.1 newLinked (by omega) kernelKnown
      generalize attachRegions kalloc k.core.vmems.count k.kernelRegions made.2 = mapped
        at attachedMode complete attached ⊢
      have nothing' : done = [] ↔ object.1 = 0 ∨ made.1 = false ∨ ∀ r ∈ k.kernelRegions.head?,
          (vmemAttach kalloc (some k.core.vmems.count) (some r) made.2).1 = false := by
        rw [nothing, created]
        simp [failed]
      have both : Relinks (fun s => s.newVmem.attachAll k.core.vmems.count done) k mapped.2 :=
        new.trans attached (new.links.attachAll _ done)
      by_cases all : mapped.1 = true
      · rw [if_pos all]
        have identified := idMapperAdd_frame vmemIdMapper tame attachedMode Frame.vmemIds
          (fun _ _ => rfl) k.core.vmems.count
        generalize idMapperAdd kalloc vmemIdMapper k.core.vmems.count mapped.2 = id at identified ⊢
        have named : Relinks (fun s => s.newVmem.attachAll k.core.vmems.count done) k
            (id.2.modifyVmem k.core.vmems.count fun vmem => { vmem with vmemId := id.1 }) :=
          (both.after identified.2).after (Frame.modifyVmem rfl)
        split
        · exact ⟨identified.1, Or.inr ⟨done, isPrefix, fun present => absurd rfl present, named, nothing'⟩⟩
        · exact ⟨identified.1, Or.inr ⟨done, isPrefix, fun _ => ⟨rfl, complete all⟩, named, nothing'⟩⟩
      · rw [if_neg all]
        exact ⟨attachedMode, Or.inr ⟨done, isPrefix, fun present => absurd rfl present, both, nothing'⟩⟩
    · rw [if_neg created]
      exact ⟨native.1, Or.inr ⟨[], List.nil_prefix, fun present => absurd rfl present, new, by simp [created]⟩⟩

/-! ## Regions -/

theorem placeRegion_frame (v start : Nat) (k : Kernel) : Frame k (placeRegion v start k).2 := by
  unfold placeRegion
  split
  · exact Frame.modifyVmem rfl
  · exact Frame.refl k

theorem placeRegion_alloc (v start : Nat) (k : Kernel) : (placeRegion v start k).2.alloc = k.alloc := by
  unfold placeRegion
  split <;> rfl

/-- What the first part of `vmem_region_create` does to the links: nothing, or a new region, which is returned
if it is attached. -/
theorem openRegion_relinks (tame : Tame P kalloc) (mode : P k.alloc) (linked : k.space.Linked)
    (v : Nat) (name : String) (start : Nat) (user writable executable : Bool) {opened : Option Nat × Kernel}
    (isOpened : opened = openRegion kalloc v name start user writable executable k) :
    P opened.2.alloc ∧
    (opened.1 = none ∧ Relinks (fun s => s) k opened.2 ∨
      opened.1 = none ∧ Relinks (Space.newRegion start) k opened.2 ∨
      opened.1 = some k.core.vmemRegions.count ∧
        Relinks (fun s => (s.newRegion start).attach v k.core.vmemRegions.count) k opened.2) := by
  obtain ⟨object, isObject⟩ : ∃ object, object = kalloc sizeofVmemRegion k := ⟨_, rfl⟩
  have called : Frame k object.2 := isObject ▸ tame.frame sizeofVmemRegion k mode
  have stays : P object.2.alloc := isObject ▸ tame.stays sizeofVmemRegion k mode
  obtain ⟨recordMode, record⟩ := regionRecord_relinks tame stays name start user writable executable
  have new := Relinks.before called record (called.relinks.links.newRegion start)
  obtain ⟨attachMode, attached⟩ := vmemAttach_relinks tame recordMode
    (new.links.linked (linked.newRegion start)).symmetric v object.2.core.vmemRegions.count
  rcases openRegion_cases isObject rfl with ⟨-, result⟩ | ⟨-, ⟨refused, result⟩ | ⟨done, result⟩⟩
  · rw [isOpened, result]
    exact ⟨stays, Or.inl ⟨rfl, called.relinks⟩⟩
  · rw [isOpened, result]
    rcases attached with ⟨done, -⟩ | ⟨-, links⟩
    · exact absurd (refused.symm.trans done) Bool.false_ne_true
    · exact ⟨attachMode, Or.inr (Or.inl ⟨rfl, new.then_same links⟩)⟩
  · rw [isOpened, result]
    rcases attached with ⟨-, links⟩ | ⟨refused, -⟩
    · rw [called.vmemRegions] at links attachMode ⊢
      exact ⟨attachMode, Or.inr (Or.inr ⟨rfl, new.then_attach links⟩)⟩
    · exact absurd (refused.symm.trans done) Bool.false_ne_true

/-- The rest of it leaves the links alone. -/
theorem finishRegion_frame (tame : Tame P kalloc) (mode : P k.alloc) (r size : Nat) {result : Option Nat × Kernel}
    (isResult : result = finishRegion kalloc r size k) :
    P result.2.alloc ∧ Frame k result.2 ∧ ∀ s ∈ result.1, s = r := by
  have grown := tame.growth (vmemRegionResize_growthPath (T := Set.univ) (some r) (fun r _ => Set.mem_univ r) size k) mode
  unfold finishRegion at isResult
  dsimp only at isResult
  generalize vmemRegionResize kalloc (some r) size k = resized at grown isResult
  split at isResult
  · have identified := idMapperAdd_frame vmemRegionMapper tame grown.1 Frame.regionIds (fun _ _ => rfl) r
    generalize idMapperAdd kalloc vmemRegionMapper r resized.2 = id at identified isResult
    have renamed : Frame id.2 (id.2.modifyRegion r fun region => { region with vmemRegionId := id.1 }) :=
      Frame.modifyRegion rfl rfl
    have framed := (grown.2.trans identified.2).trans renamed
    split at isResult
    · rw [isResult]
      exact ⟨identified.1, framed, fun s absent => absurd absent (Option.not_mem_none s)⟩
    · rw [isResult]
      exact ⟨identified.1, framed, fun s isR => (Option.some.inj isR).symm⟩
  · rw [isResult]
    exact ⟨grown.1, grown.2, fun s absent => absurd absent (Option.not_mem_none s)⟩

/-- What `vmem_region_create` does to the links: nothing, or a new region, attached or not. -/
theorem vmemRegionCreate_relinks (tame : Tame P kalloc) (mode : P k.alloc) (linked : k.space.Linked)
    (v : Nat) (name : String) (start size : Nat) (user writable executable : Bool) {result : Option Nat × Kernel}
    (isResult : result = vmemRegionCreate kalloc (some v) (some name) start size user writable executable k) :
    P result.2.alloc ∧
    (result.1 = none ∧ Relinks (fun s => s) k result.2 ∨
      result.1 = none ∧ Relinks (Space.newRegion (placeRegion v start k).1) k result.2 ∨
      (∀ r ∈ result.1, r = k.core.vmemRegions.count) ∧
        Relinks (fun s => (s.newRegion (placeRegion v start k).1).attach v k.core.vmemRegions.count) k result.2) := by
  obtain ⟨placed, isPlaced⟩ : ∃ placed, placed = placeRegion v start k := ⟨_, rfl⟩
  have frame : Frame k placed.2 := isPlaced ▸ placeRegion_frame v start k
  have placedMode : P placed.2.alloc := by
    rw [isPlaced, placeRegion_alloc]
    exact mode
  obtain ⟨opened, isOpened⟩ : ∃ opened,
    opened = openRegion kalloc v name placed.1 user writable executable placed.2 := ⟨_, rfl⟩
  obtain ⟨openedMode, links⟩ := openRegion_relinks tame placedMode (frame.relinks.links.linked linked) v name placed.1 user
    writable executable isOpened
  rw [frame.vmemRegions] at links
  rw [← isPlaced]
  rcases vmemRegionCreate_cases isPlaced isOpened with ⟨-, refused⟩ | ⟨-, ⟨absent, failed⟩ | ⟨r, isR, finished⟩⟩
  · rw [isResult, refused]
    exact ⟨placedMode, Or.inl ⟨rfl, frame.relinks⟩⟩
  · rw [isResult, failed]
    refine ⟨openedMode, ?_⟩
    rcases links with ⟨-, same⟩ | ⟨-, new⟩ | ⟨present, -⟩
    · exact Or.inl ⟨rfl, Relinks.before frame same (frame.relinks.links)⟩
    · exact Or.inr (Or.inl ⟨rfl, Relinks.before frame new (frame.relinks.links.newRegion placed.1)⟩)
    · cases absent.symm.trans present
  · rcases links with ⟨absent, -⟩ | ⟨absent, -⟩ | ⟨present, attached⟩
    · cases absent.symm.trans isR
    · cases absent.symm.trans isR
    · obtain ⟨finalMode, rest, only⟩ := finishRegion_frame tame openedMode r size (isResult.trans finished)
      obtain rfl : k.core.vmemRegions.count = r := Option.some.inj (present.symm.trans isR)
      exact ⟨finalMode, Or.inr (Or.inr ⟨only, (Relinks.before frame attached
        ((frame.relinks.links.newRegion placed.1).attach v _)).after rest⟩)⟩

/-! ## Runs -/

/-- The pointers of a call are `NULL` or valid. -/
def VmemOp.Valid (k : Kernel) : VmemOp → Prop
  | create => True
  | createRegion vmem _ _ _ _ _ _ => ∀ v ∈ vmem, v < k.core.vmems.count
  | resize region _ => ∀ r ∈ region, r < k.core.vmemRegions.count
  | mapPhysical region _ _ => ∀ r ∈ region, r < k.core.vmemRegions.count
  | attach vmem region =>
      (∀ v ∈ vmem, v < k.core.vmems.count) ∧ ∀ r ∈ region, r < k.core.vmemRegions.count

theorem VmemOp.Proper.valid {op : VmemOp} (proper : op.Proper k) : op.Valid k := by
  cases op with
  | create => trivial
  | createRegion => exact fun v isV => (proper v isV).1
  | resize => exact fun r isR => (proper r isR).1
  | mapPhysical => exact fun r isR => (proper r isR).1
  | attach => exact proper

/-- The states a run of valid calls reaches. -/
inductive VmemRun (kalloc : Kalloc) (k₀ : Kernel) : Kernel → Prop where
  | start : VmemRun kalloc k₀ (vmemStart kalloc k₀)
  | step {k : Kernel} {op : VmemOp} (run : VmemRun kalloc k₀ k) (valid : op.Valid k) :
      VmemRun kalloc k₀ (op.run kalloc k)

theorem Reached.run (reached : Reached kalloc k₀ k) : VmemRun kalloc k₀ k := by
  induction reached with
  | start => exact .start
  | step _ proper ih => exact ih.step proper.valid

/-- The links agree, and the kernel's address space exists. -/
structure WellLinked (P : Allocator → Prop) (k : Kernel) : Prop where
  mode : P k.alloc
  linked : k.space.Linked
  kernel : KernelKnown k

theorem WellLinked.of_relinks {f : Space → Space} (well : WellLinked P k) (mode : P k'.alloc)
    (relinks : Relinks f k k') (linked : (f k.space).Linked) (more : k.space.vmemCount ≤ (f k.space).vmemCount) :
    WellLinked P k' := by
  refine ⟨mode, relinks.links.linked linked, fun w isKernel => ?_⟩
  rw [relinks.kernelVmem] at isKernel
  have count : k'.core.vmems.count = (f k.space).vmemCount := relinks.links.vmemCount
  rw [count]
  exact Nat.lt_of_lt_of_le (well.kernel w isKernel) more

theorem WellLinked.of_frame (well : WellLinked P k) (mode : P k'.alloc) (frame : Frame k k') : WellLinked P k' :=
  well.of_relinks mode frame.relinks well.linked (Nat.le_refl _)

theorem kernelRegions_bound (well : WellLinked P k) : ∀ r ∈ k.kernelRegions, r < k.core.vmemRegions.count := by
  intro r member
  rw [kernelRegions_space] at member
  unfold Space.kernelRegions at member
  split at member
  · exact (well.linked.known _ r member).2
  · exact absurd member List.not_mem_nil

theorem vmemCreate_wellLinked (tame : Tame P kalloc) (well : WellLinked P k) :
    WellLinked P (vmemCreate kalloc k).2 := by
  obtain ⟨mode, ⟨-, same, -⟩ | ⟨done, isPrefix, -, new, -⟩⟩ :=
    vmemCreate_relinks tame well.mode well.linked well.kernel
  · exact well.of_relinks mode same well.linked (Nat.le_refl _)
  · refine well.of_relinks mode new (well.linked.newVmem.attachAll done (Nat.lt_succ_self _) fun r member => ?_) ?_
    · exact kernelRegions_bound well r (isPrefix.subset member)
    · rw [(Space.attachAll_counts _ done _).1]
      exact Nat.le_succ _

theorem vmemAttach_wellLinked (tame : Tame P kalloc) (well : WellLinked P k) (knownV : v < k.core.vmems.count)
    (knownR : r < k.core.vmemRegions.count) : WellLinked P (vmemAttach kalloc (some v) (some r) k).2 := by
  obtain ⟨mode, ⟨-, links⟩ | ⟨-, links⟩⟩ := vmemAttach_relinks tame well.mode well.linked.symmetric v r
  · exact well.of_relinks mode links (well.linked.attach knownV knownR) (k.space.attach_counts v r).1.ge
  · exact well.of_relinks mode links well.linked (Nat.le_refl _)

/-- A valid call keeps the links, whatever fails. -/
theorem VmemOp.wellLinked {op : VmemOp} (tame : Tame P kalloc) (well : WellLinked P k) (valid : op.Valid k) :
    WellLinked P (op.run kalloc k) := by
  cases op with
  | create => exact vmemCreate_wellLinked tame well
  | createRegion vmem name start size user writable executable =>
      cases vmem with
      | none => exact well
      | some v =>
        cases name with
        | none => exact well
        | some name =>
          have knownV := valid v rfl
          rw [VmemOp.run]
          obtain ⟨mode, ⟨-, links⟩ | ⟨-, links⟩ | ⟨-, links⟩⟩ := vmemRegionCreate_relinks tame well.mode
            well.linked v name start size user writable executable rfl
          · exact well.of_relinks mode links well.linked (Nat.le_refl _)
          · exact well.of_relinks mode links (well.linked.newRegion _) (Nat.le_refl _)
          · refine well.of_relinks mode links
              ((well.linked.newRegion _).attach knownV (Nat.lt_succ_self _)) ?_
            rw [(Space.attach_counts _ _ _).1]
            exact Nat.le_refl _
  | resize region newSize =>
      obtain ⟨mode, frame⟩ := tame.growth (vmemRegionResize_growthPath (T := Set.univ) region
        (fun r _ => Set.mem_univ r) newSize k) well.mode
      exact well.of_frame mode frame
  | mapPhysical region physicalStartAddr size =>
      obtain ⟨mode, frame⟩ := tame.growth (vmemRegionMapPhysicalAddress_growthPath (T := Set.univ) region
        (fun r _ => Set.mem_univ r) physicalStartAddr size k) well.mode
      exact well.of_frame mode frame
  | attach vmem region =>
      cases vmem with
      | none => exact well
      | some v =>
        cases region with
        | none => exact well
        | some r => exact vmemAttach_wellLinked tame well (valid.1 v rfl) (valid.2 r rfl)

theorem idMapperCreate_frame (mapper : MapperField) (tame : Tame P kalloc) (mode : P k.alloc)
    (edit : ∀ change k, Frame k (mapper.modify change k))
    (alloc : ∀ change k, (mapper.modify change k).alloc = k.alloc) :
    P (idMapperCreate kalloc mapper k).alloc ∧ Frame k (idMapperCreate kalloc mapper k) := by
  obtain ⟨stays, frame⟩ := tame.table (linkedlistCreate_tablePath (α := Nat × Nat) k) mode
  unfold idMapperCreate
  dsimp only
  rw [alloc]
  exact ⟨stays, frame.trans (edit _ _)⟩

theorem blank_wellLinked (mode : P k.alloc) (blank : k.core = Core.blank pmem) : WellLinked P k := by
  refine ⟨mode, (blank_orderly blank).coherent.linked, fun w isKernel => ?_⟩
  rw [blank] at isKernel
  cases isKernel

/-- The kernel's address space is the one `vmem_initialize` creates. -/
theorem vmemInitialize_wellLinked (tame : Tame P kalloc) (well : WellLinked P k) :
    WellLinked P (vmemInitialize kalloc k) := by
  obtain ⟨idMode, idFrame⟩ := idMapperCreate_frame vmemIdMapper tame well.mode Frame.vmemIds
    (fun _ _ => rfl)
  have before := well.of_frame idMode idFrame
  have created := vmemCreate_wellLinked tame before
  have kernel : ∀ w ∈ (vmemCreate kalloc (idMapperCreate kalloc vmemIdMapper k)).1,
      w < (vmemCreate kalloc (idMapperCreate kalloc vmemIdMapper k)).2.core.vmems.count := by
    intro w isKernel
    have result := (vmemCreate_relinks tame before.mode before.linked before.kernel).2
    generalize vmemCreate kalloc (idMapperCreate kalloc vmemIdMapper k) = made at isKernel result ⊢
    rw [Option.mem_def] at isKernel
    rcases result with ⟨failed, -⟩ | ⟨done, -, success, new, -⟩
    · rw [failed] at isKernel
      cases isKernel
    · have isNew := (success (by rw [isKernel]; simp)).1
      rw [isKernel] at isNew
      have count : made.2.core.vmems.count = (idMapperCreate kalloc vmemIdMapper k).core.vmems.count + 1 :=
        new.links.vmemCount.trans (Space.attachAll_counts _ done _).1
      have isW := Option.some.inj isNew
      omega
  unfold vmemInitialize
  dsimp only
  exact ⟨created.mode, created.linked, kernel⟩

theorem vmemStart_wellLinked (tame : Tame P kalloc) (mode : P k.alloc) (blank : k.core = Core.blank pmem) :
    WellLinked P (vmemStart kalloc k) ∧ (vmemStart kalloc k).core.kernelVmem =
      (vmemCreate kalloc (idMapperCreate kalloc vmemIdMapper k)).1 := by
  have initialized := vmemInitialize_wellLinked tame (blank_wellLinked mode blank)
  obtain ⟨regionMode, regionFrame⟩ := idMapperCreate_frame vmemRegionMapper tame initialized.mode
    Frame.regionIds (fun _ _ => rfl)
  exact ⟨initialized.of_frame regionMode regionFrame, regionFrame.kernelVmem⟩

/-- In every state of every run the two sides of the links agree. -/
theorem VmemRun.wellLinked (tame : Tame P kalloc) (mode : P k₀.alloc) (blank : k₀.core = Core.blank pmem)
    (run : VmemRun kalloc k₀ k) : WellLinked P k := by
  induction run with
  | start => exact (vmemStart_wellLinked tame mode blank).1
  | step _ valid ih => exact VmemOp.wellLinked tame ih valid

end BubackOS
