import BubackOS.Core.Termination

/-!
# Roots of page tables

No allocation, no new region and no growing one gives an existing address space another
root table or loads another one: what the processor walks is left to `native_vmem_switch`.
-/

namespace BubackOS

open Library

/-- The loaded table is the same, and so are the roots of the address spaces there are. -/
structure SameRoots (k k' : Kernel) : Prop where
  cr3 : k'.core.cr3 = k.core.cr3
  count : k.core.vmems.count ≤ k'.core.vmems.count
  root : ∀ v < k.core.vmems.count, (k'.native v).entries = (k.native v).entries

variable {kalloc : Kalloc} {k k' k'' : Kernel} {T : Set Nat} {v : Nat}

namespace SameRoots

theorem refl (k : Kernel) : SameRoots k k := ⟨rfl, Nat.le_refl _, fun _ _ => rfl⟩

theorem trans (first : SameRoots k k') (second : SameRoots k' k'') : SameRoots k k'' :=
  ⟨second.cr3.trans first.cr3, first.count.trans second.count, fun v known =>
    (second.root v (known.trans_le first.count)).trans (first.root v known)⟩

/-- A change outside the address spaces. -/
theorem of_vmems (cr3 : k'.core.cr3 = k.core.cr3) (vmems : k'.core.vmems = k.core.vmems) : SameRoots k k' := by
  refine ⟨cr3, by rw [vmems], fun v _ => ?_⟩
  unfold Kernel.native Kernel.vmem
  rw [vmems]

theorem of_core (core : k'.core = k.core) : SameRoots k k' :=
  of_vmems (by rw [core]) (by rw [core])

/-- A change of an address space that is not one of its root. -/
theorem modifyVmem {change : Vmem → Vmem}
    (root : (change (k.vmem v)).nativeVmem.entries = (k.vmem v).nativeVmem.entries) :
    SameRoots k (k.modifyVmem v change) := by
  refine ⟨rfl, Nat.le_refl _, fun w _ => ?_⟩
  unfold Kernel.native
  by_cases here : w = v
  · subst here
    rw [Kernel.vmem_modifyVmem_self]
    exact root
  · rw [Kernel.vmem_modifyVmem_of_ne here]

theorem pmemAllocate (k : Kernel) : SameRoots k (pmemAllocate k).2 :=
  pmemAllocate_cases (of_vmems rfl rfl) (of_vmems rfl rfl)

theorem mapStep (calls : ∀ size, SameRoots k (kalloc size k).2) (step : MapStep kalloc k k') :
    SameRoots k k' := by
  cases step with
  | call size => exact calls size
  | write => exact of_core rfl
  | native v change root => exact modifyVmem (root _)

theorem growthStep (calls : ∀ size, SameRoots k (kalloc size k).2) (step : GrowthStep kalloc T k k') :
    SameRoots k k' := by
  cases step with
  | notify step =>
      cases step with
      | table step => exact mapStep calls step
      | appendMap v entry => exact modifyVmem rfl
      | annotate => exact of_vmems rfl rfl
  | appendPage => exact of_vmems rfl rfl
  | associate => exact of_vmems rfl rfl
  | grow => exact (pmemAllocate k).trans (of_vmems rfl rfl)
  | exhaust => exact pmemAllocate k
  | declare => exact of_vmems rfl rfl

theorem recordStep (calls : ∀ size, SameRoots k (kalloc size k).2) (step : RecordStep kalloc 0 0 k k') :
    SameRoots k k' := by
  cases step with
  | table step => exact mapStep calls step
  | appendRegion v r => exact modifyVmem rfl
  | detach v r =>
      have unlisted : SameRoots k ((regionsOf v).modify (·.erase r) k) := modifyVmem rfl
      exact unlisted.trans (of_vmems rfl rfl)
  | nextStart v => exact modifyVmem rfl
  | newVmem =>
      refine ⟨rfl, Nat.le_succ _, fun v known => ?_⟩
      have other : v ≠ k.core.vmems.count := by omega
      unfold Kernel.native Kernel.vmem Kernel.newVmem
      rw [Store.new_get_of_ne other]
  | setRegions => exact modifyVmem rfl
  | setMap => exact modifyVmem rfl
  | setVmemId => exact modifyVmem rfl
  | appendAttached | newRegion | setPages | setAttached | setRegionId | vmemIds | regionIds =>
      exact of_vmems rfl rfl

end SameRoots

theorem sameRoots_closed : GrowthClosed SameRoots where
  toHeapClosed := .of_core SameRoots.trans SameRoots.of_core
  grow := fun calls k _ step => SameRoots.growthStep (fun size => calls size k) step

theorem kalloc_sameRoots (size : Nat) (k : Kernel) : SameRoots k (BubackOS.kalloc size k).2 :=
  sameRoots_closed.calls.kalloc size k

/-- The services for regions keep the roots if the allocator does. -/
theorem sameRoots_composed (calls : ∀ size k, SameRoots k (kalloc size k).2) :
    Composed kalloc 0 0 Set.univ SameRoots where
  refl := SameRoots.refl
  trans := SameRoots.trans
  record := fun step => SameRoots.recordStep (fun size => calls size _) step
  replay := fun v r k => sameRoots_closed.path calls (replayPages_notifyPath v r k).growth
  resize := fun _ newSize k =>
    sameRoots_closed.path calls (vmemRegionResize_growthPath _ (fun r _ => Set.mem_univ r) newSize k)

theorem vmemRegionCreate_sameRoots (calls : ∀ size k, SameRoots k (kalloc size k).2) (vmem : Option Nat)
    (name : Option String) (start size : Nat) (user writable executable : Bool) (k : Kernel) :
    SameRoots k (vmemRegionCreate kalloc vmem name start size user writable executable k).2 :=
  (sameRoots_composed calls).createRegion vmem name start size user writable executable k
    fun _ _ => ⟨Nat.zero_le _, Set.mem_univ _⟩

end BubackOS
