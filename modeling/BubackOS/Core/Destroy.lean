import BubackOS.Core.RegionRanges

/-!
# Destroyed address spaces

`vmem_destroy` releases the lists of the address space and does not look at its
regions, so a region keeps listing it.  A `vmem_create` that fails after it attached
regions ends with such a destruction.
-/

namespace BubackOS

open Library

variable {k k' k₀ : Kernel} {v r : Nat} {pmem : Pmem}

theorem destroyNodes_eq {α : Type} (nodes : List α) : ∀ k, destroyNodes nodes k = k := by
  induction nodes with
  | nil => exact fun _ => rfl
  | cons _ rest ih => exact ih

theorem linkedlistDestroy_eq {α : Type} (list : LinkedList α) (k : Kernel) : linkedlistDestroy list k = k := by
  cases list with
  | none => rfl
  | some items => exact destroyNodes_eq _ k

/-- Nothing is reclaimed, so nothing changes. -/
theorem vmemDestroy_eq (vmem : Option Nat) (k : Kernel) : vmemDestroy vmem k = k := by
  cases vmem with
  | none => rfl
  | some v =>
      unfold vmemDestroy
      dsimp only
      rw [linkedlistDestroy_eq, linkedlistDestroy_eq]
      rfl

/-- No region lists the address space. -/
def Unattached (v : Nat) (k : Kernel) : Prop := ∀ r, v ∉ (k.region r).attached.items

/-! ## Runs in which memory runs out -/

/-- One call; any of the requests a service makes may be refused. -/
inductive FaultyStep (k : Kernel) : Kernel → Prop where
  | call (size : Nat) : FaultyStep k (kalloc size k).2
  | service {op : VmemOp} (fails : Nat → Kernel → Bool) (valid : op.Valid k) :
      FaultyStep k (op.run (refuseWhen fails kalloc) k)
  | destroy (vmem : Option Nat) : FaultyStep k (vmemDestroy vmem k)
  | initialise : FaultyStep k (memoryAllocatorInitialize k).2

/-- Any number of calls. -/
def FaultyRun : Kernel → Kernel → Prop := Relation.ReflTransGen FaultyStep

theorem refuseWhen_steady (fails : Nat → Kernel → Bool) (size : Nat) (k : Kernel) :
    Steady Set.univ k (refuseWhen fails kalloc size k).2 :=
  refuseWhen_calls kalloc_steady (fun _ _ => Steady.of_core rfl) fails size k

theorem FaultyStep.referenced (step : FaultyStep k k') (referenced : Referenced k) : Referenced k' := by
  cases step with
  | call size => exact referenced.call size
  | service fails valid => exact VmemOp.referenced (refuseWhen_tame fails) (refuseWhen_steady fails) referenced valid
  | destroy vmem =>
      rw [vmemDestroy_eq]
      exact referenced
  | initialise => exact referenced_boot.initialise k referenced

theorem FaultyRun.referenced (run : FaultyRun k k') (referenced : Referenced k) : Referenced k' := by
  induction run with
  | refl => exact referenced
  | tail _ step ih => exact step.referenced ih

/-- Calls that are all served are among them. -/
theorem Reached.faultyRun (reached : Reached kalloc k₀ k) : FaultyRun (vmemStart kalloc k₀) k := by
  induction reached with
  | start => exact .refl
  | step _ proper ih => exact ih.tail (.service (fun _ _ => false) proper.valid)

/-! ## A creation that fails -/

/-- No region lists a new address space exactly if none of the kernel's regions was attached to it. -/
theorem create_unattached_iff {kalloc : Kalloc} (tame : Tame (fun _ => True) kalloc)
    (well : WellLinked (fun _ => True) k) :
    Unattached k.core.vmems.count (vmemCreate kalloc k).2 ↔ AttachesNothing kalloc k := by
  have free : ∀ r, k.core.vmems.count ∉ k.space.attached r := fun r => (well.linked.newVmem_free r).2
  have after : WellLinked (fun _ => True) (VmemOp.run kalloc k .create) := VmemOp.wellLinked tame well trivial
  rw [VmemOp.run_create] at after
  obtain ⟨-, ⟨-, same, nothing⟩ | ⟨done, -, -, new, nothing⟩⟩ :=
    vmemCreate_relinks tame well.mode well.linked well.kernel
  · refine iff_of_true (fun r member => free r ?_) nothing
    have here : k.core.vmems.count ∈ (vmemCreate kalloc k).2.space.attached r := member
    rwa [same.links.attached] at here
  · rw [← nothing]
    constructor
    · intro unattached
      refine List.eq_nil_iff_forall_not_mem.mpr fun r member => unattached r ?_
      refine (after.linked.symmetric _ r).mp ?_
      rw [new.links.regions, Space.mem_attachAll]
      exact Or.inr ⟨rfl, member⟩
    · intro none r member
      have here : k.core.vmems.count ∈ (vmemCreate kalloc k).2.space.attached r := member
      rw [new.links.attached, none] at here
      exact free r here

/-- In every state of every run, whichever requests are refused: after `vmem_destroy(v)` no region lists `v`
exactly if none did before, and after a `vmem_create` that returns `NULL` no region lists the new address space
exactly if the call got to no region of the kernel. -/
theorem unattached_after_destroy_iff (blank : k₀.core = Core.blank pmem) (refused fails : Nat → Kernel → Bool)
    (run : FaultyRun (vmemStart (refuseWhen refused kalloc) k₀) k) :
    (∀ v, Unattached v (vmemDestroy (some v) k) ↔ Unattached v k) ∧
    ((vmemCreate (refuseWhen fails kalloc) k).1 = none →
      (Unattached k.core.vmems.count (vmemCreate (refuseWhen fails kalloc) k).2 ↔
        AttachesNothing (refuseWhen fails kalloc) k)) := by
  have referenced := run.referenced (vmemStart_referenced (refuseWhen_tame refused) blank)
  exact ⟨fun v => by rw [vmemDestroy_eq], fun _ => create_unattached_iff (refuseWhen_tame fails) referenced.well⟩

/-- Memory that lasts for so many requests. -/
def lasting (limit : Nat) : Kalloc := refuseWhen (fun _ k => decide (limit ≤ k.alloc.blocks.length)) kalloc

/-- Memory ends when the third address space is attached to the kernel's region, and nothing is left behind. -/
theorem unattached_after_destroy_iff_sampleVmems : (vmemCreate (lasting 51) sampleVmems).1 = none ∧
    Unattached 2 (vmemCreate (lasting 51) sampleVmems).2 := by
  have blank : sampleKernel.core = Core.blank sampleKernel.core.pmem := rfl
  have run : (vmemCreate (lasting 51) sampleVmems).1 = none ∧ sampleVmems.core.vmems.count = 2 ∧
      AttachesNothing (lasting 51) sampleVmems := by
    unfold AttachesNothing
    decide +kernel
  obtain ⟨failed, count, nothing⟩ := run
  have facts := (unattached_after_destroy_iff blank (fun _ _ => false) _ sampleVmems_reached.faultyRun).2 failed
  rw [count] at facts
  exact ⟨failed, facts.mpr nothing⟩

/-- The region of `sampleVmems` lists the destroyed address space `1`; and when memory ends before
the third address space has its id, the region lists that one as well. -/
theorem destroyed_still_attached : 1 ∈ ((vmemDestroy (some 1) sampleVmems).region 0).attached.items ∧
    (vmemCreate (lasting 52) sampleVmems).1 = none ∧
    2 ∈ ((vmemCreate (lasting 52) sampleVmems).2.region 0).attached.items := by
  decide +kernel

end BubackOS
