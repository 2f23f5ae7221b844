import BubackOS.Core.Failures

/-!
# The services with enough memory

As long as no call of `kalloc` and no `pmem_allocate` fails, the only thing that can stop a
service is an argument it refuses.  The memory is judged at the end: the log and the
history only get longer, so what is not in them then has not happened before.
-/

namespace BubackOS

open Library

variable {kalloc : Kalloc} {k k' k'' : Kernel} {r : Nat}

/-! ## Identifiers of regions -/

/-- The mapper of the regions is left alone. -/
def SameIds (k k' : Kernel) : Prop := k'.core.vmemRegionMapper = k.core.vmemRegionMapper

theorem SameIds.trans (first : SameIds k k') (second : SameIds k' k'') : SameIds k k'' := Eq.trans second first

theorem SameIds.pmemAllocate (k : Kernel) : SameIds k (pmemAllocate k).2 :=
  pmemAllocate_cases (P := SameIds k) rfl rfl

theorem sameIds_closed : GrowthClosed SameIds where
  toHeapClosed := .of_core SameIds.trans fun core => by rw [SameIds, core]
  grow := by
    intro nested calls k k' step
    cases step with
    | notify step =>
        cases step with
        | table step =>
            cases step with
            | call size => exact calls size k
            | write => rfl
            | native => rfl
        | appendMap => rfl
        | annotate => rfl
    | appendPage => rfl
    | associate => rfl
    | grow => exact SameIds.pmemAllocate k
    | exhaust => exact SameIds.pmemAllocate k
    | declare => rfl

theorem sameIds_attaching (calls : ∀ size k, SameIds k (kalloc size k).2) : Attaching kalloc SameIds where
  refl := fun _ => rfl
  trans := SameIds.trans
  call := calls
  appendRegion := fun _ _ _ => rfl
  appendAttached := fun _ _ _ => rfl
  detach := fun _ _ _ => rfl
  replay := fun v r k => sameIds_closed.path calls (replayPages_notifyPath v r k).growth

theorem regionRecord_sameIds (calls : ∀ size k, SameIds k (kalloc size k).2) (name : String) (start : Nat)
    (user writable executable : Bool) (k : Kernel) :
    SameIds k (regionRecord kalloc name start user writable executable k) := by
  have create : ∀ k : Kernel, SameIds k (linkedlistCreate (α := Nat) kalloc k).2 := by
    intro k
    unfold linkedlistCreate
    dsimp only
    split <;> exact calls _ k
  unfold regionRecord
  dsimp only
  exact Eq.trans (create _) (create (k.newRegion _))

/-! ## Enough memory -/

/-- No request for memory has failed. -/
structure Ample (k : Kernel) : Prop where
  served : Served k.alloc.blocks
  pages : Event.outOfPages ∉ k.core.trace

instance (k : Kernel) : Decidable (Ample k) :=
  decidable_of_iff (Served k.alloc.blocks ∧ Event.outOfPages ∉ k.core.trace)
    ⟨fun ⟨served, pages⟩ => ⟨served, pages⟩, fun ⟨served, pages⟩ => ⟨served, pages⟩⟩

theorem Ample.earlier (ample : Ample k') (later : Later k k') : Ample k where
  served := ample.served.of_suffix later.blocks
  pages := fun failed => ample.pages (later.trace.subset failed)

/-- What the services rely on in an allocator. -/
structure Reliable (kalloc : Kalloc) : Prop where
  honest : Honest kalloc
  later : ∀ size k, Later k (kalloc size k).2
  frame : ∀ size k, Frame k (kalloc size k).2
  beside : ∀ r size k, Beside r k (kalloc size k).2
  sameIds : ∀ size k, SameIds k (kalloc size k).2

theorem kalloc_reliable : Reliable BubackOS.kalloc where
  honest := kalloc_honest
  later := later_closed.growth.calls.kalloc
  frame := frame_closed.calls.kalloc
  beside := kalloc_beside
  sameIds := sameIds_closed.calls.kalloc

namespace Reliable

variable (reliable : Reliable kalloc)

include reliable

theorem tame : Tame (fun _ => True) kalloc := ⟨fun _ _ mode => mode, fun size k _ => reliable.frame size k⟩

theorem laterOf (path : AnyPath kalloc k k') : Later k k' := later_closed.path reliable.later path

end Reliable

/-! ## Growing -/

/-- With enough pages the allocation loop of a resize makes all its rounds. -/
theorem resizeLoop_ample (count : Nat) :
    ∀ k : Kernel, Ample (resizeLoop kalloc r count k).2 → (resizeLoop kalloc r count k).1 = true := by
  induction count with
  | zero => exact fun _ _ => rfl
  | succ count ih =>
      intro k ample
      unfold resizeLoop at ample ⊢
      dsimp only at ample ⊢
      split at ample
      · rename_i failed
        rw [pmemAllocate_of_failure failed] at ample
        exact absurd List.mem_cons_self ample.pages
      · rename_i found
        rw [if_neg found]
        exact ih _ ample

theorem vmemRegionResize_ample {newSize : Nat} (ample : Ample (vmemRegionResize kalloc (some r) newSize k).2) :
    (vmemRegionResize kalloc (some r) newSize k).1 = true := by
  rw [vmemRegionResize_eq] at ample ⊢
  split at ample
  · rename_i small
    rw [if_pos small]
  · rename_i large
    rw [if_neg large]
    exact resizeLoop_ample _ k ⟨ample.served, ample.pages⟩

end BubackOS
