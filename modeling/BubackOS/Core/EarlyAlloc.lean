import BubackOS.Core.Alloc
import BubackOS.Core.QuietAllocator

/-!
# `kalloc` step by step, and before its initialisation

The branches of `ensure_free_memory` and the effect of taking a block.  Until
`memory_allocator_initialize` has returned, `kalloc` moves the counters of the
platform and the heap pointer and returns zeroed memory: it is quiet, and no
call fails for want of pages.
-/

namespace BubackOS

open Library

/-! ## Taking a block -/

@[simp] theorem Kernel.setAlloc_alloc (a : Allocator) (k : Kernel) : (k.setAlloc a).alloc = a := rfl

theorem Allocator.expand_blocks (newSize : Nat) (a : Allocator) :
    (a.expand newSize).blocks = a.blocks := rfl

theorem Allocator.expand_initialised (newSize : Nat) (a : Allocator) :
    (a.expand newSize).memAllocatorInitialised = a.memAllocatorInitialised := rfl

namespace Kernel

variable (k : Kernel) (size : Nat)

@[simp] theorem located_core : k.located.core = k.core := rfl

theorem located_alloc : k.located.alloc = getCurrentMemoryPtr k.alloc := rfl

@[simp] theorem located_blocks : k.located.alloc.blocks = k.alloc.blocks := by
  rw [located_alloc, getCurrentMemoryPtr]
  split <;> rfl

@[simp] theorem located_initialised :
    k.located.alloc.memAllocatorInitialised = k.alloc.memAllocatorInitialised := by
  rw [located_alloc, getCurrentMemoryPtr]
  split <;> rfl

theorem takeBlock_core : (k.takeBlock size).2.core = k.core := rfl

theorem takeBlock_blocks : (k.takeBlock size).2.alloc.blocks =
    { addr := (k.takeBlock size).1, size := size } :: k.alloc.blocks :=
  congrArg (List.cons _) k.located_blocks

theorem takeBlock_initialised : (k.takeBlock size).2.alloc.memAllocatorInitialised =
    k.alloc.memAllocatorInitialised := k.located_initialised

theorem takeBlock_zeroed : (k.takeBlock size).2.mem.Zeroed (k.takeBlock size).1 size :=
  Memory.clear_zeroed k.mem _ size

theorem takeBlock_outside {a : Nat}
    (outside : ¬ ((k.takeBlock size).1 ≤ a ∧ a < (k.takeBlock size).1 + size)) :
    (k.takeBlock size).2.mem a = k.mem a :=
  if_neg outside

end Kernel

/-- One level of `kalloc`, without the name for its intermediate result. -/
theorem kallocBody_eq (nested : Kalloc) (size : Nat) (k : Kernel) : kallocBody nested size k =
    if (ensureFreeMemory nested size k).1 then (ensureFreeMemory nested size k).2.takeBlock size
    else (ensureFreeMemory nested size k).2.refuse size := rfl

/-! ## The early mode -/

/-- The mode of the allocator before its initialisation. -/
def Early (a : Allocator) : Prop := a.memAllocatorInitialised = false

/-- The state in which an early request is served. -/
def Kernel.ensureEarly (size : Nat) (k : Kernel) : Kernel :=
  if k.located.kernelDataSize < minimumRequiredSize k.located.alloc size then
    k.located.setAlloc (k.located.alloc.expand (grownSize (minimumRequiredSize k.located.alloc size)))
  else k.located

theorem ensureEarly_mem (size : Nat) (k : Kernel) : (k.ensureEarly size).mem = k.mem := by
  unfold Kernel.ensureEarly
  split <;> rfl

theorem ensureEarly_core (size : Nat) (k : Kernel) : (k.ensureEarly size).core = k.core := by
  unfold Kernel.ensureEarly
  split <;> rfl

theorem ensureEarly_blocks (size : Nat) (k : Kernel) :
    (k.ensureEarly size).alloc.blocks = k.alloc.blocks := by
  unfold Kernel.ensureEarly
  split
  · rw [Kernel.setAlloc_alloc, Allocator.expand_blocks, Kernel.located_blocks]
  · exact k.located_blocks

theorem ensureEarly_early {k : Kernel} (early : Early k.alloc) (size : Nat) :
    Early (k.ensureEarly size).alloc := by
  unfold Kernel.ensureEarly
  split
  · rw [Early, Kernel.setAlloc_alloc, Allocator.expand_initialised, Kernel.located_initialised]
    exact early
  · exact k.located_initialised.trans early

theorem kallocBody_early {nested : Kalloc} {size : Nat} {k : Kernel} (early : Early k.alloc) :
    kallocBody nested size k = (k.ensureEarly size).takeBlock size := by
  have located : k.located.alloc.memAllocatorInitialised = false := k.located_initialised.trans early
  have ensured : ensureFreeMemory nested size k = (true, k.ensureEarly size) := by
    unfold ensureFreeMemory Kernel.ensureEarly
    split
    · rw [expandKernelData, located]
      rfl
    · rfl
  rw [kallocBody, ensured]
  rfl

theorem kalloc_early {size : Nat} {k : Kernel} (early : Early k.alloc) :
    kalloc size k = (k.ensureEarly size).takeBlock size := by
  rw [kalloc, kallocFuel, kallocBody_early early]

theorem kalloc_quiet : Quiet Early kalloc := by
  constructor
  · intro size k early
    rw [kalloc_early early, Early, Kernel.takeBlock_initialised]
    exact ensureEarly_early early size
  · intro size k early
    rw [kalloc_early early, Kernel.takeBlock_core, ensureEarly_core]
  · intro size k early
    rw [kalloc_early early, Kernel.takeBlock_blocks, ensureEarly_blocks]
  · intro size k early _
    rw [kalloc_early early]
    exact Kernel.takeBlock_zeroed _ size
  · intro size k early a outside
    rw [kalloc_early early] at outside ⊢
    rw [Kernel.takeBlock_outside _ _ outside, ensureEarly_mem]

end BubackOS
