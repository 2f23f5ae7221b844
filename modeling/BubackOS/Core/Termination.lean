import BubackOS.Core.Congruence
import BubackOS.Core.EarlyAlloc

/-!
# `kalloc` terminates

`kalloc` and `vmem_region_resize` call each other.  A nested call comes only after
`pmem_allocate` has taken a page, so the depth of the nesting is bounded by the
number of free pages: beyond it, the result does not depend on how deep the model
may go, nor on what would happen there.
-/

namespace BubackOS

open Library

/-! ## What holds along every call -/

/-- Failed calls are in the log. -/
def Honest (kalloc : Kalloc) : Prop := ∀ size k, Served (kalloc size k).2.alloc.blocks → (kalloc size k).1 ≠ 0

theorem refuse_honest : Honest Kernel.refuse := fun _ _ served => absurd rfl (served _ List.mem_cons_self)

theorem kallocBody_honest (nested : Kalloc) : Honest (kallocBody nested) := by
  intro size k served
  rw [kallocBody_eq] at served ⊢
  split at served
  · rename_i ensured
    rw [if_pos ensured]
    exact served _ List.mem_cons_self
  · exact absurd rfl (served _ List.mem_cons_self)

theorem kallocFuel_honest (fuel : Nat) : Honest (kallocFuel Kernel.refuse fuel) := by
  cases fuel with
  | zero => exact refuse_honest
  | succ fuel => exact kallocBody_honest _

section Relation

variable {R : Kernel → Kernel → Prop} {N M : Nat}

/-- A relation kept by what `kalloc` does to the heap itself. -/
structure HeapClosed (R : Kernel → Kernel → Prop) : Prop where
  refl : ∀ k, R k k
  trans : ∀ {k k' k''}, R k k' → R k' k'' → R k k''
  locate : ∀ k : Kernel, R k k.located
  expand : ∀ newSize (k : Kernel), R k (k.setAlloc (k.alloc.expand newSize))
  take : ∀ size (k : Kernel), R k (k.takeBlock size).2
  refuse : ∀ size (k : Kernel), R k (k.refuse size).2

/-- The heap is not part of the kernel's records. -/
theorem HeapClosed.of_core (trans : ∀ {k k' k''}, R k k' → R k' k'' → R k k'')
    (core : ∀ {k k' : Kernel}, k'.core = k.core → R k k') : HeapClosed R where
  refl := fun _ => core rfl
  trans := trans
  locate := fun k => core k.located_core
  expand := fun _ _ => core rfl
  take := fun size k => core (k.takeBlock_core size)
  refuse := fun _ _ => core rfl

/-- A relation kept by the growth of the kernel-data region as well. -/
structure CallClosed (R : Kernel → Kernel → Prop) : Prop extends HeapClosed R where
  resize : ∀ {nested : Kalloc}, Honest nested → (∀ size k, R k (nested size k).2) →
    ∀ {k : Kernel} {r : Nat}, k.core.kernelDataVmemRegion = some r →
      ∀ newSize, R k (vmemRegionResize nested (some r) newSize k).2

/-- A relation kept by every growing region as well. -/
structure GrowthClosed (R : Kernel → Kernel → Prop) : Prop extends HeapClosed R where
  grow : ∀ {nested : Kalloc}, (∀ size k, R k (nested size k).2) →
    ∀ {k k'}, GrowthStep nested Set.univ k k' → R k k'

/-- A relation kept by the services as well. -/
structure Closed (N M : Nat) (R : Kernel → Kernel → Prop) : Prop extends HeapClosed R where
  step : ∀ {nested : Kalloc}, (∀ size k, R k (nested size k).2) →
    ∀ {k k'}, Transition nested N M Set.univ k k' → R k k'

namespace CallClosed

theorem ensureFreeMemory (closed : CallClosed R) {nested : Kalloc} (honest : Honest nested)
    (calls : ∀ size k, R k (nested size k).2) (size : Nat) (k : Kernel) :
    R k (ensureFreeMemory nested size k).2 := by
  refine closed.trans (closed.locate k) ?_
  unfold BubackOS.ensureFreeMemory
  split
  · generalize grownSize (minimumRequiredSize k.located.alloc size) = newSize
    unfold expandKernelData
    have expanded := closed.expand newSize k.located
    split
    · cases data : k.located.core.kernelDataVmemRegion with
      | none => exact expanded
      | some r =>
          have same : (k.located.setAlloc (k.located.alloc.expand newSize)).core.kernelDataVmemRegion = some r :=
            data
          exact closed.trans expanded (closed.resize honest calls same newSize)
    · exact expanded
  · exact closed.refl _

theorem body (closed : CallClosed R) {nested : Kalloc} (honest : Honest nested)
    (calls : ∀ size k, R k (nested size k).2) (size : Nat) (k : Kernel) : R k (kallocBody nested size k).2 := by
  have ensured := closed.ensureFreeMemory honest calls size k
  rw [kallocBody_eq]
  split
  · exact closed.trans ensured (closed.take size _)
  · exact closed.trans ensured (closed.refuse size _)

/-- At every depth. -/
theorem fuel (closed : CallClosed R) (fuel : Nat) :
    ∀ size k, R k (kallocFuel Kernel.refuse fuel size k).2 := by
  induction fuel with
  | zero => exact closed.refuse
  | succ fuel ih => exact closed.body (kallocFuel_honest fuel) ih

end CallClosed

namespace GrowthClosed

theorem path (closed : GrowthClosed R) {nested : Kalloc} (calls : ∀ size k, R k (nested size k).2)
    {k k' : Kernel} (path : GrowthPath nested Set.univ k k') : R k k' := by
  induction path with
  | refl => exact closed.refl k
  | tail _ step ih => exact closed.trans ih (closed.grow calls step)

theorem calls (closed : GrowthClosed R) : CallClosed R where
  toHeapClosed := closed.toHeapClosed
  resize := fun _ calls k r _ newSize =>
    closed.path calls (vmemRegionResize_growthPath (some r) (fun r _ => Set.mem_univ r) newSize k)

end GrowthClosed

namespace Closed

theorem growth (closed : Closed N M R) : GrowthClosed R where
  toHeapClosed := closed.toHeapClosed
  grow := fun calls _ _ step => closed.step calls step.transition

theorem path (closed : Closed N M R) {nested : Kalloc} (calls : ∀ size k, R k (nested size k).2)
    {k k' : Kernel} (path : Path nested N M Set.univ k k') : R k k' := by
  induction path with
  | refl => exact closed.refl k
  | tail _ step ih => exact closed.trans ih (closed.step calls step)

end Closed

end Relation

/-! ## Free pages -/

/-- No free page appears. -/
def Frugal (k k' : Kernel) : Prop := k'.core.pmem.freePages ≤ k.core.pmem.freePages

theorem grow_freePages {k : Kernel} (r paddr : Nat) (found : (pmemAllocate k).1 ≠ 0) :
    ((pmemAllocate k).2.beginAssociate r paddr).core.pmem.freePages + 1 = k.core.pmem.freePages := by
  rw [pmemAllocate_of_success found]
  rw [pmemAllocate_fst] at found
  exact Pmem.allocate_freePages found

theorem Frugal.of_core {k k' : Kernel} (core : k'.core = k.core) : Frugal k k' := by rw [Frugal, core]

theorem frugal_closed : Closed 0 0 Frugal where
  toHeapClosed := .of_core (fun first second => Nat.le_trans second first) Frugal.of_core
  step := by
    intro nested calls k k' step
    cases step with
    | table step =>
        cases step with
        | call size => exact calls size k
        | write => exact Nat.le_refl _
        | native => exact Nat.le_refl _
    | @grow _ r found =>
        have taken := grow_freePages r (pmemAllocate k).1 found
        unfold Frugal
        omega
    | exhaust failed =>
        rw [Frugal, pmemAllocate_of_failure failed]
        exact Pmem.allocate_freePages_le _
    | _ => exact Nat.le_refl _

/-! ## The depth of the recursion -/

theorem ensureFreeMemory_congr {f g : Kalloc} {size : Nat} {k : Kernel}
    (same : ∀ r newSize, k.core.kernelDataVmemRegion = some r →
      SameGrowing f g r (k.located.setAlloc (k.located.alloc.expand newSize))
        (vmemRegionResize g (some r) newSize
          (k.located.setAlloc (k.located.alloc.expand newSize))).2) :
    ensureFreeMemory f size k = ensureFreeMemory g size k := by
  unfold ensureFreeMemory
  split
  · generalize grownSize (minimumRequiredSize k.located.alloc size) = newSize
    unfold expandKernelData
    split
    · rw [Kernel.located_core]
      refine vmemRegionResize_congr fun r isData => ?_
      rw [isData]
      exact same r newSize isData
    · rfl
  · rfl

/-- The calls of a growing region have fewer free pages than the region had. -/
theorem sameGrowing_of_fewer {f g : Kalloc} {r n : Nat} {k k' : Kernel}
    (frugal : ∀ size k, Frugal k (g size k).2) (few : k.core.pmem.freePages ≤ n)
    (agree : ∀ size x, x.core.pmem.freePages + 1 ≤ n → f size x = g size x) :
    SameGrowing f g r k k' := by
  intro size x middle found reach begun _
  have before : Frugal k middle := frugal_closed.path frugal reach
  have after : Frugal _ x := frugal_closed.path frugal begun
  have taken := grow_freePages r (pmemAllocate middle).1 found
  unfold Frugal at before after
  exact agree size x (by omega)

theorem kallocBody_congr {f g : Kalloc} {size n : Nat} {k : Kernel}
    (frugal : ∀ size k, Frugal k (g size k).2) (few : k.core.pmem.freePages ≤ n)
    (agree : ∀ size x, x.core.pmem.freePages + 1 ≤ n → f size x = g size x) :
    kallocBody f size k = kallocBody g size k := by
  rw [kallocBody_eq, kallocBody_eq, ensureFreeMemory_congr fun r newSize _ => sameGrowing_of_fewer frugal few agree]

/-- With more levels than free pages, neither the levels nor the bottom matter. -/
theorem kallocFuel_stable (n : Nat) :
    ∀ (size : Nat) (k : Kernel), k.core.pmem.freePages ≤ n → ∀ (bottom : Kalloc) (fuel : Nat), n < fuel →
      kallocFuel bottom fuel size k = kallocFuel Kernel.refuse (n + 1) size k := by
  induction n with
  | zero =>
      intro size k few bottom fuel enough
      obtain ⟨fuel, rfl⟩ : ∃ rest, fuel = rest + 1 := ⟨fuel - 1, by omega⟩
      rw [kallocFuel, kallocFuel]
      exact kallocBody_congr (frugal_closed.growth.calls.fuel 0) few fun size x none => by omega
  | succ n ih =>
      intro size k few bottom fuel enough
      obtain ⟨fuel, rfl⟩ : ∃ rest, fuel = rest + 1 := ⟨fuel - 1, by omega⟩
      rw [kallocFuel, kallocFuel]
      refine kallocBody_congr (frugal_closed.growth.calls.fuel (n + 1)) few fun size x fewer => ?_
      exact ih size x (by omega) bottom fuel (by omega)

/-- Any depth beyond the number of free pages gives `kalloc`. -/
theorem kallocFuel_eq_kalloc (bottom : Kalloc) (fuel size : Nat) (k : Kernel)
    (enough : k.core.pmem.freePages < fuel) : kallocFuel bottom fuel size k = kalloc size k := by
  have bound := Pmem.freePages_le k.core.pmem
  rw [kalloc, kallocFuel_stable _ size k (Nat.le_refl _) bottom fuel enough,
    kallocFuel_stable _ size k (Nat.le_refl _) cutOff _ (by omega)]

/-- `kalloc` unfolds into one level of itself: the recursion of the source. -/
theorem kalloc_eq_body (size : Nat) (k : Kernel) : kalloc size k = kallocBody kalloc size k := by
  rw [← kallocFuel_eq_kalloc Kernel.refuse (k.core.pmem.freePages + 1) size k (Nat.lt_succ_self _),
    kallocFuel]
  refine (kallocBody_congr (frugal_closed.growth.calls.fuel _) (Nat.le_refl _) fun size x fewer => ?_).symm
  exact (kallocFuel_eq_kalloc Kernel.refuse _ size x (by omega)).symm

theorem kalloc_honest : Honest kalloc := by
  intro size k served
  rw [kalloc_eq_body] at served ⊢
  exact kallocBody_honest kalloc size k served

/-- What is kept at every depth is kept by `kalloc`. -/
theorem CallClosed.kalloc {R : Kernel → Kernel → Prop} (closed : CallClosed R) (size : Nat) (k : Kernel) :
    R k (kalloc size k).2 := by
  rw [← kallocFuel_eq_kalloc Kernel.refuse (k.core.pmem.freePages + 1) size k (Nat.lt_succ_self _)]
  exact closed.fuel _ size k

end BubackOS
