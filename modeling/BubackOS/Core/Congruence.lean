import BubackOS.Core.Transitions

/-!
# Replacing the allocator

A service gives the same result with two allocators if they agree on the calls it
makes.  Such a call lies on the way: its state is reached from the first one, and
the last state is reached from what it returns.
-/

namespace BubackOS

open Library

/-- `f` and `g` agree on all calls between two states of a run with `g`. -/
def SameAlong (f g : Kalloc) (k k' : Kernel) : Prop :=
  ∀ size x, AnyPath g k x → AnyPath g (g size x).2 k' → f size x = g size x

variable {f g : Kalloc} {k k' : Kernel} {v r : Nat}

namespace SameAlong

/-- The calls of a part of the run. -/
theorem part {first last : Kernel} (same : SameAlong f g k k') (before : AnyPath g k first)
    (after : AnyPath g last k') : SameAlong f g first last :=
  fun size x reach rest => same size x (before.trans reach) (rest.trans after)

theorem here (same : SameAlong f g k k') {size : Nat} (after : AnyPath g (g size k).2 k') :
    f size k = g size k := same size k .refl after

end SameAlong

/-! ## Programs -/

/-- A run of the program with `g` is a path, and `f` gives the same result where the two agree on it. -/
structure Follows (f g : Kalloc) {β : Type} (program : Kalloc → Kernel → β × Kernel) : Prop where
  path : ∀ k, AnyPath g k (program g k).2
  congr : ∀ {k}, SameAlong f g k (program g k).2 → program f k = program g k

namespace Follows

variable {α β γ : Type} {p q : Kalloc → Kernel → β × Kernel}

theorem of_eq (follows : Follows f g p) (same : ∀ kalloc k, q kalloc k = p kalloc k) : Follows f g q := by
  obtain rfl : q = p := funext fun kalloc => funext (same kalloc)
  exact follows

theorem call (size : Nat) : Follows f g fun kalloc => kalloc size :=
  ⟨Path.call size, fun same => same.here .refl⟩

/-- A change of the state without a call. -/
theorem edit {change : Kernel → Kernel} (path : ∀ k, AnyPath g k (change k)) (value : Kernel → β) :
    Follows f g fun _ k => (value k, change k) := ⟨path, fun _ => rfl⟩

theorem step {change : Kernel → Kernel} (step : ∀ k, Transition g 0 0 Set.univ k (change k)) (value : Kernel → β) :
    Follows f g fun _ k => (value k, change k) := edit (fun k => .single (step k)) value

theorem pure (value : Kernel → β) : Follows f g fun _ k => (value k, k) := edit (fun _ => .refl) value

theorem bind {rest : β → Kalloc → Kernel → γ × Kernel} (first : Follows f g p) (next : ∀ b, Follows f g (rest b)) :
    Follows f g fun kalloc k => rest (p kalloc k).1 kalloc (p kalloc k).2 where
  path := fun k => (first.path k).trans ((next _).path _)
  congr := by
    intro k same
    have sameFirst := first.congr (same.part .refl ((next _).path _))
    rw [sameFirst]
    exact (next _).congr (same.part (first.path k) .refl)

/-- A program that reads the state first. -/
theorem reading {program : α → Kalloc → Kernel → β × Kernel} (value : Kernel → α)
    (each : ∀ a, Follows f g (program a)) : Follows f g fun kalloc k => program (value k) kalloc k :=
  (pure value).bind each

theorem ite {c : Kernel → Prop} [∀ k, Decidable (c k)] (yes : Follows f g p) (no : Follows f g q) :
    Follows f g fun kalloc k => if c k then p kalloc k else q kalloc k where
  path := by
    intro k
    split
    · exact yes.path k
    · exact no.path k
  congr := by
    intro k same
    split
    · rename_i holds
      rw [if_pos holds] at same
      exact yes.congr same
    · rename_i fails
      rw [if_neg fails] at same
      exact no.congr same

end Follows

open Follows

/-! ## Lists -/

theorem linkedlistAppend_follows {α : Type} (ll : ListField α) (data : α)
    (edit : ∀ k, Transition g 0 0 Set.univ k (ll.modify (· ++ [data]) k)) :
    Follows f g fun kalloc => linkedlistAppend kalloc ll data :=
  ite (c := fun k => (ll.get k).isNone = true) (pure fun _ => false)
    ((call sizeofLinkedlistNode).bind fun node =>
      ite (c := fun _ => node = 0) (pure fun _ => false) (step edit fun _ => true))

/-! ## The page-table code -/

theorem modifyNative_follows (v : Nat) (change : NativePageTable → NativePageTable) :
    Follows f g fun _ k => ((), k.modifyNative v change) := step (fun k => .table (.native v change k)) fun _ => ()

theorem createEntries_follows (v : Nat) : Follows f g fun kalloc => createEntries kalloc v := by
  have refilled : Follows f g fun kalloc k => ((), (linkedlistAppend kalloc (allocatedMemoryOf v)
      (kalloc nativePagetableMemBufferSize k).1 (kalloc nativePagetableMemBufferSize k).2).2.modifyNative v
        (NativePageTable.useBlock (kalloc nativePagetableMemBufferSize k).1)) :=
    (call nativePagetableMemBufferSize).bind fun block =>
      (linkedlistAppend_follows (allocatedMemoryOf v) block fun k =>
        .table (.native v (fun pt => { pt with allocatedMemory := pt.allocatedMemory.map _ }) k)).bind fun _ =>
      modifyNative_follows v (NativePageTable.useBlock block)
  have ready := ite (c := fun k => 8 * 512 > (k.native v).memAvailableSize) refilled (pure fun _ => ())
  refine (ready.bind fun _ => step (fun k => .table (.native v (NativePageTable.take (8 * 512)) k)) fun k =>
    (k.native v).memAvailableAddr).of_eq fun kalloc k => ?_
  unfold createEntries allocatedAlignedMemory
  dsimp only
  split <;> rfl

theorem setEntry_follows (v level : Nat) : ∀ (entries virtualAddr physicalAddr : Nat) (user code writable : Bool),
    Follows f g fun kalloc k =>
      ((), setEntry kalloc v level entries virtualAddr physicalAddr user code writable k) := by
  induction level with
  | zero => exact fun _ _ _ _ _ _ => pure fun _ => ()
  | succ level ih =>
      intro entries virtualAddr physicalAddr user code writable
      cases level with
      | zero => exact step (fun k => .table (.write _ _ _ k)) fun _ => ()
      | succ level =>
          obtain ⟨index, isIndex⟩ : ∃ index, index = indexForLevel (level + 2) virtualAddr := ⟨_, rfl⟩
          have present := reading (f := f) (g := g) (fun k => (readEntry k.mem entries index).frame) fun target =>
            ih target virtualAddr physicalAddr user code writable
          have absent := (createEntries_follows (f := f) (g := g) v).bind fun table =>
            (step (fun k => .table (.write entries index (fillEntryValue (readEntry k.mem entries index) table true true
              true) k)) fun _ => ()).bind fun _ =>
            (modifyNative_follows v (NativePageTable.install (level + 1) table)).bind fun _ =>
            ih table virtualAddr physicalAddr user code writable
          refine (ite (c := fun k => (readEntry k.mem entries index).present = true) present absent).of_eq
            fun kalloc k => ?_
          rw [setEntry, ← isIndex]
          dsimp only
          split <;> rfl

theorem nativeVmemSetLoop_follows (v : Nat) (entry : PageMapEntry) (count : Nat) :
    Follows f g fun kalloc k => ((), nativeVmemSetLoop kalloc v entry count k) := by
  induction count with
  | zero => exact pure fun _ => ()
  | succ count ih =>
      exact (reading (fun k => (k.native v).entries) fun entries => setEntry_follows v 4 entries _ _ _ _ _).bind
        fun _ => ih

theorem nativeVmemSet_follows (v : Nat) (entry : PageMapEntry) :
    Follows f g fun kalloc => nativeVmemSet kalloc v entry :=
  ite (c := fun _ => entry.virtualAddr ≠ memAlign entry.virtualAddr ∨
    entry.physicalAddr ≠ memAlign entry.physicalAddr) (pure fun _ => false)
    ((nativeVmemSetLoop_follows v entry _).bind fun _ => pure fun _ => true)

/-! ## Mapping and growing -/

theorem vmemNotifyChange_follows (v r paddr vaddr : Nat) :
    Follows f g fun kalloc => vmemNotifyChange kalloc v r paddr vaddr :=
  (call sizeofVmemMap).bind fun map => ite (c := fun _ => map = 0) (pure fun _ => false)
    ((linkedlistAppend_follows (mapOf v) _ fun k => .appendMap v _ k).bind fun listed =>
      ite (c := fun _ => listed = true)
        ((reading (fun k => regionPermission (k.region r)) fun permission => nativeVmemSet_follows v
          { virtualAddr := vaddr, physicalAddr := paddr, size := systemPageSize, permission := permission }).bind
          fun _ => pure fun _ => true)
        (pure fun _ => false))

theorem notifyAttached_follows (r paddr vaddr : Nat) (vs : List Nat) :
    Follows f g fun kalloc => notifyAttached kalloc r paddr vaddr vs := by
  induction vs with
  | nil => exact pure fun _ => true
  | cons v rest ih =>
      exact (vmemNotifyChange_follows v r paddr vaddr).bind fun done =>
        ite (c := fun _ => done = true) ih (pure fun _ => false)

theorem vmemRegionAssoc_congr {paddr : Nat}
    (same : SameAlong f g (k.beginAssociate r paddr) (vmemRegionAssocPhysicalAddress g r paddr k).2) :
    vmemRegionAssocPhysicalAddress f r paddr k = vmemRegionAssocPhysicalAddress g r paddr k := by
  have rest := (linkedlistAppend_follows (f := f) (g := g) (pagesOf r) paddr fun k => .appendPage r paddr k).bind
    fun stored => (reading (fun k => (k.region r).attached.items)
      (notifyAttached_follows r paddr (wrap ((k.region r).start + (k.region r).allocatedSize)))).bind fun done =>
    ite (c := fun _ => done = true)
      (step (fun k => .annotate ({ region := r, listed := stored, mapped := done } :: k.core.associations) k.core.diverged k)
        fun _ => wrap ((k.region r).start + (k.region r).allocatedSize))
      (step (fun k => .annotate ({ region := r, listed := stored, mapped := done } :: k.core.associations) k.core.diverged k)
        fun _ => 0)
  exact rest.congr same

/-- `f` and `g` agree on the calls of a growing region: each of them comes after a page was
taken. -/
def SameGrowing (f g : Kalloc) (r : Nat) (k k' : Kernel) : Prop :=
  ∀ size x, ∀ middle, (pmemAllocate middle).1 ≠ 0 → AnyPath g k middle →
    AnyPath g ((pmemAllocate middle).2.beginAssociate r (pmemAllocate middle).1) x →
    AnyPath g (g size x).2 k' → f size x = g size x

theorem resizeLoop_congr (r count : Nat) :
    ∀ k, SameGrowing f g r k (resizeLoop g r count k).2 →
      resizeLoop f r count k = resizeLoop g r count k := by
  induction count with
  | zero => exact fun _ _ => rfl
  | succ count ih =>
      intro k same
      by_cases found : (pmemAllocate k).1 = 0
      · have nothing : ∀ kalloc, resizeLoop kalloc r (count + 1) k = (false, (pmemAllocate k).2) :=
          fun kalloc => if_pos found
        rw [nothing f, nothing g]
      · have unfolded : ∀ kalloc, resizeLoop kalloc r (count + 1) k = resizeLoop kalloc r count
            (vmemRegionAssocPhysicalAddress kalloc r (pmemAllocate k).1 (pmemAllocate k).2).2 :=
          fun kalloc => if_neg found
        rw [unfolded g] at same
        rw [unfolded f, unfolded g]
        have rest : AnyPath g (vmemRegionAssocPhysicalAddress g r (pmemAllocate k).1 (pmemAllocate k).2).2
            _ := resizeLoop_path r count (Set.mem_univ r) _
        have associated : AnyPath g k
            (vmemRegionAssocPhysicalAddress g r (pmemAllocate k).1 (pmemAllocate k).2).2 :=
          (associate_rest_path r _ _).head (.grow found (Set.mem_univ r))
        have first : vmemRegionAssocPhysicalAddress f r (pmemAllocate k).1 (pmemAllocate k).2 =
            vmemRegionAssocPhysicalAddress g r (pmemAllocate k).1 (pmemAllocate k).2 :=
          vmemRegionAssoc_congr fun size x reach after =>
            same size x k found .refl reach (after.trans rest)
        rw [first]
        exact ih _ fun size x k' found' reach begun after =>
          same size x k' found' (associated.trans reach) begun after

theorem vmemRegionResize_congr {region : Option Nat} {newSize : Nat}
    (same : ∀ r ∈ region, SameGrowing f g r k (vmemRegionResize g region newSize k).2) :
    vmemRegionResize f region newSize k = vmemRegionResize g region newSize k := by
  cases region with
  | none => rfl
  | some r =>
      by_cases shrink : alignNext newSize systemPageSize < (k.region r).allocatedSize
      · unfold vmemRegionResize
        dsimp only
        rw [if_pos shrink, if_pos shrink]
      · have growing := same r rfl
        unfold vmemRegionResize at growing ⊢
        dsimp only at growing ⊢
        rw [if_neg shrink] at growing ⊢
        rw [if_neg shrink]
        have adopted : ∀ k, AnyPath g k (k.modifyRegion r (adoptSize newSize)) := by
          intro k
          rw [adoptSize_eq]
          exact .single (.declare r _ k)
        rw [resizeLoop_congr r _ k fun size x middle found reach begun after =>
          growing size x middle found reach begun (after.trans (adopted _))]

end BubackOS
