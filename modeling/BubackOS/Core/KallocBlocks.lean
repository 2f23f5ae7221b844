import BubackOS.Core.Termination

/-!
# The blocks `kalloc` returns

The heap pointer is read after all nested calls are done, and only moves up.  So the
blocks come in increasing order, the nested ones included, and none overlaps another.
-/

namespace BubackOS

open Library

/-- No block of the log ends beyond the last address. -/
def NoWrap (log : List Block) : Prop := ∀ block ∈ log, block.addr + block.size < 2 ^ 64

/-- The blocks that were really returned, in the order of the log. -/
def returned (log : List Block) : List Block := log.filter (·.addr ≠ 0)

/-- All blocks lie below the heap pointer, each above the older ones. -/
structure Tidy (a : Allocator) : Prop where
  below : ∀ block ∈ returned a.blocks, block.addr + block.size ≤ a.currentMemPtr
  ascending : (returned a.blocks).Pairwise fun newer older => older.addr + older.size ≤ newer.addr

/-- The log only grows, and the heap stays tidy. -/
structure KeepsTidy (k k' : Kernel) : Prop where
  log : k.alloc.blocks <:+ k'.alloc.blocks
  tidy : NoWrap k'.alloc.blocks → Tidy k.alloc → Tidy k'.alloc

theorem KeepsTidy.of_alloc {k k' : Kernel} (same : k'.alloc = k.alloc) : KeepsTidy k k' := by
  refine ⟨?_, fun _ tidy => ?_⟩
  · rw [same]
  · rw [same]
    exact tidy

theorem returned_cons_null (log : List Block) (size : Nat) :
    returned ({ addr := 0, size := size } :: log) = returned log := by
  simp [returned]

theorem returned_cons_of_ne {log : List Block} {block : Block} (present : block.addr ≠ 0) :
    returned (block :: log) = block :: returned log := by
  simp [returned, present]

/-- Before the pointer is known nothing was returned. -/
theorem Tidy.located {k : Kernel} (tidy : Tidy k.alloc) : Tidy k.located.alloc := by
  have blocks := k.located_blocks
  refine ⟨fun block member => ?_, by rw [blocks]; exact tidy.ascending⟩
  rw [blocks] at member
  have below := tidy.below block member
  have present : block.addr ≠ 0 := by simpa [returned] using (List.mem_filter.mp member).2
  rw [Kernel.located_alloc, getCurrentMemoryPtr, if_neg (by omega)]
  exact below

theorem Kernel.takeBlock_pointer (size : Nat) (k : Kernel) :
    (k.takeBlock size).2.alloc.currentMemPtr = wrap ((k.takeBlock size).1 + size) := rfl

theorem Kernel.takeBlock_fst (size : Nat) (k : Kernel) :
    (k.takeBlock size).1 = k.located.alloc.currentMemPtr := rfl

theorem KeepsTidy.takeBlock (size : Nat) (k : Kernel) : KeepsTidy k (k.takeBlock size).2 := by
  have blocks := k.takeBlock_blocks size
  refine ⟨by rw [blocks]; exact List.suffix_cons _ _, fun noWrap tidy => ?_⟩
  have pointer := k.takeBlock_pointer size
  have tidy' := tidy.located
  rw [blocks] at noWrap
  have bound := noWrap _ List.mem_cons_self
  rw [wrap_of_lt bound] at pointer
  have older : ∀ block ∈ returned k.alloc.blocks, block.addr + block.size ≤ (k.takeBlock size).1 := by
    intro block member
    rw [Kernel.takeBlock_fst]
    exact tidy'.below block (by rw [k.located_blocks]; exact member)
  by_cases present : (k.takeBlock size).1 = 0
  · constructor
    · rw [blocks, pointer, present, returned_cons_null]
      intro block member
      have below := older block member
      omega
    · rw [blocks, present, returned_cons_null]
      exact tidy.ascending
  · constructor
    · rw [blocks, pointer, returned_cons_of_ne present]
      intro block member
      rcases List.mem_cons.mp member with rfl | before
      · exact Nat.le_refl _
      · exact Nat.le_trans (older block before) (Nat.le_add_right _ _)
    · rw [blocks, returned_cons_of_ne present]
      exact List.pairwise_cons.mpr ⟨older, tidy.ascending⟩

theorem keepsTidy_closed : Closed 0 0 KeepsTidy where
  refl := fun _ => .of_alloc rfl
  trans := fun first second => ⟨first.log.trans second.log, fun noWrap tidy =>
    second.tidy noWrap (first.tidy (fun block member => noWrap block (second.log.subset member)) tidy)⟩
  locate := fun k => ⟨by rw [k.located_blocks], fun _ tidy => tidy.located⟩
  expand := fun newSize k => ⟨by rw [Kernel.setAlloc_alloc, Allocator.expand_blocks],
    fun _ tidy => ⟨tidy.below, tidy.ascending⟩⟩
  take := KeepsTidy.takeBlock
  refuse := by
    intro size k
    have blocks : (k.refuse size).2.alloc.blocks = { addr := 0, size := size } :: k.alloc.blocks := rfl
    refine ⟨by rw [blocks]; exact List.suffix_cons _ _, fun _ tidy => ⟨?_, ?_⟩⟩
    · rw [blocks, returned_cons_null]
      exact tidy.below
    · rw [blocks, returned_cons_null]
      exact tidy.ascending
  step := by
    intro nested calls k k' step
    cases step with
    | table step =>
        cases step with
        | call size => exact calls size k
        | write => exact .of_alloc rfl
        | native => exact .of_alloc rfl
    | grow found =>
        rw [pmemAllocate_of_success found]
        exact .of_alloc rfl
    | exhaust => exact pmemAllocate_cases (P := KeepsTidy k) (.of_alloc rfl) (.of_alloc rfl)
    | _ => exact .of_alloc rfl

/-! ## The log -/

/-- The log of blocks and the history of the page services only get longer. -/
structure Later (k k' : Kernel) : Prop where
  blocks : k.alloc.blocks <:+ k'.alloc.blocks
  trace : k.core.trace <:+ k'.core.trace

namespace Later

variable {k k' k'' : Kernel}

theorem refl (k : Kernel) : Later k k := ⟨List.suffix_rfl, List.suffix_rfl⟩

theorem trans (first : Later k k') (second : Later k' k'') : Later k k'' :=
  ⟨first.blocks.trans second.blocks, first.trace.trans second.trace⟩

theorem of_core (blocks : k.alloc.blocks <:+ k'.alloc.blocks) (core : k'.core = k.core) : Later k k' := by
  refine ⟨blocks, ?_⟩
  rw [core]

theorem of_alloc (alloc : k'.alloc = k.alloc) (trace : k.core.trace <:+ k'.core.trace) : Later k k' := by
  refine ⟨?_, trace⟩
  rw [alloc]

theorem pmemAllocate (k : Kernel) : Later k (pmemAllocate k).2 :=
  pmemAllocate_cases (.of_alloc rfl (List.suffix_cons _ _)) (.of_alloc rfl List.suffix_rfl)

theorem branch {α : Type} {p : Prop} [Decidable p] {a b : α × Kernel} (yes : Later k a.2) (no : Later k b.2) :
    Later k (if p then a else b).2 := by
  split
  · exact yes
  · exact no

end Later

theorem later_closed : Closed 0 0 Later where
  refl := Later.refl
  trans := Later.trans
  locate := fun k => .of_core (by rw [k.located_blocks]) k.located_core
  expand := fun _ _ => .of_core List.suffix_rfl rfl
  take := fun size k => .of_core (by rw [k.takeBlock_blocks]; exact List.suffix_cons _ _) (k.takeBlock_core size)
  refuse := fun _ _ => .of_core (List.suffix_cons _ _) rfl
  step := by
    intro nested calls k k' step
    cases step with
    | table step =>
        cases step with
        | call size => exact calls size k
        | write => exact .of_alloc rfl List.suffix_rfl
        | native => exact .of_alloc rfl List.suffix_rfl
    | associate paddr => exact .of_alloc rfl (List.suffix_cons _ _)
    | grow => exact (Later.pmemAllocate k).trans (.of_alloc rfl (List.suffix_cons _ _))
    | exhaust => exact .pmemAllocate k
    | _ => exact .of_alloc rfl List.suffix_rfl

/-! ## One call -/

/-- A call takes a block at the pointer, or returns `NULL`. -/
theorem kalloc_cases (size : Nat) (k : Kernel) :
    kalloc size k = (ensureFreeMemory kalloc size k).2.takeBlock size ∨
      kalloc size k = (ensureFreeMemory kalloc size k).2.refuse size := by
  rw [kalloc_eq_body, kallocBody_eq]
  split
  · exact Or.inl rfl
  · exact Or.inr rfl

theorem kalloc_zeroed {size : Nat} {k : Kernel} (present : (kalloc size k).1 ≠ 0) :
    (kalloc size k).2.mem.Zeroed (kalloc size k).1 size := by
  rcases kalloc_cases size k with taken | refused
  · rw [taken]
    exact Kernel.takeBlock_zeroed _ size
  · rw [refused] at present
    exact absurd rfl present

/-! ## Runs -/

/-- Calls of `kalloc`, one after the other. -/
def kallocs (sizes : List Nat) (k : Kernel) : Kernel := sizes.foldl (fun k size => (kalloc size k).2) k

theorem kallocs_cons (size : Nat) (rest : List Nat) (k : Kernel) :
    kallocs (size :: rest) k = kallocs rest (kalloc size k).2 := List.foldl_cons

theorem kallocs_keepsTidy (sizes : List Nat) : ∀ k, KeepsTidy k (kallocs sizes k) := by
  induction sizes with
  | nil => exact fun k => .of_alloc rfl
  | cons size rest ih =>
      intro k
      rw [kallocs_cons]
      exact keepsTidy_closed.trans (keepsTidy_closed.growth.calls.kalloc size k) (ih _)

/-- `kalloc` terminates in every state: any depth beyond the number of free pages gives the same
result, and that result satisfies the recursion of the source.  What it returns is zero, and in
a run of calls the blocks returned, also by the nested calls, come in increasing order and do
not overlap. -/
theorem kalloc_terminates_with_ordered_blocks :
    (∀ (bottom : Kalloc) (fuel size : Nat) (k : Kernel), k.core.pmem.freePages < fuel →
      kallocFuel bottom fuel size k = kalloc size k) ∧
    (∀ (size : Nat) (k : Kernel), kalloc size k = kallocBody kalloc size k) ∧
    (∀ (size : Nat) (k : Kernel), (kalloc size k).1 ≠ 0 →
      (kalloc size k).2.mem.Zeroed (kalloc size k).1 size) ∧
    ∀ (sizes : List Nat) (k : Kernel), k.alloc.blocks = [] → NoWrap (kallocs sizes k).alloc.blocks →
      (returned (kallocs sizes k).alloc.blocks).Pairwise fun newer older =>
        older.addr + older.size ≤ newer.addr ∧ ∀ a, newer.Covers a → ¬ older.Covers a := by
  refine ⟨kallocFuel_eq_kalloc, kalloc_eq_body, fun size k => kalloc_zeroed, ?_⟩
  intro sizes k empty noWrap
  have start : Tidy k.alloc := by
    constructor
    · rw [empty]
      exact fun block member => absurd member (List.not_mem_nil)
    · rw [empty]
      exact List.Pairwise.nil
  have tidy := (kallocs_keepsTidy sizes k).tidy noWrap start
  refine tidy.ascending.imp fun {newer older} order => ⟨order, fun a inNewer inOlder => ?_⟩
  have low := inNewer.1
  have high := inOlder.2
  omega

/-- A kernel after `memory_allocator_initialize`, with a new log. -/
def loggedBoot : Kernel :=
  let booted := (memoryAllocatorInitialize (vmemRegionInitialize kalloc (vmemInitialize kalloc sampleKernel))).2
  { booted with alloc := { booted.alloc with blocks := [] } }

/-- Two calls, of which the second grows the heap and so returns more blocks. -/
theorem kalloc_ordered_blocks_sample :
    2 < (returned (kallocs [16, 0xb000] loggedBoot).alloc.blocks).length ∧
      (returned (kallocs [16, 0xb000] loggedBoot).alloc.blocks).Pairwise fun newer older =>
        older.addr + older.size ≤ newer.addr ∧ ∀ a, newer.Covers a → ¬ older.Covers a := by
  have facts : 2 < (returned (kallocs [16, 0xb000] loggedBoot).alloc.blocks).length ∧
      ∀ block ∈ (kallocs [16, 0xb000] loggedBoot).alloc.blocks, block.addr + block.size < 2 ^ 64 := by
    decide +kernel
  exact ⟨facts.1, kalloc_terminates_with_ordered_blocks.2.2.2 [16, 0xb000] loggedBoot rfl facts.2⟩

end BubackOS
