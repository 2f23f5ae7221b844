import BubackOS.Hal.TableAllocation

/-!
# Allocators that leave the kernel alone

The unit tests replace `kalloc` by an allocator that only returns memory, and
before its initialisation the kernel's own `kalloc` does nothing else either.
`Quiet` describes both: in its mode the allocator returns a block of zeros and
changes nothing outside it.  Such an allocator may fail.
-/

namespace BubackOS

open Library

/-- In the mode `P`, `kalloc` logs the block it returns and touches nothing but its bytes. -/
structure Quiet (P : Allocator → Prop) (kalloc : Kalloc) : Prop where
  stays : ∀ size k, P k.alloc → P (kalloc size k).2.alloc
  core : ∀ size k, P k.alloc → (kalloc size k).2.core = k.core
  logged : ∀ size k, P k.alloc → (kalloc size k).2.alloc.blocks =
    { addr := (kalloc size k).1, size := size } :: k.alloc.blocks
  zero : ∀ size k, P k.alloc → (kalloc size k).1 ≠ 0 →
    (kalloc size k).2.mem.Zeroed (kalloc size k).1 size
  kept : ∀ size k, P k.alloc → ∀ a, ¬ ((kalloc size k).1 ≤ a ∧ a < (kalloc size k).1 + size) →
    (kalloc size k).2.mem a = k.mem a

variable {S D : Set Nat} {P : Allocator → Prop} {kalloc : Kalloc} {k k' : Kernel}

namespace Quiet

theorem vmem (quiet : Quiet P kalloc) (mode : P k.alloc) (size v : Nat) :
    (kalloc size k).2.vmem v = k.vmem v := by
  rw [Kernel.vmem, quiet.core size k mode, Kernel.vmem]

theorem region (quiet : Quiet P kalloc) (mode : P k.alloc) (size r : Nat) :
    (kalloc size k).2.region r = k.region r := by
  rw [Kernel.region, quiet.core size k mode, Kernel.region]

theorem native (quiet : Quiet P kalloc) (mode : P k.alloc) (size v : Nat) :
    (kalloc size k).2.native v = k.native v := by
  rw [Kernel.native, quiet.vmem mode, Kernel.native]

end Quiet

/-! ## What a quiet allocation leaves to the page-table code -/

/-- Outside memory and the allocator, only the page table of `v` differs. -/
def OnlyNative (v : Nat) (k k' : Kernel) : Prop :=
  ∃ pt, k'.core = { k.core with vmems := k.core.vmems.modify v fun vmem =>
    { vmem with nativeVmem := pt } }

namespace OnlyNative

variable {v : Nat} {k'' : Kernel}

theorem modifyNative (k : Kernel) (v : Nat) (change : NativePageTable → NativePageTable) :
    OnlyNative v k (k.modifyNative v change) := by
  refine ⟨change (k.native v), ?_⟩
  unfold Kernel.modifyNative Kernel.modifyVmem
  dsimp only
  rw [Store.modify_congr]
  rfl

theorem of_core (same : k'.core = k.core) : OnlyNative v k k' := by
  refine ⟨k.native v, ?_⟩
  rw [same, Store.modify_of_fixed]
  rfl

theorem refl (v : Nat) (k : Kernel) : OnlyNative v k k := of_core rfl

theorem trans (first : OnlyNative v k k') (second : OnlyNative v k' k'') : OnlyNative v k k'' := by
  obtain ⟨pt, core⟩ := first
  obtain ⟨pt', core'⟩ := second
  refine ⟨pt', ?_⟩
  rw [core', core]
  dsimp only
  rw [Store.modify_modify]
  rfl

end OnlyNative

/-! ## The invariant of the tables -/

/-- The children of a table depend on owned bytes only. -/
theorem child_of_owned {v index : Nat} {table : Table} (member : v ∈ S)
    (installed : table ∈ (k.native v).tables) (bound : index < 512)
    (same : ∀ a, Owned S k a → k'.mem a = k.mem a) :
    child k'.mem table.addr index = child k.mem table.addr index :=
  child_congr fun a low high =>
    same a ⟨v, member, Or.inl ⟨table, installed, entry_in_table bound low high⟩⟩

/-- A state with the same tables, more blocks and the same owned bytes. -/
theorem Intact.of_same_owned (intact : Intact S D k) (core : k'.core = k.core)
    (log : k.alloc.blocks <:+ k'.alloc.blocks) (same : ∀ a, Owned S k a → k'.mem a = k.mem a) :
    Intact S D k' := by
  have native : ∀ v, k'.native v = k.native v := fun v => by
    rw [Kernel.native, Kernel.vmem, core, Kernel.native, Kernel.vmem]
  have region : ∀ r, k'.region r = k.region r := fun r => by
    rw [Kernel.region, core, Kernel.region]
  have owned : ∀ a, Owned S k' a ↔ Owned S k a := fun a => by simp only [Owned, native]
  constructor
  · simp only [native]
    exact intact.aligned
  · simp only [native]
    exact intact.spareAligned
  · simp only [native]
    exact intact.distinct
  · simp only [native]
    exact intact.apart
  · simp only [native]
    exact intact.sparesApart
  · intro a own
    exact (intact.inLog a ((owned a).mp own)).mono log
  · intro v member a spare
    rw [native] at spare
    rw [same a ⟨v, member, Or.inr spare⟩]
    exact intact.zero v member a spare
  · intro v member table installed upper index bound addr found
    rw [native] at installed ⊢
    rw [child_of_owned member installed bound same] at found
    exact intact.children v member table installed upper index bound addr found
  · intro v member table installed other installed' upper upper' i j boundI boundJ addr found found'
    rw [native] at installed installed'
    rw [child_of_owned member installed boundI same] at found
    rw [child_of_owned member installed' boundJ same] at found'
    exact intact.parents v member table installed other installed' upper upper' i j boundI boundJ addr
      found found'
  · simp only [region, native, Rooted]
    exact intact.wired

/-- Seen from the new state, the block of a request has no byte of an older one. -/
theorem Quiet.fresh (quiet : Quiet P kalloc) {size : Nat} (mode : P k.alloc)
    (sound : Sound (kalloc size k).2.alloc.blocks) {a : Nat} (low : (kalloc size k).1 ≤ a)
    (high : a < (kalloc size k).1 + size) : ¬ InLog k.alloc.blocks a := by
  rw [quiet.logged size k mode] at sound
  exact sound.fresh ⟨low, high⟩

theorem Quiet.same_owned (quiet : Quiet P kalloc) {size : Nat} (mode : P k.alloc)
    (sound : Sound (kalloc size k).2.alloc.blocks) {a : Nat} (inside : InLog k.alloc.blocks a) :
    (kalloc size k).2.mem a = k.mem a :=
  quiet.kept size k mode a fun range => quiet.fresh mode sound range.1 range.2 inside

theorem Quiet.log (quiet : Quiet P kalloc) {size : Nat} (mode : P k.alloc) :
    k.alloc.blocks <:+ (kalloc size k).2.alloc.blocks := by
  rw [quiet.logged size k mode]
  exact List.suffix_cons _ _

/-- A quiet allocator keeps all page tables in order. -/
theorem Quiet.apart (quiet : Quiet P kalloc) (S D : Set Nat) : Apart S D P kalloc := by
  have native : ∀ size k, P k.alloc → ∀ v, (kalloc size k).2.native v = k.native v :=
    fun size _ mode v => quiet.native mode size v
  have owned : ∀ size k, P k.alloc → ∀ a, Owned S (kalloc size k).2 a → Owned S k a := by
    intro size k mode a own
    simpa only [Owned, native size k mode] using own
  constructor
  · intro size k mode
    refine ⟨quiet.stays size k, quiet.log mode, fun sound intact => ⟨?_, ?_⟩⟩
    · exact intact.of_same_owned (quiet.core size k mode) (quiet.log mode) fun a own =>
        quiet.same_owned mode sound (intact.inLog a own)
    · constructor
      · intro v _
        rw [native size k mode]
      · intro v _ table installed
        rwa [native size k mode]
      · intro v member table installed _ index bound addr found
        rw [child_of_owned member installed bound fun a own =>
          quiet.same_owned mode sound (intact.inLog a own)]
        exact found
      · intro a inside free
        exact ⟨quiet.same_owned mode sound inside, fun own => free (owned size k mode a own)⟩
  · intro size k mode sound intact
    have logged := quiet.logged size k mode
    have present : (kalloc size k).1 ≠ 0 := by
      rw [logged] at sound
      exact sound.present _ List.mem_cons_self
    constructor
    · intro a low high
      rw [logged]
      exact ⟨_, List.mem_cons_self, low, high⟩
    · exact quiet.zero size k mode present
    · intro a low high own
      exact quiet.fresh mode sound low high (intact.inLog a (owned size k mode a own))
  · exact fun size k mode sound a low high => quiet.fresh mode sound low high

end BubackOS
