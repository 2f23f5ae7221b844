import BubackOS.Core.BlockLog
import BubackOS.Hal.Tables
import Mathlib.Data.Set.Insert

/-!
# The tables stay separate

Tables are carved out of buffers that are shared by all levels of a page table.
The invariant `Intact` says that tables and the unused rest of the buffers are
pairwise disjoint parts of allocated blocks, that the unused rest is zero, and
that every entry above the leaf level leads to a table of the next level that no
other entry leads to.

The allocator may itself map pages while it serves a request: `Apart` is what the
page-table code needs to know about it.  The entries above the leaf level that
were present stay as they are (`Extends`), so a table that is being filled is not
moved away by a nested call.
-/

namespace BubackOS

open Library

/-- The bytes of a table. -/
def Table.Covers (table : Table) (a : Nat) : Prop := table.addr ≤ a ∧ a < table.addr + 4096

/-- The bytes of the buffer that are still to be handed out. -/
def NativePageTable.Spares (pt : NativePageTable) (a : Nat) : Prop :=
  pt.memAvailableAddr ≤ a ∧ a < pt.memAvailableAddr + pt.memAvailableSize

/-- A byte of a table or of an unused rest, for one of the address spaces `S`. -/
def Owned (S : Set Nat) (k : Kernel) (a : Nat) : Prop :=
  ∃ v ∈ S, (∃ table ∈ (k.native v).tables, table.Covers a) ∨ (k.native v).Spares a

/-- The root of an address space's page table is one of its tables. -/
def Rooted (v : Nat) (k : Kernel) : Prop :=
  { level := 4, addr := (k.native v).entries } ∈ (k.native v).tables

/-- The page tables of the address spaces `S` are in order, and the regions `D` are attached
to address spaces of `S` only. -/
structure Intact (S D : Set Nat) (k : Kernel) : Prop where
  aligned : ∀ v ∈ S, ∀ table ∈ (k.native v).tables, table.addr % 4096 = 0
  spareAligned : ∀ v ∈ S, (k.native v).memAvailableAddr % 4096 = 0
  distinct : ∀ v ∈ S, ∀ w ∈ S, ∀ table ∈ (k.native v).tables, ∀ other ∈ (k.native w).tables,
    ∀ a, table.Covers a → other.Covers a → v = w ∧ table = other
  apart : ∀ v ∈ S, ∀ w ∈ S, ∀ table ∈ (k.native v).tables, ∀ a, table.Covers a →
    ¬ (k.native w).Spares a
  sparesApart : ∀ v ∈ S, ∀ w ∈ S, ∀ a, (k.native v).Spares a → (k.native w).Spares a → v = w
  inLog : ∀ a, Owned S k a → InLog k.alloc.blocks a
  zero : ∀ v ∈ S, ∀ a, (k.native v).Spares a → k.mem a = 0
  children : ∀ v ∈ S, ∀ table ∈ (k.native v).tables, 2 ≤ table.level → ∀ index, index < 512 →
    ∀ addr, child k.mem table.addr index = some addr →
      { level := table.level - 1, addr := addr } ∈ (k.native v).tables
  parents : ∀ v ∈ S, ∀ table ∈ (k.native v).tables, ∀ other ∈ (k.native v).tables,
    2 ≤ table.level → 2 ≤ other.level → ∀ index index', index < 512 → index' < 512 →
    ∀ addr, child k.mem table.addr index = some addr → child k.mem other.addr index' = some addr →
      table = other ∧ index = index'
  wired : ∀ r ∈ D, ∀ v ∈ (k.region r).attached.items,
    v ∈ S ∧ Rooted v k

/-- What a later state keeps of the tables of an earlier one. -/
structure Extends (S : Set Nat) (k k' : Kernel) : Prop where
  entries : ∀ v ∈ S, (k'.native v).entries = (k.native v).entries
  tables : ∀ v ∈ S, ∀ table ∈ (k.native v).tables, table ∈ (k'.native v).tables
  upper : ∀ v ∈ S, ∀ table ∈ (k.native v).tables, 2 ≤ table.level → ∀ index, index < 512 →
    ∀ addr, child k.mem table.addr index = some addr → child k'.mem table.addr index = some addr
  foreign : ∀ a, InLog k.alloc.blocks a → ¬ Owned S k a → k'.mem a = k.mem a ∧ ¬ Owned S k' a

/-- A step that keeps the allocator's mode `Q`, only adds blocks to the log and keeps the tables
in order. -/
structure KeepsTables (S D : Set Nat) (Q : Allocator → Prop) (k k' : Kernel) : Prop where
  stays : Q k.alloc → Q k'.alloc
  log : k.alloc.blocks <:+ k'.alloc.blocks
  kept : Sound k'.alloc.blocks → Intact S D k → Intact S D k' ∧ Extends S k k'

/-- A zeroed page inside an allocated block that is no part of any table or buffer. -/
structure Unused (S : Set Nat) (k : Kernel) (page size : Nat) : Prop where
  inLog : ∀ a, page ≤ a → a < page + size → InLog k.alloc.blocks a
  zero : k.mem.Zeroed page size
  unowned : ∀ a, page ≤ a → a < page + size → ¬ Owned S k a

/-- An allocator that, in the mode `Q`, returns unused blocks and keeps the tables in order
meanwhile. -/
structure Apart (S D : Set Nat) (Q : Allocator → Prop) (kalloc : Kalloc) : Prop where
  keeps : ∀ size k, Q k.alloc → KeepsTables S D Q k (kalloc size k).2
  unused : ∀ size k, Q k.alloc → Sound (kalloc size k).2.alloc.blocks → Intact S D k →
    Unused S (kalloc size k).2 (kalloc size k).1 size
  fresh : ∀ size k, Q k.alloc → Sound (kalloc size k).2.alloc.blocks → ∀ a, (kalloc size k).1 ≤ a →
    a < (kalloc size k).1 + size → ¬ InLog k.alloc.blocks a

/-! ## Composition -/

namespace Extends

variable {S : Set Nat} {k k' k'' : Kernel}

theorem refl (S : Set Nat) (k : Kernel) : Extends S k k where
  entries := fun _ _ => rfl
  tables := fun _ _ _ member => member
  upper := fun _ _ _ _ _ _ _ _ found => found
  foreign := fun _ _ free => ⟨rfl, free⟩

theorem trans (first : Extends S k k') (second : Extends S k' k'')
    (log : k.alloc.blocks <:+ k'.alloc.blocks) : Extends S k k'' where
  entries := fun v member => (second.entries v member).trans (first.entries v member)
  tables := fun v member table installed =>
    second.tables v member table (first.tables v member table installed)
  upper := fun v member table installed level index bound addr found =>
    second.upper v member table (first.tables v member table installed) level index bound addr
      (first.upper v member table installed level index bound addr found)
  foreign := fun a inside free => by
    obtain ⟨same, free'⟩ := first.foreign a inside free
    obtain ⟨same', free''⟩ := second.foreign a (inside.mono log) free'
    exact ⟨same'.trans same, free''⟩

/-- Unused memory stays unused. -/
theorem unused {page size : Nat} (extends_ : Extends S k k') (log : k.alloc.blocks <:+ k'.alloc.blocks)
    (unused : Unused S k page size) : Unused S k' page size where
  inLog := fun a low high => (unused.inLog a low high).mono log
  zero := fun a low high => by
    rw [(extends_.foreign a (unused.inLog a low high) (unused.unowned a low high)).1]
    exact unused.zero a low high
  unowned := fun a low high =>
    (extends_.foreign a (unused.inLog a low high) (unused.unowned a low high)).2

end Extends

namespace KeepsTables

variable {S D : Set Nat} {Q : Allocator → Prop} {k k' k'' : Kernel}

theorem refl (S D : Set Nat) (Q : Allocator → Prop) (k : Kernel) : KeepsTables S D Q k k where
  stays := id
  log := List.suffix_rfl
  kept := fun _ intact => ⟨intact, Extends.refl S k⟩

theorem trans (first : KeepsTables S D Q k k') (second : KeepsTables S D Q k' k'') :
    KeepsTables S D Q k k'' where
  stays := second.stays ∘ first.stays
  log := first.log.trans second.log
  kept := fun sound intact => by
    obtain ⟨intact', extends'⟩ := first.kept (sound.of_suffix second.log) intact
    obtain ⟨intact'', extends''⟩ := second.kept sound intact'
    exact ⟨intact'', extends'.trans extends'' first.log⟩

end KeepsTables

/-- States that differ in nothing the invariant reads. -/
structure SameTables (k k' : Kernel) : Prop where
  mem : k'.mem = k.mem
  alloc : k'.alloc = k.alloc
  entries : ∀ v, (k'.native v).entries = (k.native v).entries
  tables : ∀ v, (k'.native v).tables = (k.native v).tables
  spareAddr : ∀ v, (k'.native v).memAvailableAddr = (k.native v).memAvailableAddr
  spareSize : ∀ v, (k'.native v).memAvailableSize = (k.native v).memAvailableSize
  attached : ∀ r, (k'.region r).attached.items = (k.region r).attached.items

namespace SameTables

variable {k k' : Kernel}

theorem spares (same : SameTables k k') (v a : Nat) :
    (k'.native v).Spares a ↔ (k.native v).Spares a := by
  unfold NativePageTable.Spares
  rw [same.spareAddr, same.spareSize]

theorem owned (same : SameTables k k') (S : Set Nat) (a : Nat) : Owned S k' a ↔ Owned S k a := by
  unfold Owned
  simp only [same.tables, same.spares]

theorem keeps (same : SameTables k k') (S D : Set Nat) (Q : Allocator → Prop) :
    KeepsTables S D Q k k' where
  stays := fun mode => same.alloc ▸ mode
  log := by rw [same.alloc]
  kept := fun _ intact => by
    refine ⟨?_, ?_⟩
    · constructor
      all_goals simp only [same.tables, same.spareAddr, same.spares, same.owned, same.mem, same.alloc,
        same.entries, same.attached, Rooted]
      · exact intact.aligned
      · exact intact.spareAligned
      · exact intact.distinct
      · exact intact.apart
      · exact intact.sparesApart
      · exact intact.inLog
      · exact intact.zero
      · exact intact.children
      · exact intact.parents
      · exact intact.wired
    · constructor
      all_goals simp only [same.tables, same.owned, same.mem, same.entries]
      · exact fun _ _ => trivial
      · exact fun _ _ _ member => member
      · exact fun _ _ _ _ _ _ _ _ found => found
      · exact fun _ _ free => ⟨trivial, free⟩

end SameTables
end BubackOS
