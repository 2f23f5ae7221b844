import BubackOS.Hal.TableInvariant

/-!
# Handing out and linking tables

`allocated_aligned_memory`, `create_entries` and `set_entry` keep the tables in
order, whatever the allocator maps while it serves their requests.
-/

namespace BubackOS

open Library

variable {S D : Set Nat} {Q : Allocator → Prop} {kalloc : Kalloc}

/-! ## Lists that the invariant does not read -/

theorem linkedlistAppend_keeps {α : Type} {ll : ListField α} {data : α} {k : Kernel}
    (apart : Apart S D Q kalloc) (mode : Q k.alloc)
    (edit : ∀ change k, SameTables k (ll.modify change k)) :
    KeepsTables S D Q k (linkedlistAppend kalloc ll data k).2 := by
  unfold linkedlistAppend
  have call := apart.keeps sizeofLinkedlistNode k mode
  split
  · exact KeepsTables.refl S D Q k
  · dsimp only
    split
    · exact call
    · exact call.trans ((edit _ _).keeps S D Q)

theorem allocatedMemoryOf_sameTables (v : Nat) (change : List Nat → List Nat) (k : Kernel) :
    SameTables k ((allocatedMemoryOf v).modify change k) := by
  have native : ∀ w, ∃ list, ((allocatedMemoryOf v).modify change k).native w =
      { k.native w with allocatedMemory := list } := by
    intro w
    by_cases same : w = v
    · subst same
      exact ⟨_, Kernel.native_modifyNative_self _ _ _⟩
    · exact ⟨(k.native w).allocatedMemory, Kernel.native_modifyNative_of_ne same⟩
  constructor
  · rfl
  · rfl
  all_goals intro w
  · obtain ⟨list, updated⟩ := native w
    rw [updated]
  · obtain ⟨list, updated⟩ := native w
    rw [updated]
  · obtain ⟨list, updated⟩ := native w
    rw [updated]
  · obtain ⟨list, updated⟩ := native w
    rw [updated]
  · rfl

/-! ## The buffer -/

theorem useBlock_range {block : Nat} (pt : NativePageTable) (bound : block + 40960 ≤ 2 ^ 64) :
    (pt.useBlock block).memAvailableAddr % 4096 = 0 ∧
      block ≤ (pt.useBlock block).memAvailableAddr ∧
      (pt.useBlock block).memAvailableAddr + (pt.useBlock block).memAvailableSize = block + 40960 ∧
      4096 ≤ (pt.useBlock block).memAvailableSize := by
  unfold NativePageTable.useBlock align pageTableEntriesAlignment nativePagetableMemBufferSize
  dsimp only
  split
  · dsimp only
    omega
  · unfold wrapSub wrap
    dsimp only
    omega

@[simp] theorem useBlock_entries (block : Nat) (pt : NativePageTable) :
    (pt.useBlock block).entries = pt.entries := by
  unfold NativePageTable.useBlock
  dsimp only
  split <;> rfl

@[simp] theorem useBlock_tables (block : Nat) (pt : NativePageTable) :
    (pt.useBlock block).tables = pt.tables := by
  unfold NativePageTable.useBlock
  dsimp only
  split <;> rfl

theorem take_entries (size : Nat) (pt : NativePageTable) : (pt.take size).entries = pt.entries := rfl

theorem take_tables (size : Nat) (pt : NativePageTable) : (pt.take size).tables = pt.tables := rfl

/-- A byte that may be added to the unused rest of a buffer. -/
structure Vacant (S : Set Nat) (k : Kernel) (a : Nat) : Prop where
  inLog : InLog k.alloc.blocks a
  zero : k.mem a = 0
  unowned : ¬ Owned S k a

theorem Unused.vacant {k : Kernel} {page size a : Nat} (unused : Unused S k page size)
    (low : page ≤ a) (high : a < page + size) : Vacant S k a :=
  ⟨unused.inLog a low high, unused.zero a low high, unused.unowned a low high⟩

section ReplaceSpare

variable {k : Kernel} {v : Nat} {change : NativePageTable → NativePageTable}

theorem tables_modifyNative (tables : (change (k.native v)).tables = (k.native v).tables) (w : Nat) :
    ((k.modifyNative v change).native w).tables = (k.native w).tables := by
  by_cases same : w = v
  · subst same
    rw [Kernel.native_modifyNative_self, tables]
  · rw [Kernel.native_modifyNative_of_ne same]

theorem entries_modifyNative (entries : (change (k.native v)).entries = (k.native v).entries) (w : Nat) :
    ((k.modifyNative v change).native w).entries = (k.native w).entries := by
  by_cases same : w = v
  · subst same
    rw [Kernel.native_modifyNative_self, entries]
  · rw [Kernel.native_modifyNative_of_ne same]

/-- Every byte of an unused rest was one before, or was vacant. -/
theorem spares_modifyNative
    (spares : ∀ a, (change (k.native v)).Spares a → (k.native v).Spares a ∨ Vacant S k a)
    {w a : Nat} (spare : ((k.modifyNative v change).native w).Spares a) :
    (k.native w).Spares a ∨ w = v ∧ Vacant S k a := by
  by_cases same : w = v
  · subst same
    rw [Kernel.native_modifyNative_self] at spare
    rcases spares a spare with old | vacant
    · exact Or.inl old
    · exact Or.inr ⟨rfl, vacant⟩
  · rw [Kernel.native_modifyNative_of_ne same] at spare
    exact Or.inl spare

theorem owned_modifyNative (tables : (change (k.native v)).tables = (k.native v).tables)
    (spares : ∀ a, (change (k.native v)).Spares a → (k.native v).Spares a ∨ Vacant S k a)
    {a : Nat} (owned : Owned S (k.modifyNative v change) a) :
    Owned S k a ∨ Vacant S k a ∧ (change (k.native v)).Spares a := by
  obtain ⟨w, member, covered | spare⟩ := owned
  · rw [tables_modifyNative tables] at covered
    exact Or.inl ⟨w, member, Or.inl covered⟩
  · rcases spares_modifyNative spares spare with old | ⟨rfl, vacant⟩
    · exact Or.inl ⟨w, member, Or.inr old⟩
    · rw [Kernel.native_modifyNative_self] at spare
      exact Or.inr ⟨vacant, spare⟩

/-- Changing the unused rest of a buffer, inside what it was or into vacant memory. -/
theorem Intact.replaceSpare (intact : Intact S D k)
    (entries : (change (k.native v)).entries = (k.native v).entries)
    (tables : (change (k.native v)).tables = (k.native v).tables)
    (aligned : (change (k.native v)).memAvailableAddr % 4096 = 0)
    (spares : ∀ a, (change (k.native v)).Spares a → (k.native v).Spares a ∨ Vacant S k a) :
    Intact S D (k.modifyNative v change) := by
  have sameTables := tables_modifyNative tables
  constructor
  · intro w member table installed
    rw [sameTables] at installed
    exact intact.aligned w member table installed
  · intro w member
    by_cases same : w = v
    · subst same
      rw [Kernel.native_modifyNative_self]
      exact aligned
    · rw [Kernel.native_modifyNative_of_ne same]
      exact intact.spareAligned w member
  · simp only [sameTables]
    exact intact.distinct
  · intro w member u member' table installed a covers spare
    rw [sameTables] at installed
    rcases spares_modifyNative spares spare with old | ⟨-, vacant⟩
    · exact intact.apart w member u member' table installed a covers old
    · exact vacant.unowned ⟨w, member, Or.inl ⟨table, installed, covers⟩⟩
  · intro w member u member' a spare spare'
    rcases spares_modifyNative spares spare with old | ⟨isV, vacant⟩
    · rcases spares_modifyNative spares spare' with old' | ⟨-, vacant⟩
      · exact intact.sparesApart w member u member' a old old'
      · exact absurd ⟨w, member, Or.inr old⟩ vacant.unowned
    · rcases spares_modifyNative spares spare' with old' | ⟨isV', -⟩
      · exact absurd ⟨u, member', Or.inr old'⟩ vacant.unowned
      · exact isV.trans isV'.symm
  · intro a owned
    rcases owned_modifyNative tables spares owned with old | ⟨vacant, -⟩
    · exact intact.inLog a old
    · exact vacant.inLog
  · intro w member a spare
    rcases spares_modifyNative spares spare with old | ⟨-, vacant⟩
    · exact intact.zero w member a old
    · exact vacant.zero
  · simp only [sameTables]
    exact intact.children
  · simp only [sameTables]
    exact intact.parents
  · simp only [Rooted, sameTables, entries_modifyNative entries]
    exact intact.wired

end ReplaceSpare

/-! ## `allocated_aligned_memory` -/

section Handout

variable {k : Kernel} {v : Nat}

theorem Intact.spare_bound (intact : Intact S D k) (member : v ∈ S) (sound : Sound k.alloc.blocks)
    (room : 0 < (k.native v).memAvailableSize) :
    (k.native v).memAvailableAddr + (k.native v).memAvailableSize ≤ 2 ^ 48 := by
  have last : (k.native v).memAvailableAddr + (k.native v).memAvailableSize - 1 < 2 ^ 48 :=
    sound.inLog_bound (intact.inLog _ ⟨v, member, Or.inr ⟨by omega, by omega⟩⟩)
  omega

theorem take_range (room : 4096 ≤ (k.native v).memAvailableSize)
    (bound : (k.native v).memAvailableAddr + (k.native v).memAvailableSize ≤ 2 ^ 48) :
    ((k.native v).take 4096).memAvailableAddr = (k.native v).memAvailableAddr + 4096 ∧
      ((k.native v).take 4096).memAvailableSize = (k.native v).memAvailableSize - 4096 :=
  ⟨wrap_of_lt (by omega), wrapSub_of_le room (by omega)⟩

/-- Handing out the first page of the unused rest. -/
theorem Intact.take (intact : Intact S D k) (member : v ∈ S) (sound : Sound k.alloc.blocks)
    (room : 4096 ≤ (k.native v).memAvailableSize) :
    Intact S D (k.modifyNative v (NativePageTable.take 4096)) ∧
      Extends S k (k.modifyNative v (NativePageTable.take 4096)) ∧
      Unused S (k.modifyNative v (NativePageTable.take 4096)) (k.native v).memAvailableAddr 4096 := by
  have bound := intact.spare_bound member sound (by omega)
  obtain ⟨addr, size⟩ := take_range room bound
  have narrowed : ∀ a, ((k.native v).take 4096).Spares a →
      (k.native v).Spares a ∧ (k.native v).memAvailableAddr + 4096 ≤ a := by
    intro a spare
    unfold NativePageTable.Spares at spare
    rw [addr, size] at spare
    exact ⟨⟨by omega, by omega⟩, spare.1⟩
  have shrunk : ∀ a, Owned S (k.modifyNative v (NativePageTable.take 4096)) a → Owned S k a := by
    intro a owned
    rcases owned_modifyNative (take_tables _ _) (fun a spare => Or.inl (narrowed a spare).1) owned with old | ⟨-, spare⟩
    · exact old
    · exact ⟨v, member, Or.inr (narrowed a spare).1⟩
  refine ⟨?_, ?_, ?_⟩
  · refine intact.replaceSpare (take_entries _ _) (take_tables _ _) ?_ fun a spare => Or.inl (narrowed a spare).1
    have aligned := intact.spareAligned v member
    rw [addr]
    omega
  · constructor
    · exact fun w _ => entries_modifyNative (take_entries _ _) w
    · intro w _ table installed
      rwa [tables_modifyNative (take_tables _ _)]
    · exact fun _ _ _ _ _ _ _ _ found => found
    · exact fun a _ free => ⟨rfl, fun owned => free (shrunk a owned)⟩
  · have spare : ∀ a, (k.native v).memAvailableAddr ≤ a → a < (k.native v).memAvailableAddr + 4096 →
        (k.native v).Spares a := fun a low high => ⟨low, by omega⟩
    constructor
    · exact fun a low high => intact.inLog a ⟨v, member, Or.inr (spare a low high)⟩
    · exact fun a low high => intact.zero v member a (spare a low high)
    · rintro a low high ⟨w, member', ⟨table, installed, covers⟩ | rest⟩
      · rw [tables_modifyNative (take_tables _ _)] at installed
        exact intact.apart w member' v member table installed a covers (spare a low high)
      · by_cases same : w = v
        · subst same
          rw [Kernel.native_modifyNative_self] at rest
          have above := (narrowed a rest).2
          omega
        · rw [Kernel.native_modifyNative_of_ne same] at rest
          exact same (intact.sparesApart w member' v member a rest (spare a low high))

/-- The state of `allocated_aligned_memory` once the buffer has room. -/
def refill (kalloc : Kalloc) (v : Nat) (k : Kernel) : Kernel :=
  let block := kalloc nativePagetableMemBufferSize k
  let listed := linkedlistAppend kalloc (allocatedMemoryOf v) block.1 block.2
  listed.2.modifyNative v (NativePageTable.useBlock block.1)

theorem createEntries_of_room (room : 4096 ≤ (k.native v).memAvailableSize) :
    createEntries kalloc v k =
      ((k.native v).memAvailableAddr, k.modifyNative v (NativePageTable.take 4096)) := by
  have enough : ¬ 8 * 512 > (k.native v).memAvailableSize := by omega
  simp only [createEntries, allocatedAlignedMemory, if_neg enough]

theorem createEntries_of_full (full : (k.native v).memAvailableSize < 4096) :
    createEntries kalloc v k = (((refill kalloc v k).native v).memAvailableAddr,
      (refill kalloc v k).modifyNative v (NativePageTable.take 4096)) := by
  have short : 8 * 512 > (k.native v).memAvailableSize := full
  simp only [createEntries, allocatedAlignedMemory, if_pos short, refill]

/-- A new buffer, whatever the two allocations for it did meanwhile. -/
theorem refill_keeps (apart : Apart S D Q kalloc) (mode : Q k.alloc) :
    KeepsTables S D Q k (refill kalloc v k) ∧
      (Sound (refill kalloc v k).alloc.blocks → Intact S D k →
        4096 ≤ ((refill kalloc v k).native v).memAvailableSize ∧
        ∀ a, ((refill kalloc v k).native v).Spares a → ¬ InLog k.alloc.blocks a) := by
  obtain ⟨block, same⟩ : ∃ block, block = kalloc nativePagetableMemBufferSize k := ⟨_, rfl⟩
  obtain ⟨listed, same'⟩ : ∃ listed, listed =
      (linkedlistAppend kalloc (allocatedMemoryOf v) block.1 block.2).2 := ⟨_, rfl⟩
  have call : KeepsTables S D Q k block.2 := same ▸ apart.keeps nativePagetableMemBufferSize k mode
  have append : KeepsTables S D Q block.2 listed :=
    same' ▸ linkedlistAppend_keeps apart (call.stays mode) (allocatedMemoryOf_sameTables v)
  have result : refill kalloc v k = listed.modifyNative v (NativePageTable.useBlock block.1) := by
    rw [same', same]
    rfl
  rw [result]
  have facts : Sound listed.alloc.blocks → Intact S D k →
      Unused S listed block.1 40960 ∧ block.1 + 40960 ≤ 2 ^ 48 ∧
      ∀ a, block.1 ≤ a → a < block.1 + 40960 → ¬ InLog k.alloc.blocks a := by
    intro sound intact
    have soundBlock := sound.of_suffix append.log
    have unused : Unused S block.2 block.1 40960 := by
      rw [same] at soundBlock ⊢
      exact apart.unused nativePagetableMemBufferSize k mode soundBlock intact
    have fresh : ∀ a, block.1 ≤ a → a < block.1 + 40960 → ¬ InLog k.alloc.blocks a := by
      rw [same] at soundBlock ⊢
      exact apart.fresh nativePagetableMemBufferSize k mode soundBlock
    obtain ⟨intact', -⟩ := call.kept soundBlock intact
    have unused' := (append.kept sound intact').2.unused append.log unused
    have last : block.1 + 40959 < 2 ^ 48 :=
      sound.inLog_bound (unused'.inLog _ (by omega) (by omega))
    exact ⟨unused', by omega, fresh⟩
  refine ⟨⟨append.stays ∘ call.stays, call.log.trans append.log, ?_⟩, ?_⟩
  · intro sound intact
    obtain ⟨unused, bound, fresh⟩ := facts sound intact
    obtain ⟨aligned, low, high, -⟩ := useBlock_range (listed.native v) (Nat.le_trans bound (by decide))
    obtain ⟨intact', extends'⟩ := (call.trans append).kept sound intact
    have range : ∀ a, ((listed.native v).useBlock block.1).Spares a →
        block.1 ≤ a ∧ a < block.1 + 40960 := fun a spare => ⟨le_trans low spare.1, high ▸ spare.2⟩
    have spares : ∀ a, ((listed.native v).useBlock block.1).Spares a →
        (listed.native v).Spares a ∨ Vacant S listed a := fun a spare =>
      Or.inr (unused.vacant (range a spare).1 (range a spare).2)
    refine ⟨intact'.replaceSpare (useBlock_entries _ _) (useBlock_tables _ _) aligned spares, ?_⟩
    constructor
    · intro w member
      rw [entries_modifyNative (useBlock_entries _ _)]
      exact extends'.entries w member
    · intro w member table installed
      rw [tables_modifyNative (useBlock_tables _ _)]
      exact extends'.tables w member table installed
    · exact extends'.upper
    · intro a inside free
      obtain ⟨kept, free'⟩ := extends'.foreign a inside free
      refine ⟨kept, fun owned => ?_⟩
      rcases owned_modifyNative (useBlock_tables _ _) spares owned with old | ⟨-, spare⟩
      · exact free' old
      · exact fresh a (range a spare).1 (range a spare).2 inside
  · intro sound intact
    obtain ⟨-, bound, fresh⟩ := facts sound intact
    rw [Kernel.native_modifyNative_self]
    obtain ⟨-, low, high, room⟩ := useBlock_range (listed.native v) (Nat.le_trans bound (by decide))
    exact ⟨room, fun a spare => fresh a (le_trans low spare.1) (high ▸ spare.2)⟩

/-- `create_entries` returns an unused page: part of the buffer, or of a block that was not
there before. -/
theorem createEntries_keeps (apart : Apart S D Q kalloc) (mode : Q k.alloc) (member : v ∈ S) :
    KeepsTables S D Q k (createEntries kalloc v k).2 ∧
      (Sound (createEntries kalloc v k).2.alloc.blocks → Intact S D k →
        Unused S (createEntries kalloc v k).2 (createEntries kalloc v k).1 4096 ∧
        (createEntries kalloc v k).1 % 4096 = 0 ∧
        ∀ a, (createEntries kalloc v k).1 ≤ a → a < (createEntries kalloc v k).1 + 4096 →
          InLog k.alloc.blocks a → Owned S k a) := by
  by_cases room : 4096 ≤ (k.native v).memAvailableSize
  · rw [createEntries_of_room room]
    refine ⟨⟨id, List.suffix_rfl, ?_⟩, ?_⟩
    · intro sound intact
      obtain ⟨intact', extends', -⟩ := intact.take member sound room
      exact ⟨intact', extends'⟩
    · intro sound intact
      refine ⟨(intact.take member sound room).2.2, intact.spareAligned v member, ?_⟩
      exact fun a low high _ => ⟨v, member, Or.inr ⟨low, by omega⟩⟩
  · rw [createEntries_of_full (by omega)]
    obtain ⟨keeps, filled⟩ := refill_keeps (k := k) (v := v) apart mode
    refine ⟨⟨keeps.stays, keeps.log, ?_⟩, ?_⟩
    · intro sound intact
      obtain ⟨intact', extends'⟩ := keeps.kept sound intact
      obtain ⟨intact'', extends'', -⟩ := intact'.take member sound (filled sound intact).1
      exact ⟨intact'', extends'.trans extends'' keeps.log⟩
    · intro sound intact
      have intact' := (keeps.kept sound intact).1
      obtain ⟨room', fresh⟩ := filled sound intact
      refine ⟨(intact'.take member sound room').2.2, intact'.spareAligned v member, ?_⟩
      exact fun a low high inside => absurd inside (fresh a ⟨low, by omega⟩)

end Handout

/-! ## Writing entries -/

section Entries

variable {k : Kernel} {v : Nat}

theorem Table.covers_base (table : Table) : table.Covers table.addr := ⟨Nat.le_refl _, by omega⟩

theorem entry_in_table {table : Table} {index a : Nat} (bound : index < 512)
    (low : table.addr + 8 * index ≤ a) (high : a < table.addr + 8 * index + 8) : table.Covers a :=
  ⟨by omega, by omega⟩

/-- A write into one table leaves every other entry of every table. -/
theorem Intact.child_write (intact : Intact S D k) {w level addr : Nat} {other : Table}
    {index index' : Nat} {entry : PageEntry} (member : v ∈ S) (member' : w ∈ S)
    (installed : { level := level, addr := addr } ∈ (k.native v).tables)
    (installed' : other ∈ (k.native w).tables) (bound : index < 512) (bound' : index' < 512)
    (different : other ≠ { level := level, addr := addr } ∨ index' ≠ index) :
    child (k.writeEntry addr index entry).mem other.addr index' = child k.mem other.addr index' := by
  apply child_writeEntry_other (intact.aligned v member _ installed)
    (intact.aligned w member' other installed') bound bound'
  rcases different with tables | indices
  · by_cases same : other.addr = addr
    · have covers : other.Covers addr := same ▸ other.covers_base
      exact absurd (intact.distinct w member' v member other installed' _ installed addr covers
        (Table.covers_base _)).2 tables
    · exact Or.inl same
  · exact Or.inr indices

/-- A write into a table changes no byte outside it. -/
theorem writeEntry_outside {addr index a : Nat} {entry : PageEntry} (bound : index < 512)
    (outside : ¬ (addr ≤ a ∧ a < addr + 4096)) : (k.writeEntry addr index entry).mem a = k.mem a := by
  apply Memory.store64_outside
  omega

/-- Writing an entry of a leaf table. -/
theorem Intact.writeLeaf (intact : Intact S D k) {addr index : Nat} (entry : PageEntry) (member : v ∈ S)
    (installed : { level := 1, addr := addr } ∈ (k.native v).tables) (bound : index < 512) :
    Intact S D (k.writeEntry addr index entry) ∧ Extends S k (k.writeEntry addr index entry) := by
  have upper : ∀ w ∈ S, ∀ table ∈ (k.native w).tables, 2 ≤ table.level → ∀ index', index' < 512 →
      child (k.writeEntry addr index entry).mem table.addr index' = child k.mem table.addr index' := by
    intro w member' table installed' level index' bound'
    refine intact.child_write member member' installed installed' bound bound' (Or.inl ?_)
    rintro rfl
    exact absurd level (by simp)
  refine ⟨⟨intact.aligned, intact.spareAligned, intact.distinct, intact.apart, intact.sparesApart,
    intact.inLog, ?_, ?_, ?_, intact.wired⟩, ⟨fun _ _ => rfl, fun _ _ _ here => here, ?_, ?_⟩⟩
  · intro w member' a spare
    have outside := fun covers => intact.apart v member w member' _ installed a covers spare
    rw [writeEntry_outside bound outside]
    exact intact.zero w member' a spare
  · intro w member' table installed' level index' bound' target found
    rw [upper w member' table installed' level index' bound'] at found
    exact intact.children w member' table installed' level index' bound' target found
  · intro w member' table installed' other installed'' level level' i j boundI boundJ target found found'
    rw [upper w member' table installed' level i boundI] at found
    rw [upper w member' other installed'' level' j boundJ] at found'
    exact intact.parents w member' table installed' other installed'' level level' i j boundI boundJ
      target found found'
  · intro w member' table installed' level index' bound' target found
    rwa [upper w member' table installed' level index' bound']
  · intro a _ free
    have outside := fun covers => free ⟨v, member, Or.inl ⟨_, installed, covers⟩⟩
    exact ⟨writeEntry_outside bound outside, free⟩

/-- The state in which an unused page has become the table behind an entry. -/
def link (v level entries index page : Nat) (k : Kernel) : Kernel :=
  (k.writeEntry entries index
    (fillEntryValue (readEntry k.mem entries index) page true true true)).modifyNative v
      (NativePageTable.install level page)

theorem link_native_self (k : Kernel) (v level entries index page : Nat) :
    (link v level entries index page k).native v = (k.native v).install level page :=
  Kernel.native_modifyNative_self _ _ _

theorem link_native_of_ne {w level entries index page : Nat} (other : w ≠ v) :
    (link v level entries index page k).native w = k.native w :=
  Kernel.native_modifyNative_of_ne other

theorem link_alloc (k : Kernel) (v level entries index page : Nat) :
    (link v level entries index page k).alloc = k.alloc := rfl

theorem link_spares {w level entries index page a : Nat} :
    ((link v level entries index page k).native w).Spares a ↔ (k.native w).Spares a := by
  by_cases same : w = v
  · subst same
    rw [link_native_self]
    rfl
  · rw [link_native_of_ne same]

theorem link_installed {w level entries index page : Nat} {table : Table}
    (installed : table ∈ ((link v level entries index page k).native w).tables) :
    w = v ∧ table = { level := level, addr := page } ∨ table ∈ (k.native w).tables := by
  by_cases same : w = v
  · subst same
    rw [link_native_self] at installed
    rcases List.mem_cons.mp installed with new | old
    · exact Or.inl ⟨rfl, new⟩
    · exact Or.inr old
  · rw [link_native_of_ne same] at installed
    exact Or.inr installed

theorem installed_link {w level entries index page : Nat} {table : Table}
    (installed : table ∈ (k.native w).tables) :
    table ∈ ((link v level entries index page k).native w).tables := by
  by_cases same : w = v
  · subst same
    rw [link_native_self]
    exact List.mem_cons_of_mem _ installed
  · rwa [link_native_of_ne same]

theorem link_entries (w level entries index page : Nat) :
    ((link v level entries index page k).native w).entries = (k.native w).entries := by
  by_cases same : w = v
  · subst same
    rw [link_native_self]
    rfl
  · rw [link_native_of_ne same]

theorem link_owned {level entries index page a : Nat}
    (own : Owned S (link v level entries index page k) a) :
    Owned S k a ∨ page ≤ a ∧ a < page + 4096 := by
  obtain ⟨w, member, ⟨table, installed, covers⟩ | spare⟩ := own
  · rcases link_installed installed with ⟨-, rfl⟩ | old
    · exact Or.inr covers
    · exact Or.inl ⟨w, member, Or.inl ⟨table, old, covers⟩⟩
  · exact Or.inl ⟨w, member, Or.inr (link_spares.mp spare)⟩

/-- An unused page about to become the table of `level` behind the entry `index` of the table
`entries`, which is one level above. -/
structure Linkable (S D : Set Nat) (v level entries index page : Nat) (k : Kernel) : Prop where
  member : v ∈ S
  intact : Intact S D k
  installed : { level := level + 1, addr := entries } ∈ (k.native v).tables
  bound : index < 512
  unused : Unused S k page 4096
  aligned : page % 4096 = 0
  low : page < 2 ^ 48

namespace Linkable

variable {level entries index page : Nat}

theorem of_created (member : v ∈ S) (intact : Intact S D k) (sound : Sound k.alloc.blocks)
    (installed : { level := level + 2, addr := entries } ∈ (k.native v).tables) (bound : index < 512)
    (unused : Unused S k page 4096) (aligned : page % 4096 = 0) :
    Linkable S D v (level + 1) entries index page k :=
  ⟨member, intact, installed, bound, unused, aligned,
    sound.inLog_bound (unused.inLog _ (Nat.le_refl _) (by omega))⟩

theorem installed_page (_ : Linkable S D v level entries index page k) :
    { level := level, addr := page } ∈ ((link v level entries index page k).native v).tables := by
  rw [link_native_self]
  exact List.mem_cons_self

theorem child_self (linkable : Linkable S D v level entries index page k) :
    child (link v level entries index page k).mem entries index = some page :=
  (child_writeEntry_self linkable.aligned).trans (by rw [Nat.mod_eq_of_lt linkable.low])

theorem child_other (linkable : Linkable S D v level entries index page k) {w : Nat} {table : Table}
    {index' : Nat} (member : w ∈ S) (installed : table ∈ (k.native w).tables) (bound : index' < 512)
    (different : table ≠ { level := level + 1, addr := entries } ∨ index' ≠ index) :
    child (link v level entries index page k).mem table.addr index' = child k.mem table.addr index' :=
  linkable.intact.child_write linkable.member member linkable.installed installed linkable.bound bound
    different

/-- The page is no table yet. -/
theorem not_covered (linkable : Linkable S D v level entries index page k) {w a : Nat} {table : Table}
    (member : w ∈ S) (installed : table ∈ (k.native w).tables) (covers : table.Covers a)
    (low : page ≤ a) (high : a < page + 4096) : False :=
  linkable.unused.unowned a low high ⟨w, member, Or.inl ⟨table, installed, covers⟩⟩

theorem outside (linkable : Linkable S D v level entries index page k) {a : Nat}
    (free : ¬ (entries ≤ a ∧ a < entries + 4096)) :
    (link v level entries index page k).mem a = k.mem a :=
  writeEntry_outside linkable.bound free

/-- The new table has no present entry. -/
theorem child_page (linkable : Linkable S D v level entries index page k) {index' : Nat}
    (bound : index' < 512) : child (link v level entries index page k).mem page index' = none := by
  refine child_of_zeroed (fun a low high => ?_) bound
  rw [linkable.outside fun covers =>
    linkable.not_covered linkable.member linkable.installed covers low high]
  exact linkable.unused.zero a low high

/-- What the entries above the leaf level lead to: the new table, or what they led to before. -/
theorem child_cases (linkable : Linkable S D v level entries index page k) {w addr index' : Nat}
    {table : Table} (member : w ∈ S)
    (installed : table ∈ ((link v level entries index page k).native w).tables) (bound : index' < 512)
    (found : child (link v level entries index page k).mem table.addr index' = some addr) :
    w = v ∧ table = { level := level + 1, addr := entries } ∧ index' = index ∧ addr = page ∨
      table ∈ (k.native w).tables ∧ child k.mem table.addr index' = some addr := by
  rcases link_installed installed with ⟨-, rfl⟩ | old
  · rw [linkable.child_page bound] at found
    cases found
  · by_cases same : table = { level := level + 1, addr := entries } ∧ index' = index
    · obtain ⟨rfl, rfl⟩ := same
      rw [linkable.child_self] at found
      have space := (linkable.intact.distinct w member v linkable.member _ old _ linkable.installed
        entries (Table.covers_base _) (Table.covers_base _)).1
      exact Or.inl ⟨space, rfl, rfl, (Option.some.inj found).symm⟩
    · rw [linkable.child_other member old bound (by tauto)] at found
      exact Or.inr ⟨old, found⟩

/-- A child found before the link is not the new table. -/
theorem child_ne_page (linkable : Linkable S D v level entries index page k) {w addr index' : Nat}
    {table : Table} (member : w ∈ S) (installed : table ∈ (k.native w).tables) (upper : 2 ≤ table.level)
    (bound : index' < 512) (found : child k.mem table.addr index' = some addr) : addr ≠ page := by
  rintro rfl
  exact linkable.not_covered member
    (linkable.intact.children w member table installed upper index' bound addr found)
    (Table.covers_base _) (Nat.le_refl _) (Nat.lt_add_of_pos_right (by decide))

theorem linked (linkable : Linkable S D v level entries index page k) :
    Intact S D (link v level entries index page k) := by
  have intact := linkable.intact
  constructor
  · intro w member table installed
    rcases link_installed installed with ⟨-, rfl⟩ | old
    · exact linkable.aligned
    · exact intact.aligned w member table old
  · intro w member
    by_cases same : w = v
    · subst same
      rw [link_native_self]
      exact intact.spareAligned w member
    · rw [link_native_of_ne same]
      exact intact.spareAligned w member
  · intro w member u member' table installed other installed' a covers covers'
    rcases link_installed installed with ⟨rfl, rfl⟩ | old
    · rcases link_installed installed' with ⟨rfl, rfl⟩ | old'
      · exact ⟨rfl, rfl⟩
      · exact (linkable.not_covered member' old' covers' covers.1 covers.2).elim
    · rcases link_installed installed' with ⟨rfl, rfl⟩ | old'
      · exact (linkable.not_covered member old covers covers'.1 covers'.2).elim
      · exact intact.distinct w member u member' table old other old' a covers covers'
  · intro w member u member' table installed a covers spare
    rw [link_spares] at spare
    rcases link_installed installed with ⟨-, rfl⟩ | old
    · exact linkable.unused.unowned a covers.1 covers.2 ⟨u, member', Or.inr spare⟩
    · exact intact.apart w member u member' table old a covers spare
  · simp only [link_spares]
    exact intact.sparesApart
  · intro a own
    rcases link_owned own with old | inside
    · exact intact.inLog a old
    · exact linkable.unused.inLog a inside.1 inside.2
  · intro w member a spare
    rw [link_spares] at spare
    rw [linkable.outside fun covers =>
      intact.apart v linkable.member w member _ linkable.installed a covers spare]
    exact intact.zero w member a spare
  · intro w member table installed upper index' bound addr found
    rcases linkable.child_cases member installed bound found with ⟨rfl, rfl, -, rfl⟩ | ⟨old, found'⟩
    · rw [link_native_self]
      exact List.mem_cons_self
    · exact installed_link (intact.children w member table old upper index' bound addr found')
  · intro w member table installed other installed' upper upper' i j boundI boundJ addr found found'
    rcases linkable.child_cases member installed boundI found with ⟨-, rfl, rfl, rfl⟩ | ⟨old, before⟩
    · rcases linkable.child_cases member installed' boundJ found' with ⟨-, rfl, rfl, -⟩ | ⟨old', before'⟩
      · exact ⟨rfl, rfl⟩
      · exact absurd rfl (linkable.child_ne_page member old' upper' boundJ before')
    · rcases linkable.child_cases member installed' boundJ found' with ⟨-, rfl, rfl, rfl⟩ | ⟨old', before'⟩
      · exact absurd rfl (linkable.child_ne_page member old upper boundI before)
      · exact intact.parents w member table old other old' upper upper' i j boundI boundJ addr before
          before'
  · intro r member w attached
    obtain ⟨space, root⟩ := intact.wired r member w attached
    refine ⟨space, ?_⟩
    rw [Rooted, link_entries]
    exact installed_link root

/-- Seen from before the page was handed out, the link fills an entry that was not present,
so the entries that were present are kept even if the allocation itself filled this one. -/
theorem extends_of_missing (linkable : Linkable S D v level entries index page k) {before : Kernel}
    (kept : Extends S before k)
    (installed : { level := level + 1, addr := entries } ∈ (before.native v).tables)
    (missing : child before.mem entries index = none)
    (source : ∀ a, page ≤ a → a < page + 4096 → InLog before.alloc.blocks a → Owned S before a) :
    Extends S before (link v level entries index page k) := by
  constructor
  · intro w member
    rw [link_entries]
    exact kept.entries w member
  · intro w member table here
    exact installed_link (kept.tables w member table here)
  · intro w member table here upper index' bound addr found
    have different : table ≠ { level := level + 1, addr := entries } ∨ index' ≠ index := by
      by_contra same
      obtain ⟨rfl, rfl⟩ : table = { level := level + 1, addr := entries } ∧ index' = index := by tauto
      rw [missing] at found
      cases found
    rw [linkable.child_other member (kept.tables w member table here) bound different]
    exact kept.upper w member table here upper index' bound addr found
  · intro a inside free
    obtain ⟨same, free'⟩ := kept.foreign a inside free
    refine ⟨?_, fun own => ?_⟩
    · rw [linkable.outside fun covers =>
        free ⟨v, linkable.member, Or.inl ⟨_, installed, covers⟩⟩]
      exact same
    · rcases link_owned own with old | range
      · exact free' old
      · exact free (source a range.1 range.2 inside)

end Linkable

/-! ## `set_entry` -/

theorem setEntry_present {level entries virtualAddr physicalAddr : Nat} {user code writable : Bool}
    {target : Nat}
    (found : child k.mem entries (indexForLevel (level + 2) virtualAddr) = some target) :
    setEntry kalloc v (level + 2) entries virtualAddr physicalAddr user code writable k =
      setEntry kalloc v (level + 1) target virtualAddr physicalAddr user code writable k := by
  unfold child at found
  cases present : (readEntry k.mem entries (indexForLevel (level + 2) virtualAddr)).present with
  | false => simp [present] at found
  | true =>
      simp only [present, if_true, Option.some.injEq] at found
      simp only [setEntry, present, if_true, found]

theorem setEntry_absent {level entries virtualAddr physicalAddr : Nat} {user code writable : Bool}
    (missing : child k.mem entries (indexForLevel (level + 2) virtualAddr) = none) :
    setEntry kalloc v (level + 2) entries virtualAddr physicalAddr user code writable k =
      setEntry kalloc v (level + 1) (createEntries kalloc v k).1 virtualAddr physicalAddr user code
        writable (link v (level + 1) entries (indexForLevel (level + 2) virtualAddr)
          (createEntries kalloc v k).1 (createEntries kalloc v k).2) := by
  rw [child_eq_none_iff] at missing
  simp [setEntry, missing, link]

/-- A step that keeps the tables in order as long as it starts from one of them. -/
structure KeepsFrom (S D : Set Nat) (Q : Allocator → Prop) (v : Nat) (table : Table) (k k' : Kernel) :
    Prop where
  stays : Q k.alloc → Q k'.alloc
  log : k.alloc.blocks <:+ k'.alloc.blocks
  kept : Sound k'.alloc.blocks → Intact S D k → table ∈ (k.native v).tables →
    Intact S D k' ∧ Extends S k k'

theorem KeepsFrom.refl (S D : Set Nat) (Q : Allocator → Prop) (v : Nat) (table : Table) (k : Kernel) :
    KeepsFrom S D Q v table k k :=
  ⟨id, List.suffix_rfl, fun _ intact _ => ⟨intact, Extends.refl S k⟩⟩

theorem setEntry_keeps (apart : Apart S D Q kalloc) (member : v ∈ S) (level : Nat) :
    ∀ (entries virtualAddr physicalAddr : Nat) (user code writable : Bool) (k : Kernel), Q k.alloc →
      KeepsFrom S D Q v { level := level, addr := entries } k
        (setEntry kalloc v level entries virtualAddr physicalAddr user code writable k) := by
  induction level with
  | zero =>
      intro entries virtualAddr physicalAddr user code writable k _
      exact KeepsFrom.refl S D Q v _ k
  | succ level ih =>
      intro entries virtualAddr physicalAddr user code writable k mode
      cases level with
      | zero =>
          exact ⟨id, List.suffix_rfl, fun _ intact installed =>
            intact.writeLeaf _ member installed (indexForLevel_lt 0 virtualAddr)⟩
      | succ level =>
          have bound : indexForLevel (level + 2) virtualAddr < 512 := indexForLevel_lt _ _
          cases found : child k.mem entries (indexForLevel (level + 2) virtualAddr) with
          | some target =>
              rw [setEntry_present found]
              have inner := ih target virtualAddr physicalAddr user code writable k mode
              refine ⟨inner.stays, inner.log, fun sound intact installed => inner.kept sound intact ?_⟩
              exact intact.children v member _ installed (by simp) _ bound target found
          | none =>
              rw [setEntry_absent found]
              obtain ⟨created, page⟩ := createEntries_keeps (k := k) (v := v) apart mode member
              obtain ⟨stays, log, kept⟩ := ih (createEntries kalloc v k).1 virtualAddr physicalAddr user
                code writable (link v (level + 1) entries (indexForLevel (level + 2) virtualAddr)
                  (createEntries kalloc v k).1 (createEntries kalloc v k).2)
                (by rw [link_alloc]; exact created.stays mode)
              rw [link_alloc] at stays log
              refine ⟨stays ∘ created.stays, created.log.trans log, fun sound intact installed => ?_⟩
              have soundPage := sound.of_suffix log
              obtain ⟨intact', extends'⟩ := created.kept soundPage intact
              obtain ⟨unused, aligned, source⟩ := page soundPage intact
              have linkable := Linkable.of_created member intact' soundPage
                (extends'.tables v member _ installed) bound unused aligned
              obtain ⟨intact'', extends''⟩ := kept sound linkable.linked linkable.installed_page
              refine ⟨intact'', Extends.trans ?_ extends'' created.log⟩
              exact linkable.extends_of_missing extends' installed found source

/-! ## `native_vmem_set` -/

theorem Extends.rooted {k' : Kernel} (kept : Extends S k k') (member : v ∈ S) (root : Rooted v k) :
    Rooted v k' := by
  unfold Rooted
  rw [kept.entries v member]
  exact kept.tables v member _ root

theorem nativeVmemSetLoop_keeps (apart : Apart S D Q kalloc) (member : v ∈ S) (entry : PageMapEntry)
    (count : Nat) : ∀ k : Kernel, Q k.alloc →
      KeepsFrom S D Q v { level := 4, addr := (k.native v).entries } k
        (nativeVmemSetLoop kalloc v entry count k) := by
  induction count with
  | zero =>
      intro k _
      exact KeepsFrom.refl S D Q v _ k
  | succ count ih =>
      intro k mode
      rw [nativeVmemSetLoop]
      have first := setEntry_keeps apart member 4 (k.native v).entries entry.virtualAddr
        entry.physicalAddr (!permIsKernelMode entry.permission) (permIsExec entry.permission)
        (permIsWrite entry.permission) k mode
      have rest := ih (setEntry kalloc v 4 (k.native v).entries entry.virtualAddr
        entry.physicalAddr (!permIsKernelMode entry.permission) (permIsExec entry.permission)
        (permIsWrite entry.permission) k) (first.stays mode)
      refine ⟨rest.stays ∘ first.stays, first.log.trans rest.log, fun sound intact root => ?_⟩
      obtain ⟨intact', extends'⟩ := first.kept (sound.of_suffix rest.log) intact root
      obtain ⟨intact'', extends''⟩ := rest.kept sound intact' (extends'.rooted member root)
      exact ⟨intact'', extends'.trans extends'' first.log⟩

theorem nativeVmemSet_keeps (apart : Apart S D Q kalloc) (mode : Q k.alloc) (member : v ∈ S)
    (entry : PageMapEntry) :
    KeepsFrom S D Q v { level := 4, addr := (k.native v).entries } k
      (nativeVmemSet kalloc v entry k).2 := by
  unfold nativeVmemSet
  split
  · exact KeepsFrom.refl S D Q v _ k
  · exact nativeVmemSetLoop_keeps apart member entry _ k mode

end Entries
end BubackOS
