import BubackOS.Core.EarlyAlloc

/-!
# The tables of `create_entries`

The buffer of one page table over whole sequences of calls of `create_entries`.  Between the
calls, and inside them while `kalloc` runs, there can be any calls of `kalloc` by others, further
calls of `create_entries` for the same page table, and stores into memory that was handed out.
-/

namespace BubackOS

open Library

/-- A table that was returned, and the memory at that moment. -/
structure Returned where
  page : Nat
  mem : Memory

def Returned.Covers (table : Returned) (a : Nat) : Prop := table.page ≤ a ∧ a < table.page + 4096

/-- `kalloc` serves a request in the state `k`: the block is not `NULL`, does not wrap, has no byte of an older
block and is zeroed.  The older blocks and the page table are left alone. -/
structure Serves (v size : Nat) (k : Kernel) (result : Nat × Kernel) : Prop where
  present : result.1 ≠ 0
  bound : result.1 + size ≤ 2 ^ 64
  logged : result.2.alloc.blocks = { addr := result.1, size := size } :: k.alloc.blocks
  disjoint : ∀ a, result.1 ≤ a → a < result.1 + size → ¬ InLog k.alloc.blocks a
  zero : result.2.mem.Zeroed result.1 size
  kept : ∀ a, InLog k.alloc.blocks a → result.2.mem a = k.mem a
  native : result.2.native v = k.native v

/-- The tables returned for a page table, the blocks in other hands, and the state. -/
structure Session where
  tables : List Returned
  blocks : List Block
  kernel : Kernel

/-- A store into memory. -/
def Kernel.poke (a : Nat) (byte : UInt8) (k : Kernel) : Kernel := { k with mem := Function.update k.mem a byte }

/-- The session after a call of `create_entries`. -/
def Session.handOut (kalloc : Kalloc) (v : Nat) (k : Kernel) (c : Session) : Session where
  tables := { page := (createEntries kalloc v k).1, mem := (createEntries kalloc v k).2.mem } :: c.tables
  blocks := c.blocks
  kernel := (createEntries kalloc v k).2

/-- The session after a block went to others. -/
def Session.give (size : Nat) (result : Nat × Kernel) (c : Session) : Session where
  tables := c.tables
  blocks := { addr := result.1, size := size } :: c.blocks
  kernel := result.2

/-- Any sequence of calls and stores.  The two requests of a `create_entries` that needs a new block are
served after any such sequence, which happens inside `kalloc`. -/
inductive Work (v : Nat) : Session → Session → Prop where
  | nothing (c : Session) : Work v c c
  | call {c c' : Session} {size : Nat} {result : Nat × Kernel} (before : Work v c c')
      (serves : Serves v size c'.kernel result) : Work v c (c'.give size result)
  | store {c c' : Session} (before : Work v c c') {a : Nat} (byte : UInt8)
      (owned : (∃ table ∈ c'.tables, table.Covers a) ∨ InLog c'.blocks a) :
      Work v c { c' with kernel := c'.kernel.poke a byte }
  | reuse {c c' : Session} (before : Work v c c') (kalloc : Kalloc)
      (room : 4096 ≤ (c'.kernel.native v).memAvailableSize) : Work v c (c'.handOut kalloc v c'.kernel)
  | refill {c c' c₁ c₂ : Session} (before : Work v c c') (kalloc : Kalloc)
      (full : (c'.kernel.native v).memAvailableSize < 4096) (first : Work v c' c₁)
      (block : Serves v nativePagetableMemBufferSize c₁.kernel (kalloc nativePagetableMemBufferSize c'.kernel))
      (second : Work v { c₁ with kernel := (kalloc nativePagetableMemBufferSize c'.kernel).2 } c₂)
      (node : Serves v sizeofLinkedlistNode c₂.kernel
        (kalloc sizeofLinkedlistNode (kalloc nativePagetableMemBufferSize c'.kernel).2)) :
      Work v c ((c₂.give sizeofLinkedlistNode
        (kalloc sizeofLinkedlistNode (kalloc nativePagetableMemBufferSize c'.kernel).2)).handOut kalloc v c'.kernel)

variable {v : Nat} {c c' c'' : Session} {kalloc : Kalloc}

/-- A byte of a table or of the rest of the buffer. -/
def Session.Held (v : Nat) (c : Session) (a : Nat) : Prop :=
  (∃ table ∈ c.tables, table.Covers a) ∨ (c.kernel.native v).Spares a

/-- Tables and buffer are in order. -/
structure Session.InOrder (v : Nat) (c : Session) : Prop where
  listed : (c.kernel.native v).allocatedMemory.isSome
  obtained : ∀ block ∈ (c.kernel.native v).allocatedMemory.items, block + 40960 ≤ 2 ^ 64 ∧
    { addr := block, size := 40960 } ∈ c.kernel.alloc.blocks
  aligned : ∀ table ∈ c.tables, table.page % 4096 = 0
  inside : ∀ table ∈ c.tables, ∃ block ∈ (c.kernel.native v).allocatedMemory.items,
    block ≤ table.page ∧ table.page + 4096 ≤ block + 40960
  zero : ∀ table ∈ c.tables, table.mem.Zeroed table.page 4096
  distinct : c.tables.Pairwise fun s t => ∀ a, s.Covers a → ¬ t.Covers a
  spareAligned : (c.kernel.native v).memAvailableAddr % 4096 = 0
  spareInside : 0 < (c.kernel.native v).memAvailableSize →
    ∃ block ∈ (c.kernel.native v).allocatedMemory.items, block ≤ (c.kernel.native v).memAvailableAddr ∧
      (c.kernel.native v).memAvailableAddr + (c.kernel.native v).memAvailableSize ≤ block + 40960
  spareZero : ∀ a, (c.kernel.native v).Spares a → c.kernel.mem a = 0
  apart : ∀ table ∈ c.tables, ∀ a, table.Covers a → ¬ (c.kernel.native v).Spares a
  others : ∀ a, InLog c.blocks a → InLog c.kernel.alloc.blocks a ∧ ¬ c.Held v a

/-- Order is kept, and memory in no hands is left alone. -/
structure Session.Keeps (v : Nat) (c c' : Session) : Prop where
  order : c.InOrder v → c'.InOrder v
  log : c.InOrder v → c.kernel.alloc.blocks <:+ c'.kernel.alloc.blocks
  free : c.InOrder v → ∀ a, InLog c.kernel.alloc.blocks a → ¬ c.Held v a → ¬ InLog c.blocks a →
    c'.kernel.mem a = c.kernel.mem a ∧ ¬ c'.Held v a ∧ ¬ InLog c'.blocks a

namespace Session

theorem InOrder.held_inLog (order : c.InOrder v) {a : Nat} (held : c.Held v a) : InLog c.kernel.alloc.blocks a := by
  rcases held with ⟨table, member, covers⟩ | spare
  · obtain ⟨block, listed, low, high⟩ := order.inside table member
    refine ⟨_, (order.obtained block listed).2, ?_⟩
    exact ⟨Nat.le_trans low covers.1, Nat.lt_of_lt_of_le covers.2 high⟩
  · obtain ⟨block, listed, low, high⟩ := order.spareInside (by unfold NativePageTable.Spares at spare; omega)
    refine ⟨_, (order.obtained block listed).2, ?_⟩
    exact ⟨Nat.le_trans low spare.1, Nat.lt_of_lt_of_le spare.2 high⟩

theorem Keeps.refl (v : Nat) (c : Session) : Keeps v c c where
  order := id
  log := fun _ => List.suffix_rfl
  free := fun _ _ _ free other => ⟨rfl, free, other⟩

theorem Keeps.trans (first : Keeps v c c') (second : Keeps v c' c'') : Keeps v c c'' where
  order := second.order ∘ first.order
  log := fun order => (first.log order).trans (second.log (first.order order))
  free := by
    intro order a inside free other
    obtain ⟨mem, free', other'⟩ := first.free order a inside free other
    obtain ⟨mem', free'', other''⟩ := second.free (first.order order) a (inside.mono (first.log order)) free' other'
    exact ⟨mem'.trans mem, free'', other''⟩

theorem Keeps.of_order (keeps : c.InOrder v → Keeps v c c') : Keeps v c c' where
  order := fun order => (keeps order).order order
  log := fun order => (keeps order).log order
  free := fun order => (keeps order).free order

/-! ## The single steps -/

/-- A block that is served has no byte of anything older. -/
theorem Keeps.serve {size : Nat} {result : Nat × Kernel} (serves : Serves v size c.kernel result) :
    Keeps v c { c with kernel := result.2 } := by
  have held : ∀ a, ({ c with kernel := result.2 } : Session).Held v a ↔ c.Held v a := by
    intro a
    unfold Held
    rw [serves.native]
  have log : c.kernel.alloc.blocks <:+ result.2.alloc.blocks := serves.logged ▸ List.suffix_cons _ _
  refine ⟨fun order => ?_, fun _ => log,
    fun _ a inside free other => ⟨serves.kept a inside, fun now => free ((held a).mp now), other⟩⟩
  have spare : ∀ a, (result.2.native v).Spares a → InLog c.kernel.alloc.blocks a := by
    intro a spare
    rw [serves.native] at spare
    exact order.held_inLog (Or.inr spare)
  constructor
  all_goals dsimp only
  all_goals try rw [serves.native]
  · exact order.listed
  · exact fun block member => ⟨(order.obtained block member).1, log.subset (order.obtained block member).2⟩
  · exact order.aligned
  · exact order.inside
  · exact order.zero
  · exact order.distinct
  · exact order.spareAligned
  · exact order.spareInside
  · intro a isSpare
    rw [serves.kept a (order.held_inLog (Or.inr isSpare))]
    exact order.spareZero a isSpare
  · exact order.apart
  · exact fun a other => ⟨(order.others a other).1.mono log, fun now => (order.others a other).2 ((held a).mp now)⟩

/-- The block goes to others. -/
theorem Keeps.give {size : Nat} {result : Nat × Kernel} (serves : Serves v size c.kernel result) :
    Keeps v c (c.give size result) := by
  have served := Keeps.serve serves
  have new : ∀ a, InLog (c.give size result).blocks a →
      (result.1 ≤ a ∧ a < result.1 + size) ∨ InLog c.blocks a := by
    rintro a ⟨block, member, covers⟩
    rcases List.mem_cons.mp member with rfl | old
    · exact Or.inl covers
    · exact Or.inr ⟨block, old, covers⟩
  refine ⟨fun order => ?_, served.log, fun order a inside free other => ?_⟩
  · have kept := served.order order
    refine { kept with others := fun a other => ?_ }
    rcases new a other with ⟨low, high⟩ | old
    · refine ⟨⟨_, serves.logged ▸ List.mem_cons_self, low, high⟩, fun held => ?_⟩
      have before : c.Held v a := by
        unfold Held at held ⊢
        unfold Session.give at held
        dsimp only at held
        rw [serves.native] at held
        exact held
      exact serves.disjoint a low high (order.held_inLog before)
    · exact kept.others a old
  · obtain ⟨mem, free', -⟩ := served.free order a inside free other
    refine ⟨mem, free', fun now => ?_⟩
    rcases new a now with ⟨low, high⟩ | old
    · exact serves.disjoint a low high inside
    · exact other old

/-- A store into memory that was handed out. -/
theorem Keeps.store {a : Nat} (byte : UInt8) (owned : (∃ table ∈ c.tables, table.Covers a) ∨ InLog c.blocks a) :
    Keeps v c { c with kernel := c.kernel.poke a byte } := by
  have elsewhere : ∀ b, b ≠ a → (c.kernel.poke a byte).mem b = c.kernel.mem b :=
    fun b other => Function.update_of_ne other _ _
  refine ⟨fun order => ?_, fun _ => List.suffix_rfl, fun _ b _ free other => ⟨elsewhere b ?_, free, other⟩⟩
  · refine { order with spareZero := fun b spare => ?_ }
    have other : b ≠ a := by
      rintro rfl
      rcases owned with ⟨table, member, covers⟩ | foreign
      · exact order.apart table member b covers spare
      · exact (order.others b foreign).2 (Or.inr spare)
    exact (elsewhere b other).trans (order.spareZero b spare)
  · rintro rfl
    rcases owned with table | foreign
    · exact free (Or.inl table)
    · exact other foreign

theorem take_allocatedMemory (size : Nat) (pt : NativePageTable) :
    (pt.take size).allocatedMemory = pt.allocatedMemory := rfl

theorem useBlock_allocatedMemory (block : Nat) (pt : NativePageTable) :
    (pt.useBlock block).allocatedMemory = pt.allocatedMemory := by
  unfold NativePageTable.useBlock
  dsimp only
  split <;> rfl

theorem take_buffer {pt : NativePageTable} (room : 4096 ≤ pt.memAvailableSize)
    (bound : pt.memAvailableAddr + pt.memAvailableSize ≤ 2 ^ 64) (aligned : pt.memAvailableAddr % 4096 = 0) :
    (pt.take 4096).memAvailableAddr % 4096 = 0 ∧
      (∀ a, (pt.take 4096).Spares a → pt.Spares a ∧ pt.memAvailableAddr + 4096 ≤ a) ∧
      (0 < (pt.take 4096).memAvailableSize → (pt.take 4096).memAvailableAddr = pt.memAvailableAddr + 4096 ∧
        (pt.take 4096).memAvailableSize = pt.memAvailableSize - 4096) := by
  unfold NativePageTable.Spares NativePageTable.take wrapSub wrap
  dsimp only
  refine ⟨by omega, fun a spare => by omega, fun positive => by omega⟩

/-- A table from a buffer with room for it. -/
theorem Keeps.take (room : 4096 ≤ (c.kernel.native v).memAvailableSize) :
    Keeps v c
      { tables := { page := (c.kernel.native v).memAvailableAddr, mem := c.kernel.mem } :: c.tables
        blocks := c.blocks
        kernel := c.kernel.modifyNative v (NativePageTable.take 4096) } := by
  have native : (c.kernel.modifyNative v (NativePageTable.take 4096)).native v =
      (c.kernel.native v).take 4096 := Kernel.native_modifyNative_self _ _ _
  have buffer : c.InOrder v → _ := fun order =>
    have ⟨block, listed, low, high⟩ := order.spareInside (Nat.lt_of_lt_of_le (by decide) room)
    take_buffer room (Nat.le_trans high (order.obtained block listed).1) order.spareAligned
  have covered : ∀ (m : Memory) a, ({ page := (c.kernel.native v).memAvailableAddr, mem := m } : Returned).Covers a →
      (c.kernel.native v).Spares a := fun _ a covers =>
        ⟨covers.1, Nat.lt_of_lt_of_le covers.2 (Nat.add_le_add_left room _)⟩
  -- what is held stays the same, only the table moves from the buffer to the list
  have held : c.InOrder v → ∀ a, (Session.Held v
      { tables := { page := (c.kernel.native v).memAvailableAddr, mem := c.kernel.mem } :: c.tables
        blocks := c.blocks
        kernel := c.kernel.modifyNative v (NativePageTable.take 4096) } a) → c.Held v a := by
    rintro order a (⟨table, member, covers⟩ | spare)
    · rcases List.mem_cons.mp member with rfl | old
      · exact Or.inr (covered _ a covers)
      · exact Or.inl ⟨table, old, covers⟩
    · rw [native] at spare
      exact Or.inr ((buffer order).2.1 a spare).1
  refine ⟨fun order => ?_, fun _ => List.suffix_rfl,
    fun order a _ free other => ⟨rfl, fun now => free (held order a now), other⟩⟩
  obtain ⟨aligned, spares, rest⟩ := buffer order
  obtain ⟨block, listed, low, high⟩ := order.spareInside (Nat.lt_of_lt_of_le (by decide) room)
  have items : ((c.kernel.modifyNative v (NativePageTable.take 4096)).native v).allocatedMemory =
      (c.kernel.native v).allocatedMemory := by rw [native, take_allocatedMemory]
  constructor
  all_goals dsimp only
  · rw [items]
    exact order.listed
  · rw [items]
    exact order.obtained
  · intro table member
    rcases List.mem_cons.mp member with rfl | old
    · exact order.spareAligned
    · exact order.aligned table old
  · rw [items]
    intro table member
    rcases List.mem_cons.mp member with rfl | old
    · exact ⟨block, listed, low, Nat.le_trans (Nat.add_le_add_left room _) high⟩
    · exact order.inside table old
  · intro table member
    rcases List.mem_cons.mp member with rfl | old
    · exact fun a low high => order.spareZero a (covered c.kernel.mem a ⟨low, high⟩)
    · exact order.zero table old
  · refine List.pairwise_cons.mpr ⟨fun table member a covers inside => ?_, order.distinct⟩
    exact order.apart table member a inside (covered _ a covers)
  · rw [native]
    exact aligned
  · rw [items, native]
    intro positive
    obtain ⟨address, size⟩ := rest positive
    refine ⟨block, listed, ?_, ?_⟩
    · rw [address]
      omega
    · rw [address, size]
      omega
  · rw [native]
    exact fun a spare => order.spareZero a (spares a spare).1
  · rw [native]
    intro table member a covers spare
    rcases List.mem_cons.mp member with rfl | old
    · exact absurd covers.2 (Nat.not_lt.mpr (spares a spare).2)
    · exact order.apart table old a covers (spares a spare).1
  · exact fun a other => ⟨(order.others a other).1, fun now => (order.others a other).2 (held order a now)⟩

/-- The session after a block became the buffer. -/
def adopt (v block : Nat) (c : Session) : Session where
  tables := c.tables
  blocks := c.blocks
  kernel := ((allocatedMemoryOf v).modify (· ++ [block]) c.kernel).modifyNative v (NativePageTable.useBlock block)

theorem InOrder.adopt {block : Nat} (order : c.InOrder v) (bound : block + 40960 ≤ 2 ^ 64)
    (logged : { addr := block, size := 40960 } ∈ c.kernel.alloc.blocks) (zero : c.kernel.mem.Zeroed block 40960)
    (free : ∀ a, block ≤ a → a < block + 40960 → ¬ c.Held v a ∧ ¬ InLog c.blocks a) :
    (c.adopt v block).InOrder v ∧ 4096 ≤ ((c.adopt v block).kernel.native v).memAvailableSize ∧
      ∀ a, (c.adopt v block).Held v a → c.Held v a ∨ (block ≤ a ∧ a < block + 40960) := by
  have native : ((c.adopt v block).kernel.native v) =
      { c.kernel.native v with allocatedMemory := (c.kernel.native v).allocatedMemory.map (· ++ [block]) }.useBlock
        block := by
    unfold Session.adopt
    dsimp only
    rw [Kernel.native_modifyNative_self, allocatedMemoryOf, Kernel.native_modifyNative_self]
  obtain ⟨aligned, low, high, room⟩ := useBlock_range
    { c.kernel.native v with allocatedMemory := (c.kernel.native v).allocatedMemory.map (· ++ [block]) } bound
  have items : ((c.adopt v block).kernel.native v).allocatedMemory =
      (c.kernel.native v).allocatedMemory.map (· ++ [block]) := by
    rw [native, useBlock_allocatedMemory]
  have members : ((c.adopt v block).kernel.native v).allocatedMemory.items =
      (c.kernel.native v).allocatedMemory.items ++ [block] := by
    rw [items]
    exact items_append order.listed
  rw [← native] at aligned low high room
  have spares : ∀ a, ((c.adopt v block).kernel.native v).Spares a → block ≤ a ∧ a < block + 40960 :=
    fun a spare => ⟨Nat.le_trans low spare.1, high ▸ spare.2⟩
  have mem : (c.adopt v block).kernel.mem = c.kernel.mem := rfl
  have log : (c.adopt v block).kernel.alloc = c.kernel.alloc := rfl
  have held : ∀ a, (c.adopt v block).Held v a → c.Held v a ∨ (block ≤ a ∧ a < block + 40960) := by
    rintro a (table | spare)
    · exact Or.inl (Or.inl table)
    · exact Or.inr (spares a spare)
  refine ⟨?_, room, held⟩
  constructor
  · rw [items, Option.isSome_map]
    exact order.listed
  · rw [members]
    intro other member
    rcases List.mem_append.mp member with old | new
    · exact order.obtained other old
    · rw [List.mem_singleton.mp new]
      exact ⟨bound, logged⟩
  · exact order.aligned
  · rw [members]
    intro table member
    obtain ⟨other, listed, inside⟩ := order.inside table member
    exact ⟨other, List.mem_append_left _ listed, inside⟩
  · exact order.zero
  · exact order.distinct
  · exact aligned
  · rw [members]
    exact fun _ => ⟨block, List.mem_append_right _ List.mem_cons_self, low, Nat.le_of_eq high⟩
  · intro a spare
    exact zero a (spares a spare).1 (spares a spare).2
  · intro table member a covers spare
    exact (free a (spares a spare).1 (spares a spare).2).1 (Or.inl ⟨table, member, covers⟩)
  · intro a other
    obtain ⟨inside, unheld⟩ := order.others a other
    refine ⟨inside, fun now => ?_⟩
    rcases held a now with old | new
    · exact unheld old
    · exact (free a new.1 new.2).2 other

/-- A new block becomes the buffer, whatever happens while the node for it is allocated. -/
theorem Keeps.refill {size : Nat} {block node : Nat × Kernel} (serves : Serves v 40960 c.kernel block)
    (middle : Keeps v { c with kernel := block.2 } c') (noted : Serves v size c'.kernel node) :
    Keeps v c ((c'.give size node).adopt v block.1) ∧
      (c.InOrder v → 4096 ≤ (((c'.give size node).adopt v block.1).kernel.native v).memAvailableSize) := by
  have after : Keeps v { c with kernel := block.2 } (c'.give size node) := middle.trans (Keeps.give noted)
  have whole : Keeps v c (c'.give size node) := (Keeps.serve serves).trans after
  have adopted : c.InOrder v → _ := fun order => by
    have order' := (Keeps.serve serves).order order
    have member : { addr := block.1, size := 40960 } ∈ block.2.alloc.blocks := serves.logged ▸ List.mem_cons_self
    -- the block is in no hands until it becomes the buffer
    have free : ∀ a, block.1 ≤ a → a < block.1 + 40960 →
        (c'.give size node).kernel.mem a = block.2.mem a ∧ ¬ (c'.give size node).Held v a ∧
          ¬ InLog (c'.give size node).blocks a := by
      intro a low high
      have new := serves.disjoint a low high
      refine after.free order' a ⟨_, member, low, high⟩ (fun held => new ?_) fun other => new (order.others a other).1
      refine order.held_inLog ?_
      unfold Held at held ⊢
      dsimp only at held
      rw [serves.native] at held
      exact held
    exact (after.order order').adopt serves.bound ((after.log order').subset member)
      (fun a low high => (free a low high).1.trans (serves.zero a low high)) fun a low high => (free a low high).2
  refine ⟨⟨fun order => (adopted order).1, whole.log, fun order a inside free other => ?_⟩,
    fun order => (adopted order).2.1⟩
  obtain ⟨mem, free', other'⟩ := whole.free order a inside free other
  refine ⟨mem, fun now => ?_, other'⟩
  rcases (adopted order).2.2 a now with old | new
  · exact free' old
  · exact serves.disjoint a new.1 new.2 inside

end Session

/-- Once both requests are served, the new block is the buffer. -/
theorem refill_adopts {k : Kernel} (order : c.InOrder v)
    (block : Serves v nativePagetableMemBufferSize c.kernel (kalloc nativePagetableMemBufferSize k))
    (node : Serves v sizeofLinkedlistNode c'.kernel
      (kalloc sizeofLinkedlistNode (kalloc nativePagetableMemBufferSize k).2)) :
    refill kalloc v k = ((c'.give sizeofLinkedlistNode (kalloc sizeofLinkedlistNode
      (kalloc nativePagetableMemBufferSize k).2)).adopt v (kalloc nativePagetableMemBufferSize k).1).kernel := by
  have some : ((allocatedMemoryOf v).get (kalloc nativePagetableMemBufferSize k).2).isSome := by
    have listed := order.listed
    rw [← block.native] at listed
    exact listed
  unfold refill
  dsimp only
  rw [linkedlistAppend_of_some some, if_neg node.present]
  rfl

theorem Work.keeps (work : Work v c c') : c.Keeps v c' := by
  induction work with
  | nothing c => exact Session.Keeps.refl v c
  | call _ serves ih => exact ih.trans (.give serves)
  | store _ byte owned ih => exact ih.trans (.store byte owned)
  | @reuse c c' _ kalloc room ih =>
      have taken := Session.Keeps.take room
      unfold Session.handOut
      rw [createEntries_of_room room]
      exact ih.trans taken
  | @refill c c' c₁ c₂ _ kalloc full _ block _ node ih first second =>
      obtain ⟨refilled, room⟩ := Session.Keeps.refill block second node
      refine ih.trans (first.trans (.of_order fun order => ?_))
      have taken := refilled.trans (Session.Keeps.take (room order))
      rw [← refill_adopts order block node] at taken
      unfold Session.handOut
      rw [createEntries_of_full full]
      exact taken

/-! ## Whole runs -/

/-- A page table as `native_vmem_create` sets it up: no buffer yet. -/
structure NoBuffer (v : Nat) (k : Kernel) : Prop where
  list : (k.native v).allocatedMemory = some []
  addr : (k.native v).memAvailableAddr = 0
  size : (k.native v).memAvailableSize = 0

/-- For every page table and every sequence of calls: the tables are aligned, each lies in one block that was
obtained for this page table, each was zero when it was returned, and no two have a byte in common. -/
theorem tables_apart {k : Kernel} (start : NoBuffer v k)
    (work : Work v { tables := [], blocks := k.alloc.blocks, kernel := k } c) :
    (∀ table ∈ c.tables, table.page % 4096 = 0 ∧
      (∃ block ∈ (c.kernel.native v).allocatedMemory.items,
        { addr := block, size := nativePagetableMemBufferSize } ∈ c.kernel.alloc.blocks ∧
        block ≤ table.page ∧ table.page + 4096 ≤ block + nativePagetableMemBufferSize) ∧
      table.mem.Zeroed table.page 4096) ∧
    c.tables.Pairwise fun s t => ∀ a, s.Covers a → ¬ t.Covers a := by
  have spares : ∀ a, ¬ (k.native v).Spares a := by
    intro a spare
    have above := spare.2
    rw [start.addr, start.size] at above
    exact Nat.not_lt_zero a above
  have order := work.keeps.order
    { listed := by rw [start.list]; rfl
      obtained := by rw [start.list]; exact fun _ absent => absurd absent List.not_mem_nil
      aligned := fun _ absent => absurd absent List.not_mem_nil
      inside := fun _ absent => absurd absent List.not_mem_nil
      zero := fun _ absent => absurd absent List.not_mem_nil
      distinct := List.Pairwise.nil
      spareAligned := by rw [start.addr]
      spareInside := fun positive => absurd positive (by rw [start.size]; exact Nat.lt_irrefl 0)
      spareZero := fun a spare => absurd spare (spares a)
      apart := fun _ absent => absurd absent List.not_mem_nil
      others := by
        rintro a other
        refine ⟨other, ?_⟩
        rintro (⟨_, absent, -⟩ | spare)
        · exact absurd absent List.not_mem_nil
        · exact spares a spare }
  refine ⟨fun table member => ⟨order.aligned table member, ?_, order.zero table member⟩, order.distinct⟩
  obtain ⟨block, listed, inside⟩ := order.inside table member
  exact ⟨block, listed, (order.obtained block listed).2, inside⟩

theorem native_of_core {k k' : Kernel} (core : k'.core = k.core) (v : Nat) : k'.native v = k.native v := by
  unfold Kernel.native Kernel.vmem
  rw [core]

/-- `kalloc` before its initialisation, while its pointer does not wrap. -/
theorem kalloc_serves {k : Kernel} {size : Nat} (early : Early k.alloc) (present : (BubackOS.kalloc size k).1 ≠ 0)
    (bound : (BubackOS.kalloc size k).1 + size ≤ 2 ^ 64)
    (above : ∀ block ∈ k.alloc.blocks, block.addr + block.size ≤ (BubackOS.kalloc size k).1) :
    Serves v size k (BubackOS.kalloc size k) where
  present := present
  bound := bound
  logged := kalloc_quiet.logged size k early
  disjoint := by
    rintro a low - ⟨block, member, covers⟩
    exact Nat.lt_irrefl a (Nat.lt_of_lt_of_le covers.2 (Nat.le_trans (above block member) low))
  zero := kalloc_quiet.zero size k early present
  kept := by
    rintro a ⟨block, member, covers⟩
    refine kalloc_quiet.kept size k early a fun inside => ?_
    exact Nat.lt_irrefl a (Nat.lt_of_lt_of_le covers.2 (Nat.le_trans (above block member) inside.1))
  native := native_of_core (kalloc_quiet.core size k early) v

/-- A page table without a buffer, on a machine whose next block starts in the middle of a page. -/
def bufferless : Kernel :=
  (BubackOS.kalloc 100 sampleKernel).2.modifyNative 0 fun pt => { pt with allocatedMemory := some [] }

def firstTable : Nat × Kernel := createEntries BubackOS.kalloc 0 bufferless

def secondTable : Nat × Kernel := createEntries BubackOS.kalloc 0 (BubackOS.kalloc 100 firstTable.2).2

/-- Two tables, with a block for somebody else in between. -/
theorem tables_apart_bufferless :
    firstTable.1 = 0x103000 ∧ secondTable.1 = 0x104000 ∧ secondTable.2.mem.Zeroed secondTable.1 4096 := by
  have early : Early bufferless.alloc := kalloc_quiet.stays 100 sampleKernel rfl
  have early' : Early firstTable.2.alloc := by
    unfold Early
    decide +kernel
  have first : Work 0 { tables := [], blocks := bufferless.alloc.blocks, kernel := bufferless } _ :=
    .refill (.nothing _) BubackOS.kalloc (by decide +kernel) (.nothing _)
      (kalloc_serves early (by decide +kernel) (by decide +kernel) (by decide +kernel)) (.nothing _)
      (kalloc_serves (kalloc_quiet.stays _ _ early) (by decide +kernel) (by decide +kernel) (by decide +kernel))
  have other := Work.call first
    (@kalloc_serves 0 firstTable.2 100 early' (by decide +kernel) (by decide +kernel) (by decide +kernel))
  have second := Work.reuse other BubackOS.kalloc (by decide +kernel)
  have start : NoBuffer 0 bufferless := ⟨by decide +kernel, by decide +kernel, by decide +kernel⟩
  have apart := (tables_apart start second).1 _ List.mem_cons_self
  exact ⟨by decide +kernel, by decide +kernel, apart.2.2⟩

end BubackOS
