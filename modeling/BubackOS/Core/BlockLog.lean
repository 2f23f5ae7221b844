import BubackOS.Core.State

/-!
# The log of allocated blocks

Facts about the list of blocks `kalloc` has returned.  A log is sound when every
call succeeded, the blocks are pairwise disjoint and their addresses fit the frame
field of a page entry.
-/

namespace BubackOS

/-- The bytes of a block. -/
def Block.Covers (block : Block) (a : Nat) : Prop :=
  block.addr ≤ a ∧ a < block.addr + block.size

/-- A byte of some block. -/
def InLog (log : List Block) (a : Nat) : Prop := ∃ block ∈ log, block.Covers a

/-- Every call succeeded. -/
def Served (log : List Block) : Prop := ∀ block ∈ log, block.addr ≠ 0

instance (log : List Block) : Decidable (Served log) :=
  inferInstanceAs (Decidable (∀ block ∈ log, block.addr ≠ 0))

theorem Served.of_suffix {log log' : List Block} (served : Served log') (grown : log <:+ log') :
    Served log := fun block member => served block (grown.subset member)

/-- Successful, disjoint blocks below `2 ^ 48`. -/
structure Sound (log : List Block) : Prop where
  present : Served log
  bound : ∀ block ∈ log, block.addr + block.size ≤ 2 ^ 48
  disjoint : log.Pairwise fun newer older => ∀ a, newer.Covers a → ¬ older.Covers a

theorem InLog.mono {log log' : List Block} {a : Nat} (inside : InLog log a) (grown : log <:+ log') :
    InLog log' a := by
  obtain ⟨block, member, covers⟩ := inside
  exact ⟨block, grown.subset member, covers⟩

namespace Sound

variable {log log' : List Block} {block : Block} {a : Nat}

/-- The log of an earlier state is sound if the later one is. -/
theorem of_suffix (sound : Sound log') (grown : log <:+ log') : Sound log where
  present := fun block member => sound.present block (grown.subset member)
  bound := fun block member => sound.bound block (grown.subset member)
  disjoint := sound.disjoint.sublist grown.sublist

/-- A new block has no byte of an older one. -/
theorem fresh (sound : Sound (block :: log)) (covers : block.Covers a) : ¬ InLog log a := by
  rintro ⟨older, member, inside⟩
  exact (List.pairwise_cons.mp sound.disjoint).1 older member a covers inside

theorem inLog_bound (sound : Sound log) (inside : InLog log a) : a < 2 ^ 48 := by
  obtain ⟨block, member, covers⟩ := inside
  exact Nat.lt_of_lt_of_le covers.2 (sound.bound block member)

/-- Blocks taken from a pointer that only moves up are sound. -/
theorem of_ascending (good : ∀ block ∈ log, block.addr ≠ 0 ∧ block.addr + block.size ≤ 2 ^ 48)
    (ascending : log.Pairwise fun newer older => older.addr + older.size ≤ newer.addr) : Sound log where
  present := fun block member => (good block member).1
  bound := fun block member => (good block member).2
  disjoint := ascending.imp fun below _ inNewer inOlder =>
    absurd (Nat.lt_of_lt_of_le inOlder.2 (Nat.le_trans below inNewer.1)) (Nat.lt_irrefl _)

end Sound
end BubackOS
