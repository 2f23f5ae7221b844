import BubackOS.Hal.NativePagging
import BubackOS.Library.TableWalk

/-!
# Entries, tables and paths

The word of an entry round-trips, a table's entries are separate words, and the
index slices of an address below `2 ^ 48` name its page.  With these, the walk of
the processor is a walk in the sense of the library, along the path of the four
indices of the address.
-/

namespace BubackOS

open Library

namespace PageEntry

theorem bit_eq {word position : Nat} {b : Bool} (value : word / 2 ^ position % 2 = b.toNat) :
    bit word position = b := by
  unfold bit
  rw [value]
  cases b <;> rfl

theorem toWord_lt (entry : PageEntry) : entry.toWord < 2 ^ 64 := by
  have low := entry.ignoredLow.isLt
  have addr := entry.addr12Shifted.isLt
  have high := entry.ignoredHigh.isLt
  have b0 := entry.present.toNat_le
  have b1 := entry.writable.toNat_le
  have b2 := entry.user.toNat_le
  have b3 := entry.writeThrough.toNat_le
  have b4 := entry.cacheDisable.toNat_le
  have b5 := entry.accessed.toNat_le
  have b6 := entry.dirty.toNat_le
  have b7 := entry.entryOrPat.toNat_le
  have b8 := entry.executeDisable.toNat_le
  unfold toWord
  omega

theorem ofWord_toWord_present (entry : PageEntry) : (ofWord entry.toWord).present = entry.present := by
  apply bit_eq
  have b0 := entry.present.toNat_le
  unfold toWord
  omega

theorem ofWord_toWord_addr12Shifted (entry : PageEntry) :
    (ofWord entry.toWord).addr12Shifted = entry.addr12Shifted := by
  have low := entry.ignoredLow.isLt
  have addr := entry.addr12Shifted.isLt
  have b0 := entry.present.toNat_le
  have b1 := entry.writable.toNat_le
  have b2 := entry.user.toNat_le
  have b3 := entry.writeThrough.toNat_le
  have b4 := entry.cacheDisable.toNat_le
  have b5 := entry.accessed.toNat_le
  have b6 := entry.dirty.toNat_le
  have b7 := entry.entryOrPat.toNat_le
  apply BitVec.eq_of_toNat_eq
  simp only [ofWord, BitVec.toNat_ofNat]
  unfold toWord
  omega

theorem ofWord_toWord_frame (entry : PageEntry) : (ofWord entry.toWord).frame = entry.frame := by
  rw [frame, frame, ofWord_toWord_addr12Shifted]

end PageEntry

/-! ## Filling an entry -/

@[simp] theorem fillEntryValue_present (entry : PageEntry) (ptr : Nat) (user code writable : Bool) :
    (fillEntryValue entry ptr user code writable).present = true := by
  cases user <;> cases code <;> cases writable <;> rfl

theorem fillEntryValue_addr12Shifted (entry : PageEntry) (ptr : Nat) (user code writable : Bool) :
    (fillEntryValue entry ptr user code writable).addr12Shifted = BitVec.ofNat 48 (ptr / 2 ^ 12) := by
  cases user <;> cases code <;> cases writable <;> rfl

/-- The frame field holds every page address below `2 ^ 48`. -/
theorem fillEntryValue_frame (entry : PageEntry) {ptr : Nat} (user code writable : Bool)
    (aligned : ptr % 4096 = 0) : (fillEntryValue entry ptr user code writable).frame = ptr % 2 ^ 48 := by
  rw [PageEntry.frame, fillEntryValue_addr12Shifted, BitVec.toNat_ofNat]
  omega

/-! ## Children -/

/-- The table or page an entry leads to. -/
def child (m : Memory) (table index : Nat) : Option Nat :=
  let entry := readEntry m table index
  if entry.present then some entry.frame else none

theorem child_eq_none_iff (m : Memory) (table index : Nat) :
    child m table index = none ↔ (readEntry m table index).present = false := by
  unfold child
  cases present : (readEntry m table index).present <;> simp [present]

/-- A child depends on the eight bytes of its entry. -/
theorem child_congr {m m' : Memory} {table index : Nat}
    (same : ∀ a, table + 8 * index ≤ a → a < table + 8 * index + 8 → m' a = m a) :
    child m' table index = child m table index := by
  unfold child readEntry
  rw [Memory.load64_congr same]

theorem child_of_zeroed {m : Memory} {table index : Nat} (zero : m.Zeroed table 4096)
    (bound : index < 512) : child m table index = none := by
  have empty : m.load64 (table + 8 * index) = 0 :=
    Memory.load_zeroed (zero.mono (by omega) (by omega))
  rw [child_eq_none_iff, readEntry, empty]
  rfl

/-- The entry just written leads where it was told to, as far as an entry can say it. -/
theorem child_writeEntry_self {k : Kernel} {table index ptr : Nat} {entry : PageEntry}
    {user code writable : Bool} (aligned : ptr % 4096 = 0) :
    child (k.writeEntry table index (fillEntryValue entry ptr user code writable)).mem table index =
      some (ptr % 2 ^ 48) := by
  unfold child readEntry Kernel.writeEntry
  simp only [Memory.load64_store64_self (PageEntry.toWord_lt _), PageEntry.ofWord_toWord_present,
    PageEntry.ofWord_toWord_frame, fillEntryValue_present,
    fillEntryValue_frame entry user code writable aligned, if_true]

/-- Entries of page-aligned tables do not overlap. -/
theorem child_writeEntry_other {k : Kernel} {table index table' index' : Nat} {entry : PageEntry}
    (aligned : table % 4096 = 0) (aligned' : table' % 4096 = 0) (bound : index < 512)
    (bound' : index' < 512) (different : table' ≠ table ∨ index' ≠ index) :
    child (k.writeEntry table index entry).mem table' index' = child k.mem table' index' := by
  apply child_congr
  intro a low high
  exact Memory.store64_outside (by omega)

/-! ## Paths -/

/-- The indices a walk uses from `level` down to the leaf table. -/
def path (virtualAddr : Nat) : Nat → List Nat
  | 0 => []
  | level + 1 => indexForLevel (level + 1) virtualAddr :: path virtualAddr level

theorem walkFrom_eq_follow (m : Memory) (virtualAddr level table : Nat) :
    walkFrom m virtualAddr level table = follow (child m) table (path virtualAddr level) := by
  induction level generalizing table with
  | zero => rfl
  | succ level ih =>
      simp only [walkFrom, path, follow, child]
      cases (readEntry m table (indexForLevel (level + 1) virtualAddr)).present with
      | false => rfl
      | true => exact ih _

theorem walk_eq_follow (k : Kernel) (v virtualAddr : Nat) :
    walk k v virtualAddr =
      follow (child k.mem) (k.native v).entries (path virtualAddr 4) :=
  walkFrom_eq_follow _ _ _ _

theorem path_length (virtualAddr level : Nat) : (path virtualAddr level).length = level := by
  induction level with
  | zero => rfl
  | succ level ih => simp [path, ih]

theorem indexForLevel_lt (level virtualAddr : Nat) : indexForLevel (level + 1) virtualAddr < 512 := by
  have split : 2 ^ shiftingBits (level + 1) = 512 * 2 ^ shiftingBits level := by
    unfold shiftingBits
    rw [show (level + 1) * 9 + 12 = 9 + (level * 9 + 12) by omega, Nat.pow_add]
  unfold indexForLevel
  rw [Nat.add_sub_cancel, Nat.div_lt_iff_lt_mul (Nat.two_pow_pos _), ← split]
  exact Nat.mod_lt _ (Nat.two_pow_pos _)

theorem path_mem_lt {virtualAddr level index : Nat} (member : index ∈ path virtualAddr level) :
    index < 512 := by
  induction level with
  | zero => cases member
  | succ level ih =>
      rcases List.mem_cons.mp member with rfl | rest
      · exact indexForLevel_lt level virtualAddr
      · exact ih rest

theorem path_four (virtualAddr : Nat) :
    path virtualAddr 4 = [virtualAddr % 2 ^ 48 / 2 ^ 39, virtualAddr % 2 ^ 39 / 2 ^ 30,
      virtualAddr % 2 ^ 30 / 2 ^ 21, virtualAddr % 2 ^ 21 / 2 ^ 12] := rfl

/-- The four slices read the lower 48 bits. -/
theorem path_four_mod (virtualAddr : Nat) : path (virtualAddr % 2 ^ 48) 4 = path virtualAddr 4 := by
  simp only [path_four, List.cons.injEq, and_true]
  refine ⟨?_, ?_, ?_, ?_⟩ <;> omega

/-- Below `2 ^ 48` the four slices determine the page. -/
theorem path_four_eq_iff {a b : Nat} (boundA : a < 2 ^ 48) (boundB : b < 2 ^ 48) :
    path a 4 = path b 4 ↔ memAlign a = memAlign b := by
  simp only [path_four, List.cons.injEq, and_true]
  unfold memAlign align systemPageSize
  constructor
  · rintro ⟨first, second, third, fourth⟩
    omega
  · intro same
    refine ⟨?_, ?_, ?_, ?_⟩ <;> omega

end BubackOS
