import BubackOS.Core.Alloc
import BubackOS.Hal.Tables
import BubackOS.Library.Runs

/-!
# Dumping a page table

`native_vmem_dump` walks a table of four levels and logs what it maps as ranges: a
leaf that continues the range being accumulated, at both addresses and with the same
permissions, is merged into it.  The accumulator is a list of runs in the sense of the
library, whose pieces are the leaves in the order of their virtual addresses.
-/

namespace BubackOS

open Library

/-! ## The source -/

/-- The accumulated `page_map_entry_t` with its `present` flag, and the entries that
`log_pagetable_entry` was given. -/
structure DumpState where
  present : Bool
  acc : PageMapEntry
  logged : List PageMapEntry

/-- `log_pagetable_entry` on the accumulated entry, where it is present. -/
def DumpState.log (s : DumpState) : List PageMapEntry :=
  if s.present then s.logged ++ [s.acc] else s.logged

/-- `accumulate_entries`. -/
def accumulateEntries (level : Nat) (s : DumpState) (entry : PageEntry) (vaddr : Nat) : DumpState :=
  let paddr := entry.frame
  if s.present ∧
      wrap (s.acc.physicalAddr + s.acc.size) = paddr ∧
      wrap (s.acc.virtualAddr + s.acc.size) = vaddr ∧
      permIsExec s.acc.permission = !entry.executeDisable ∧
      permIsWrite s.acc.permission = entry.writable ∧
      permIsKernelMode s.acc.permission = !entry.user then
    { s with acc.size := wrap (s.acc.size + 2 ^ shiftingBits (level - 1)) }
  else
    { present := true
      acc :=
        { physicalAddr := paddr
          virtualAddr := vaddr
          size := 2 ^ shiftingBits (level - 1)
          permission :=
            permSetExec (permSetWrite (permSetKernelMode s.acc.permission (!entry.user))
              entry.writable) (!entry.executeDisable) }
      logged := s.log }

/-- One round of the loop of `parse_entries`; `below` parses the table of the next level. -/
def visitEntry (below : Nat → Nat → DumpState → DumpState) (level : Nat) (entry : PageEntry)
    (base : Nat) (s : DumpState) : DumpState :=
  if entry.present then
    if level = 1 ∨ entry.entryOrPat then accumulateEntries level s entry (wrap (base * 2 ^ 12))
    else below entry.frame base s
  else s

/-- `parse_entries`; the loop carries the accumulator and `base_virtual_addr`, which counts
pages. -/
def parseEntries (m : Memory) : (level entries base : Nat) → DumpState → DumpState
  | 0, _, _, s => s
  | level + 1, entries, base, s =>
      ((List.range 512).foldl (fun (state : DumpState × Nat) index =>
        (visitEntry (parseEntries m level) (level + 1) (readEntry m entries index) state.2 state.1,
          wrap (state.2 + 2 ^ (level * 9)))) (s, base)).1

/-- The accumulator that `parse_intel_memory` starts with. -/
def DumpState.start : DumpState where
  present := false
  acc := { virtualAddr := 0, physicalAddr := 0, size := 0, permission := 0 }
  logged := []

/-- `parse_intel_memory`: what it logs, in order. -/
def parseIntelMemory (m : Memory) (entries : Nat) : List PageMapEntry :=
  (parseEntries m 4 entries 0 .start).log

/-- The table that `native_vmem_dump` starts from: the loaded one if it is given none. -/
def dumpedEntries (vmem : Option Nat) (k : Kernel) : Nat :=
  match vmem with
  | none => k.core.cr3
  | some v => (k.native v).entries

/-- `native_vmem_dump`. -/
def nativeVmemDump (vmem : Option Nat) (k : Kernel) : List PageMapEntry :=
  parseIntelMemory k.mem (dumpedEntries vmem k)

/-! ## What a table maps -/

/-- A page of 4 KB with the address and the permissions it is mapped with. -/
structure MappedPage where
  virtualAddr : Nat
  physicalAddr : Nat
  kernelMode : Bool
  writable : Bool
  executable : Bool
  deriving DecidableEq

/-- The page with number `page`, mapped by `entry` to `physicalAddr`. -/
def PageEntry.maps (entry : PageEntry) (page physicalAddr : Nat) : MappedPage where
  virtualAddr := 4096 * page
  physicalAddr := physicalAddr
  kernelMode := !entry.user
  writable := entry.writable
  executable := !entry.executeDisable

/-- The address in an entry as the processor takes it: bits 12 to 51, of which a leaf that covers `size` pages has
only those that number blocks of its size.  Bit 12 of a large leaf is its PAT bit. -/
def PageEntry.address (size : Nat) (entry : PageEntry) : Nat :=
  4096 * (entry.addr12Shifted.toNat % 2 ^ 40 / size * size)

/-- The page with number `page`, as the leaf of `entries` that covers it maps it.  A leaf is an entry of the last
level, or one whose `entry_or_pat` bit makes it a large page; in the table of the fourth level the bit is reserved, and
the entry maps nothing. -/
def mappedPage (m : Memory) (page : Nat) : (level entries : Nat) → Option MappedPage
  | 0, _ => none
  | level + 1, entries =>
      let entry := readEntry m entries (page / 512 ^ level % 512)
      if entry.present then
        if level = 0 ∨ entry.entryOrPat then
          if level = 3 then none
          else some (entry.maps page (entry.address (512 ^ level) + 4096 * (page % 512 ^ level)))
        else mappedPage m page level (entry.address 1)
      else none

/-- The same with the addresses that the dump takes from the entries, and a leaf at each level. -/
def reportedPage (m : Memory) (page : Nat) : (level entries : Nat) → Option MappedPage
  | 0, _ => none
  | level + 1, entries =>
      let entry := readEntry m entries (page / 512 ^ level % 512)
      if entry.present then
        if level = 0 ∨ entry.entryOrPat then some (entry.maps page (entry.frame + 4096 * (page % 512 ^ level)))
        else reportedPage m page level entry.frame
      else none

theorem reportedPage_virtualAddr {m : Memory} {page : Nat} {mapped : MappedPage} :
    ∀ {level entries : Nat}, reportedPage m page level entries = some mapped → mapped.virtualAddr = 4096 * page
  | level + 1, entries, isMapped => by
      simp only [reportedPage] at isMapped
      split at isMapped
      · split at isMapped
        · exact (Option.some.inj isMapped) ▸ rfl
        · exact reportedPage_virtualAddr isMapped
      · cases isMapped

theorem mappedPage_virtualAddr {m : Memory} {page : Nat} {mapped : MappedPage} :
    ∀ {level entries : Nat}, mappedPage m page level entries = some mapped → mapped.virtualAddr = 4096 * page
  | level + 1, entries, isMapped => by
      simp only [mappedPage] at isMapped
      split at isMapped
      · split at isMapped
        · split at isMapped
          · cases isMapped
          · exact (Option.some.inj isMapped) ▸ rfl
        · exact mappedPage_virtualAddr isMapped
      · cases isMapped

/-! ## Ranges -/

/-- What the log says about an entry. -/
structure MappedRange where
  virtualAddr : Nat
  physicalAddr : Nat
  size : Nat
  kernelMode : Bool
  writable : Bool
  executable : Bool
  deriving DecidableEq

def PageMapEntry.range (entry : PageMapEntry) : MappedRange where
  virtualAddr := entry.virtualAddr
  physicalAddr := entry.physicalAddr
  size := entry.size
  kernelMode := permIsKernelMode entry.permission
  writable := permIsWrite entry.permission
  executable := permIsExec entry.permission

namespace MappedRange

/-- The pages of a range. -/
def pages (r : MappedRange) : List MappedPage :=
  (List.range (r.size / 4096)).map fun index =>
    { virtualAddr := r.virtualAddr + 4096 * index
      physicalAddr := r.physicalAddr + 4096 * index
      kernelMode := r.kernelMode
      writable := r.writable
      executable := r.executable }

/-- The ranges are contiguous at both addresses and have the same permissions. -/
def Continues (r next : MappedRange) : Prop :=
  r.physicalAddr + r.size = next.physicalAddr ∧ r.virtualAddr + r.size = next.virtualAddr ∧
    r.executable = next.executable ∧ r.writable = next.writable ∧ r.kernelMode = next.kernelMode

instance : DecidableRel Continues := fun _ _ => inferInstanceAs (Decidable (_ ∧ _))

def join (r next : MappedRange) : MappedRange := { r with size := r.size + next.size }

/-- A range of whole pages inside the 48-bit spaces. -/
structure Sound (r : MappedRange) : Prop where
  whole : 4096 ∣ r.size
  low : r.virtualAddr + r.size ≤ 2 ^ 48
  frame : r.physicalAddr < 2 ^ 48

theorem join_pages {r next : MappedRange} (whole : 4096 ∣ r.size) (continues : r.Continues next) :
    (r.join next).pages = r.pages ++ next.pages := by
  obtain ⟨physical, virtual, executable, writable, kernelMode⟩ := continues
  obtain ⟨count, isCount⟩ := whole
  have split : (r.size + next.size) / 4096 = count + next.size / 4096 := by omega
  have first : r.size / 4096 = count := by omega
  simp only [pages, join, split, first, List.range_add, List.map_append, List.map_map]
  congr 1
  refine List.map_congr_left fun index _ => ?_
  simp only [Function.comp_apply, MappedPage.mk.injEq]
  exact ⟨by omega, by omega, kernelMode, writable, executable⟩

theorem lawful : Runs.Lawful Continues join Sound pages where
  keeps r next sound soundNext continues :=
    { whole := Nat.dvd_add sound.whole soundNext.whole
      low := by
        have low := soundNext.low
        rw [← continues.2.1] at low
        show r.virtualAddr + (r.size + next.size) ≤ 2 ^ 48
        omega
      frame := sound.frame }
  whole _ _ sound _ continues := join_pages sound.whole continues
  first _ _ _ := Iff.rfl

end MappedRange

/-! ## The accumulator holds runs -/

/-- The range of a leaf of the given level that covers the pages from `page` on. -/
def PageEntry.leafRange (level page : Nat) (entry : PageEntry) : MappedRange where
  virtualAddr := 4096 * page
  physicalAddr := entry.frame
  size := 4096 * 512 ^ (level - 1)
  kernelMode := !entry.user
  writable := entry.writable
  executable := !entry.executeDisable

theorem PageEntry.frame_lt (entry : PageEntry) : entry.frame < 2 ^ 48 := Nat.mod_lt _ (by decide)

theorem PageEntry.leafRange_sound {level page : Nat} (entry : PageEntry)
    (low : page + 512 ^ (level - 1) ≤ 2 ^ 36) : (entry.leafRange level page).Sound where
  whole := Nat.dvd_mul_right ..
  low := by
    show 4096 * page + 4096 * 512 ^ (level - 1) ≤ 2 ^ 48
    omega
  frame := entry.frame_lt

theorem leaf_size (level : Nat) : 2 ^ shiftingBits level = 4096 * 512 ^ level := by
  rw [shiftingBits, Nat.pow_add, Nat.mul_comm level, Nat.pow_mul, Nat.mul_comm]

/-- A bit that was put is read back, and the others are left. -/
theorem readBit_putBit (permission : Permission) (position other : Nat) (value : Bool)
    (bound : other < 8) :
    readBit (putBit permission position value) other =
      if position = other then value else readBit permission other := by
  have one : (1#8).getLsbD (other - position) = decide (other - position = 0) := by
    rw [BitVec.getLsbD_one]
    rfl
  unfold readBit putBit
  cases value with
  | false =>
      simp only [Bool.false_eq_true, if_false, BitVec.getLsbD_and, BitVec.getLsbD_not,
        BitVec.getLsbD_shiftLeft, one, bound]
      grind
  | true =>
      simp only [if_true, BitVec.getLsbD_or, BitVec.getLsbD_shiftLeft, one, bound]
      grind

theorem set_permissions (permission : Permission) (kernelMode writable executable : Bool) :
    let set := permSetExec (permSetWrite (permSetKernelMode permission kernelMode) writable) executable
    permIsKernelMode set = kernelMode ∧ permIsWrite set = writable ∧ permIsExec set = executable := by
  simp [permSetExec, permSetWrite, permSetKernelMode, permIsKernelMode, permIsWrite, permIsExec,
    readBit_putBit]

def DumpState.runs (s : DumpState) : Runs MappedRange where
  ended := s.logged.map PageMapEntry.range
  current := if s.present then some s.acc.range else none

theorem DumpState.runs_all (s : DumpState) : s.runs.all = s.log.map PageMapEntry.range := by
  unfold Runs.all runs log
  split <;> simp

/-- The test of `accumulate_entries` on a sound range is that the leaf continues it: no sum
wraps. -/
theorem merges_iff {level page : Nat} {acc : PageMapEntry} {entry : PageEntry} (sound : acc.range.Sound) :
    (wrap (acc.physicalAddr + acc.size) = entry.frame ∧
      wrap (acc.virtualAddr + acc.size) = 4096 * page ∧
      permIsExec acc.permission = !entry.executeDisable ∧ permIsWrite acc.permission = entry.writable ∧
      permIsKernelMode acc.permission = !entry.user) ↔
    acc.range.Continues (entry.leafRange level page) := by
  have low : acc.virtualAddr + acc.size ≤ 2 ^ 48 := sound.low
  have frame : acc.physicalAddr < 2 ^ 48 := sound.frame
  rw [wrap_of_lt (by omega : acc.physicalAddr + acc.size < 2 ^ 64),
    wrap_of_lt (by omega : acc.virtualAddr + acc.size < 2 ^ 64)]
  exact Iff.rfl

theorem accumulateEntries_runs {level page : Nat} {s : DumpState}
    (maximal : s.runs.Maximal MappedRange.Continues MappedRange.Sound) (entry : PageEntry)
    (low : page + 512 ^ (level - 1) ≤ 2 ^ 36) :
    (accumulateEntries level s entry (wrap (page * 2 ^ 12))).runs =
      s.runs.push MappedRange.Continues MappedRange.join (entry.leafRange level page) := by
  have small : page ≤ 2 ^ 36 := Nat.le_trans (Nat.le_add_right ..) low
  have virtual : wrap (page * 2 ^ 12) = 4096 * page := by
    rw [wrap_of_lt (by omega)]
    omega
  have soundLeaf := entry.leafRange_sound low
  have fresh : ∀ logged : List PageMapEntry, DumpState.runs
      { present := true
        acc :=
          { physicalAddr := entry.frame
            virtualAddr := 4096 * page
            size := 2 ^ shiftingBits (level - 1)
            permission :=
              permSetExec (permSetWrite (permSetKernelMode s.acc.permission (!entry.user))
                entry.writable) (!entry.executeDisable) }
        logged := logged } =
      { ended := logged.map PageMapEntry.range, current := some (entry.leafRange level page) } := by
    intro logged
    obtain ⟨kernelMode, writable, executable⟩ :=
      set_permissions s.acc.permission (!entry.user) entry.writable (!entry.executeDisable)
    simp only [DumpState.runs, if_true, PageMapEntry.range, leaf_size, kernelMode, writable, executable]
    rfl
  rw [accumulateEntries, virtual]
  cases isPresent : s.present with
  | false =>
      simp only [Bool.false_eq_true, false_and, if_false]
      rw [fresh, Runs.push, DumpState.runs, DumpState.log, isPresent]
      rfl
  | true =>
      have isOpen : s.runs.current = some s.acc.range := by rw [DumpState.runs, isPresent]; rfl
      have sound : s.acc.range.Sound := maximal.each _ (by simp [Runs.all, isOpen])
      simp only [true_and, Runs.push, isOpen]
      by_cases continues : s.acc.range.Continues (entry.leafRange level page)
      · rw [if_pos ((merges_iff sound).2 continues), if_pos continues]
        have joined := (MappedRange.lawful.keeps _ _ sound soundLeaf continues).low
        have grown : wrap (s.acc.size + 2 ^ shiftingBits (level - 1)) =
            s.acc.size + 4096 * 512 ^ (level - 1) := by
          rw [leaf_size]
          refine wrap_of_lt ?_
          change s.acc.virtualAddr + (s.acc.size + 4096 * 512 ^ (level - 1)) ≤ 2 ^ 48 at joined
          omega
        rw [grown, DumpState.runs, DumpState.runs, isPresent]
        rfl
      · rw [if_neg fun merges => continues ((merges_iff sound).1 merges), if_neg continues, fresh,
          DumpState.log, isPresent, DumpState.runs]
        simp

/-! ## The leaves in order -/

/-- The pages under one slot of a table lie among the table's. -/
theorem slot_low {base index level limit : Nat} (low : base + 512 ^ (level + 1) ≤ limit) (bound : index < 512) :
    base + index * 512 ^ level + 512 ^ level ≤ limit := by
  have next : (index + 1) * 512 ^ level ≤ 512 * 512 ^ level := Nat.mul_le_mul_right _ bound
  rw [Nat.pow_succ'] at low
  rw [Nat.succ_mul] at next
  omega

/-- The leaves under one entry; `below` lists those of the table of the next level. -/
def entryLeaves (below : Nat → Nat → List MappedRange) (level : Nat) (entry : PageEntry) (page : Nat) :
    List MappedRange :=
  if entry.present then
    if level = 1 ∨ entry.entryOrPat then [entry.leafRange level page] else below entry.frame page
  else []

/-- The leaves of a table that covers the pages from `base` on. -/
def leaves (m : Memory) : (level entries base : Nat) → List MappedRange
  | 0, _, _ => []
  | level + 1, entries, base =>
      (List.range 512).flatMap fun index =>
        entryLeaves (leaves m level) (level + 1) (readEntry m entries index) (base + index * 512 ^ level)

theorem entryLeaves_sound {below : Nat → Nat → List MappedRange} {level page : Nat} {entry : PageEntry}
    (low : page + 512 ^ (level - 1) ≤ 2 ^ 36) (soundBelow : ∀ leaf ∈ below entry.frame page, leaf.Sound) :
    ∀ leaf ∈ entryLeaves below level entry page, leaf.Sound := by
  intro leaf isLeaf
  unfold entryLeaves at isLeaf
  split at isLeaf
  · split at isLeaf
    · exact List.mem_singleton.1 isLeaf ▸ entry.leafRange_sound low
    · exact soundBelow leaf isLeaf
  · cases isLeaf

theorem leaves_sound (m : Memory) : ∀ level entries base, base + 512 ^ level ≤ 2 ^ 36 →
    ∀ leaf ∈ leaves m level entries base, leaf.Sound
  | 0, _, _, _, _, isLeaf => nomatch isLeaf
  | level + 1, entries, base, low, leaf, isLeaf => by
      obtain ⟨index, inTable, isLeaf⟩ := List.mem_flatMap.1 isLeaf
      have slot := slot_low low (List.mem_range.1 inTable)
      exact entryLeaves_sound slot (leaves_sound m level _ _ slot) leaf isLeaf

theorem visitEntry_runs {parse : Nat → Nat → DumpState → DumpState}
    {below : Nat → Nat → List MappedRange} {level page : Nat} {entry : PageEntry} {s : DumpState}
    (low : page + 512 ^ (level - 1) ≤ 2 ^ 36)
    (maximal : s.runs.Maximal MappedRange.Continues MappedRange.Sound)
    (parses : (parse entry.frame page s).runs =
      (below entry.frame page).foldl (Runs.push MappedRange.Continues MappedRange.join) s.runs) :
    (visitEntry parse level entry page s).runs =
      (entryLeaves below level entry page).foldl (Runs.push MappedRange.Continues MappedRange.join)
        s.runs := by
  unfold visitEntry entryLeaves
  split
  · split
    · exact accumulateEntries_runs maximal entry low
    · exact parses
  · rfl

/-- The loop of `parse_entries`, for slots that each put their pieces into the accumulator: the
counter never wraps, and the pieces are put in the order of the slots. -/
theorem sweep_runs {width base : Nat} {visit : Nat → Nat → DumpState → DumpState}
    {pieces : Nat → List MappedRange} {s : DumpState} (low : base + 512 * width < 2 ^ 64)
    (sound : ∀ index < 512, ∀ piece ∈ pieces index, piece.Sound)
    (visits : ∀ index < 512, ∀ s : DumpState, s.runs.Maximal MappedRange.Continues MappedRange.Sound →
      (visit index (base + index * width) s).runs =
        (pieces index).foldl (Runs.push MappedRange.Continues MappedRange.join) s.runs)
    (maximal : s.runs.Maximal MappedRange.Continues MappedRange.Sound) :
    ∀ count ≤ 512, ∃ swept : DumpState,
      (List.range count).foldl (fun (state : DumpState × Nat) index =>
        (visit index state.2 state.1, wrap (state.2 + width))) (s, base) = (swept, base + count * width) ∧
      swept.runs = ((List.range count).flatMap pieces).foldl
        (Runs.push MappedRange.Continues MappedRange.join) s.runs
  | 0, _ => ⟨s, by simp, rfl⟩
  | count + 1, bound => by
      obtain ⟨swept, before, runs⟩ := sweep_runs low sound visits maximal count (Nat.le_of_succ_le bound)
      have slots : ∀ piece ∈ (List.range count).flatMap pieces, piece.Sound := fun piece isPiece => by
        obtain ⟨index, inRange, isPiece⟩ := List.mem_flatMap.1 isPiece
        exact sound index (Nat.lt_trans (List.mem_range.1 inRange) bound) piece isPiece
      have sweptMaximal : swept.runs.Maximal MappedRange.Continues MappedRange.Sound :=
        runs ▸ (Runs.foldl_push MappedRange.lawful _ _ maximal slots).1
      have next : wrap (base + count * width + width) = base + (count + 1) * width := by
        have room : (count + 1) * width ≤ 512 * width := Nat.mul_le_mul_right _ bound
        rw [Nat.succ_mul] at room ⊢
        rw [wrap_of_lt (by omega), Nat.add_assoc]
      refine ⟨visit count (base + count * width) swept, ?_, ?_⟩
      · rw [List.range_succ, List.foldl_append, before, List.foldl_cons, List.foldl_nil, next]
      · rw [visits count bound swept sweptMaximal, runs, List.range_succ, List.flatMap_append,
          List.foldl_append, List.flatMap_singleton]

/-- `parse_entries` puts the leaves of the table into the accumulator, one after the other. -/
theorem parseEntries_runs (m : Memory) : ∀ level entries base (s : DumpState),
    base + 512 ^ level ≤ 2 ^ 36 → s.runs.Maximal MappedRange.Continues MappedRange.Sound →
      (parseEntries m level entries base s).runs =
        (leaves m level entries base).foldl (Runs.push MappedRange.Continues MappedRange.join) s.runs
  | 0, _, _, _, _, _ => rfl
  | level + 1, entries, base, s, low, maximal => by
      have width : 2 ^ (level * 9) = 512 ^ level := by rw [Nat.mul_comm, Nat.pow_mul]
      have slot := fun index (bound : index < 512) => slot_low low bound
      have visits : ∀ index < 512, ∀ s : DumpState,
          s.runs.Maximal MappedRange.Continues MappedRange.Sound →
            (visitEntry (parseEntries m level) (level + 1) (readEntry m entries index)
              (base + index * 512 ^ level) s).runs =
            (entryLeaves (leaves m level) (level + 1) (readEntry m entries index)
              (base + index * 512 ^ level)).foldl (Runs.push MappedRange.Continues MappedRange.join) s.runs :=
        fun index bound s maximal => visitEntry_runs (slot index bound) maximal
          (parseEntries_runs m level _ _ s (slot index bound) maximal)
      obtain ⟨swept, isSwept, runs⟩ := sweep_runs (by rw [Nat.pow_succ'] at low; omega)
        (fun index bound => entryLeaves_sound (slot index bound)
          (leaves_sound m level _ _ (slot index bound))) visits maximal 512 (Nat.le_refl _)
      rw [parseEntries, width, isSwept]
      exact runs

/-! ## The leaves cover the mapped pages -/

/-- Numbers below a product, block by block. -/
theorem range_mul (blocks size : Nat) :
    List.range (blocks * size) =
      (List.range blocks).flatMap fun block => (List.range size).map (block * size + ·) := by
  induction blocks with
  | zero => simp
  | succ blocks ih =>
      rw [Nat.succ_mul, List.range_add, ih, List.range_succ, List.flatMap_append, List.flatMap_singleton]

/-- A leaf maps the pages under it. -/
theorem leafRange_pages (entry : PageEntry) (level page : Nat) :
    (entry.leafRange (level + 1) page).pages = (List.range (512 ^ level)).map fun offset =>
      entry.maps (page + offset) (entry.frame + 4096 * offset) := by
  have count : 4096 * 512 ^ level / 4096 = 512 ^ level := Nat.mul_div_cancel_left _ (by decide)
  simp only [MappedRange.pages, PageEntry.leafRange, PageEntry.maps, Nat.add_sub_cancel, count, Nat.mul_add]

/-- The slot of a page in its table, and the number of the page in the slot. -/
theorem slot_place {base index level offset : Nat} (aligned : 512 ^ (level + 1) ∣ base) (bound : index < 512)
    (small : offset < 512 ^ level) :
    (base + index * 512 ^ level + offset) / 512 ^ level % 512 = index ∧
      (base + index * 512 ^ level + offset) % 512 ^ level = offset := by
  obtain ⟨count, rfl⟩ := aligned
  have place : 512 ^ (level + 1) * count + index * 512 ^ level + offset =
      offset + 512 ^ level * (512 * count + index) := by ring
  rw [place, Nat.add_mul_div_left _ _ (Nat.pow_pos (by decide)), Nat.div_eq_of_lt small, Nat.zero_add,
    Nat.mul_add_mod, Nat.mod_eq_of_lt bound, Nat.add_mul_mod_self_left, Nat.mod_eq_of_lt small]
  exact ⟨rfl, rfl⟩

theorem entryLeaves_pages {m : Memory} {level entries base index : Nat} (aligned : 512 ^ (level + 1) ∣ base)
    (bound : index < 512)
    (below : ∀ table, (leaves m level table (base + index * 512 ^ level)).flatMap MappedRange.pages =
      (List.range (512 ^ level)).filterMap fun offset =>
        reportedPage m (base + index * 512 ^ level + offset) level table) :
    (entryLeaves (leaves m level) (level + 1) (readEntry m entries index)
        (base + index * 512 ^ level)).flatMap MappedRange.pages =
      (List.range (512 ^ level)).filterMap fun offset =>
        reportedPage m (base + index * 512 ^ level + offset) (level + 1) entries := by
  have slot : ∀ offset ∈ List.range (512 ^ level),
      (base + index * 512 ^ level + offset) / 512 ^ level % 512 = index ∧
      (base + index * 512 ^ level + offset) % 512 ^ level = offset := fun offset inSlot =>
    slot_place aligned bound (List.mem_range.1 inSlot)
  rw [entryLeaves]
  split
  · rename_i isPresent
    split
    · -- a leaf: every page of the slot is mapped by it
      rename_i isLeaf
      have isLast : level = 0 ∨ (readEntry m entries index).entryOrPat = true := by simpa using isLeaf
      rw [List.flatMap_singleton, leafRange_pages, ← List.filterMap_eq_map]
      refine List.filterMap_congr fun offset inSlot => ?_
      obtain ⟨isIndex, isOffset⟩ := slot offset inSlot
      rw [reportedPage]
      simp only [isIndex, isOffset, isPresent, if_true, isLast, Function.comp_apply]
    · rename_i isTable
      have notLast : ¬ (level = 0 ∨ (readEntry m entries index).entryOrPat = true) := by
        simpa using isTable
      rw [below]
      refine List.filterMap_congr fun offset inSlot => ?_
      rw [reportedPage]
      simp only [(slot offset inSlot).1, isPresent, if_true, notLast, if_false]
  · rename_i absent
    rw [List.flatMap_nil, eq_comm, List.filterMap_eq_nil_iff]
    intro offset inSlot
    rw [reportedPage]
    simp only [(slot offset inSlot).1]
    rw [if_neg absent]

/-- The leaves of a table, page by page, are what the dump takes from it. -/
theorem leaves_pages (m : Memory) : ∀ level entries base, 512 ^ level ∣ base →
    (leaves m level entries base).flatMap MappedRange.pages =
      (List.range (512 ^ level)).filterMap fun offset => reportedPage m (base + offset) level entries
  | 0, _, _, _ => rfl
  | level + 1, entries, base, aligned => by
      have alignedSlot : ∀ index, 512 ^ level ∣ base + index * 512 ^ level := fun index =>
        Nat.dvd_add (Nat.dvd_trans (Nat.pow_dvd_pow 512 (Nat.le_succ level)) aligned) (Nat.dvd_mul_left ..)
      rw [Nat.pow_succ', range_mul, List.filterMap_flatMap, leaves, List.flatMap_assoc]
      refine List.flatMap_congr fun index inTable => ?_
      rw [entryLeaves_pages aligned (List.mem_range.1 inTable) fun table =>
        leaves_pages m level table _ (alignedSlot index), List.filterMap_map]
      refine List.filterMap_congr fun offset _ => ?_
      rw [Function.comp_apply, Nat.add_assoc]

/-! ## The dump -/

theorem DumpState.start_runs : DumpState.start.runs = Runs.empty := rfl

theorem parseIntelMemory_runs (m : Memory) (entries : Nat) :
    ∃ runs : Runs MappedRange, (parseIntelMemory m entries).map PageMapEntry.range = runs.all ∧
      runs.Maximal MappedRange.Continues MappedRange.Sound ∧
      runs.all.flatMap MappedRange.pages =
        (List.range (512 ^ 4)).filterMap fun page => reportedPage m page 4 entries := by
  have low : 0 + 512 ^ 4 ≤ 2 ^ 36 := by decide
  have nothing := Runs.Maximal.empty MappedRange.Continues MappedRange.Sound
  have parsed := parseEntries_runs m 4 entries 0 .start low nothing
  rw [DumpState.start_runs] at parsed
  obtain ⟨maximal, pages⟩ := Runs.foldl_push MappedRange.lawful _ _ nothing (leaves_sound m 4 entries 0 low)
  rw [← parsed] at maximal pages
  refine ⟨_, ?_, maximal, ?_⟩
  · rw [parseIntelMemory, DumpState.runs_all]
  · rw [pages, leaves_pages m 4 entries 0 (Nat.dvd_zero _), Runs.empty_all, List.flatMap_nil, List.nil_append]
    simp only [Nat.zero_add]

/-! ## What the dump gets right -/

/-- No table lies at or above `2 ^ 48`. -/
def LowTables (m : Memory) : (level entries : Nat) → Prop
  | 0, _ => True
  | level + 1, entries => ∀ index < 512, (readEntry m entries index).present = true →
      ¬ (level = 0 ∨ (readEntry m entries index).entryOrPat = true) →
        (readEntry m entries index).address 1 = (readEntry m entries index).frame ∧
          LowTables m level (readEntry m entries index).frame

/-- The address of each leaf is all that its address bits hold, and no entry of the fourth level is a leaf. -/
def ExactLeaves (m : Memory) : (level entries : Nat) → Prop
  | 0, _ => True
  | level + 1, entries => ∀ index < 512, (readEntry m entries index).present = true →
      if level = 0 ∨ (readEntry m entries index).entryOrPat = true then
        level ≠ 3 ∧ (readEntry m entries index).address (512 ^ level) = (readEntry m entries index).frame
      else ExactLeaves m level (readEntry m entries index).frame

instance decidableLowTables (m : Memory) : ∀ level entries, Decidable (LowTables m level entries)
  | 0, _ => .isTrue trivial
  | level + 1, _ =>
      have := decidableLowTables m level
      Nat.decidableBallLT _ _

instance decidableExactLeaves (m : Memory) : ∀ level entries, Decidable (ExactLeaves m level entries)
  | 0, _ => .isTrue trivial
  | level + 1, _ =>
      have := decidableExactLeaves m level
      Nat.decidableBallLT _ _

/-- The pages of a table, slot by slot. -/
theorem forall_slots {P : Nat → Prop} (level base : Nat) :
    (∀ offset < 512 ^ (level + 1), P (base + offset)) ↔
      ∀ index < 512, ∀ offset < 512 ^ level, P (base + index * 512 ^ level + offset) := by
  have positive : 0 < 512 ^ level := Nat.pow_pos (by decide)
  rw [Nat.pow_succ']
  constructor
  · intro all index bound offset small
    have inside : (index + 1) * 512 ^ level ≤ 512 * 512 ^ level := Nat.mul_le_mul_right _ bound
    rw [Nat.succ_mul] at inside
    rw [Nat.add_assoc]
    exact all _ (by omega)
  · intro slots offset inside
    have place := slots (offset / 512 ^ level) (Nat.div_lt_of_lt_mul (Nat.mul_comm 512 _ ▸ inside))
      (offset % 512 ^ level) (Nat.mod_lt _ positive)
    rwa [Nat.add_assoc, Nat.mul_comm, Nat.div_add_mod] at place

theorem leaf_reported_iff (entry : PageEntry) (page offset level : Nat) :
    (some (entry.maps page (entry.frame + offset)) =
      if level = 3 then none else some (entry.maps page (entry.address (512 ^ level) + offset))) ↔
      level ≠ 3 ∧ entry.address (512 ^ level) = entry.frame := by
  by_cases top : level = 3
  · simp [top]
  · simp [top, PageEntry.maps, eq_comm]

/-- With low tables, the dump reads every page as the processor does exactly if it reads every leaf so. -/
theorem reported_iff (m : Memory) : ∀ {level entries base : Nat}, 512 ^ level ∣ base → LowTables m level entries →
    ((∀ offset < 512 ^ level, reportedPage m (base + offset) level entries = mappedPage m (base + offset) level entries) ↔
      ExactLeaves m level entries)
  | 0, _, _, _, _ => iff_of_true (fun _ _ => rfl) trivial
  | level + 1, entries, base, aligned, low => by
      rw [forall_slots (P := fun page => reportedPage m page (level + 1) entries = mappedPage m page (level + 1) entries),
        ExactLeaves]
      refine forall₂_congr fun index bound => ?_
      have slotAligned : 512 ^ level ∣ base + index * 512 ^ level :=
        Nat.dvd_add (Nat.dvd_trans (Nat.pow_dvd_pow 512 (Nat.le_succ level)) aligned) (Nat.dvd_mul_left ..)
      have some : ∃ offset, offset < 512 ^ level := ⟨0, Nat.pow_pos (by decide)⟩
      have slot := fun {offset : Nat} (small : offset < 512 ^ level) => slot_place aligned bound small
      cases isPresent : (readEntry m entries index).present with
      | false =>
          refine iff_of_true (fun offset small => ?_) (fun absurdity => by cases absurdity)
          rw [reportedPage, mappedPage, (slot small).1]
          simp only [isPresent, Bool.false_eq_true, if_false]
      | true =>
          rw [imp_iff_right rfl]
          by_cases leaf : level = 0 ∨ (readEntry m entries index).entryOrPat = true
          · have each : ∀ offset < 512 ^ level,
                (reportedPage m (base + index * 512 ^ level + offset) (level + 1) entries =
                  mappedPage m (base + index * 512 ^ level + offset) (level + 1) entries) ↔
                level ≠ 3 ∧ (readEntry m entries index).address (512 ^ level) = (readEntry m entries index).frame := by
              intro offset small
              rw [reportedPage, mappedPage, (slot small).1, (slot small).2]
              simp only [isPresent, if_true, leaf]
              exact leaf_reported_iff _ _ _ _
            rw [if_pos leaf, forall₂_congr each]
            exact ⟨fun all => some.elim all, fun exact _ _ => exact⟩
          · obtain ⟨same, lowBelow⟩ := low index bound isPresent leaf
            rw [if_neg leaf, ← reported_iff m slotAligned lowBelow]
            refine forall₂_congr fun offset small => ?_
            rw [reportedPage, mappedPage, (slot small).1]
            simp only [isPresent, if_true, leaf, if_false, same]

/-- Two ways to read pages give the same list exactly if they agree on every page. -/
theorem filterMap_pages_eq_iff {read other : Nat → Option MappedPage} {count : Nat}
    (place : ∀ page mapped, read page = some mapped → mapped.virtualAddr = 4096 * page)
    (place' : ∀ page mapped, other page = some mapped → mapped.virtualAddr = 4096 * page) :
    (List.range count).filterMap read = (List.range count).filterMap other ↔
      ∀ page < count, read page = other page := by
  have found : ∀ {f g : Nat → Option MappedPage},
      (∀ page mapped, f page = some mapped → mapped.virtualAddr = 4096 * page) →
      (∀ page mapped, g page = some mapped → mapped.virtualAddr = 4096 * page) →
      (List.range count).filterMap f = (List.range count).filterMap g →
      ∀ page < count, ∀ mapped, f page = some mapped → g page = some mapped := by
    intro f g placeF placeG same page inside mapped isMapped
    have member : mapped ∈ (List.range count).filterMap g :=
      same ▸ List.mem_filterMap.2 ⟨page, List.mem_range.2 inside, isMapped⟩
    obtain ⟨page', -, isMapped'⟩ := List.mem_filterMap.1 member
    have numbers := (placeF _ _ isMapped).symm.trans (placeG _ _ isMapped')
    rwa [show page = page' by omega]
  refine ⟨fun same page inside => Option.ext fun mapped => ?_, fun same => ?_⟩
  · exact ⟨found place place' same page inside mapped, found place' place same.symm page inside mapped⟩
  · exact List.filterMap_congr fun page inside => same page (List.mem_range.1 inside)

/-- For every table whose tables lie below `2 ^ 48`: the ranges of a dump, page by page, are the pages that the
table maps exactly if every leaf's address is what its field holds; the pages come in ascending order, each once, and no
range continues the one logged before it. -/
theorem dump_reports_pages_iff (vmem : Option Nat) (k : Kernel) (low : LowTables k.mem 4 (dumpedEntries vmem k)) :
    (((nativeVmemDump vmem k).map PageMapEntry.range).flatMap MappedRange.pages =
        (List.range (2 ^ 36)).filterMap (fun page => mappedPage k.mem page 4 (dumpedEntries vmem k)) ↔
      ExactLeaves k.mem 4 (dumpedEntries vmem k)) ∧
    (((nativeVmemDump vmem k).map PageMapEntry.range).flatMap MappedRange.pages).Pairwise
      (fun page next => page.virtualAddr < next.virtualAddr) ∧
    ((nativeVmemDump vmem k).map PageMapEntry.range).IsChain fun range next => ¬ range.Continues next := by
  have count : 2 ^ 36 = 512 ^ 4 := by decide
  obtain ⟨runs, isRuns, maximal, pages⟩ := parseIntelMemory_runs k.mem (dumpedEntries vmem k)
  have isReported : (nativeVmemDump vmem k).map PageMapEntry.range = runs.all := isRuns
  rw [isReported, count]
  refine ⟨?_, ?_, maximal.apart⟩
  · rw [pages, filterMap_pages_eq_iff (fun _ _ => reportedPage_virtualAddr) (fun _ _ => mappedPage_virtualAddr),
      ← reported_iff k.mem (Nat.dvd_zero _) low]
    simp only [Nat.zero_add]
  · rw [pages, List.pairwise_filterMap]
    refine List.pairwise_lt_range.imp fun before page isMapped next isNext => ?_
    rw [reportedPage_virtualAddr isMapped, reportedPage_virtualAddr isNext]
    omega

/-- Tables at `0x1000`, `0x2000` and `0x3000`, one below the other, and a leaf in the first slot of the last. -/
def leafKernel (leaf : Nat) : Kernel :=
  { sampleKernel with
    mem := fun a =>
      let word := if a / 0x1000 = 1 then 0x2003 else if a / 0x1000 = 2 then 0x3003 else leaf
      if a % 0x1000 < 8 then UInt8.ofNat (word / 256 ^ (a % 8)) else 0
    core.cr3 := 0x1000 }

/-- A large page at two megabytes. -/
theorem dump_reports_pages_iff_largePage :
    ((nativeVmemDump none (leafKernel 0x200083)).map PageMapEntry.range).flatMap MappedRange.pages =
      (List.range (2 ^ 36)).filterMap fun page => mappedPage (leafKernel 0x200083).mem page 4 0x1000 :=
  (dump_reports_pages_iff none (leafKernel 0x200083) (by decide +kernel)).1.mpr (by decide +kernel)

/-- The PAT bit of a large page is reported as part of its address, and a page above `2 ^ 48` is reported below. -/
theorem dump_misreports_leaf :
    ((nativeVmemDump none (leafKernel 0x201083)).map PageMapEntry.range =
        [⟨0, 0x201000, 0x200000, true, true, true⟩] ∧
      mappedPage (leafKernel 0x201083).mem 0 4 0x1000 = some ⟨0, 0x200000, true, true, true⟩) ∧
    (nativeVmemDump none (leafKernel 0x1000000200083)).map PageMapEntry.range =
        [⟨0, 0x200000, 0x200000, true, true, true⟩] ∧
      mappedPage (leafKernel 0x1000000200083).mem 0 4 0x1000 = some ⟨0, 0x1000000200000, true, true, true⟩ := by
  decide +kernel

end BubackOS
