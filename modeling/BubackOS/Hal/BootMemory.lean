import BubackOS.Core.Pmem
import BubackOS.Hal.BootInfo

/-!
# The memory the boot loader reports

`multiboot2_parser` turns the `mem_upper` field of a `BASIC_MEMINFO` tag into the amount of
memory from which `pmem_initialize` sizes the page array.  Field, sum and product are 32 bits
wide; only the result is widened.
-/

namespace BubackOS.Multiboot

open Library Libc

/-- The `mem_upper` fields `tagLoop` finds in `BASIC_MEMINFO` tags, in step with it. -/
def memUppers (rounds : Nat) : Nat → Nat → Boot → List Nat
  | 0, _, _ => []
  | left + 1, tag, s =>
      if tagType s.kernel.mem tag = tagTypeEnd then []
      else
        (if tagType s.kernel.mem tag = tagTypeBasicMeminfo then [s.kernel.mem.load (tag + 12) 4] else []) ++
          match visitTag rounds tag { s with visited := tag :: s.visited } with
          | none => []
          | some next => memUppers rounds left (nextTag next.kernel.mem tag) next

/-- The `mem_upper` the boot loader reports to `multiboot2_parser`: the last one counts. -/
def reportedUpper (rounds addr : Nat) (s : Boot) : Option Nat :=
  (memUppers rounds rounds (wrap (addr + 8)) s).getLast?

/-- The memory of a machine in bytes: what is above the first megabyte, and the first megabyte. -/
def reportedMemory (upper : Nat) : Nat := (upper + 1024) * 1024

/-- The page array has exactly the frames of the reported memory. -/
structure Tracks (upper : Nat) (pmem : Pmem) : Prop where
  pages : pmem.totalOfPages = reportedMemory upper / systemPageSize
  frames : ∀ frame, (frame + 1) * systemPageSize ≤ reportedMemory upper → frame < pmem.totalOfPages

/-! ## The total of a run -/

theorem addModule_totalMemory {rounds tag : Nat} {s s' : Boot} (added : addModule rounds tag s = some s') :
    s'.totalMemory = s.totalMemory := by
  unfold addModule at added
  obtain ⟨paramSize, -, result⟩ := Option.map_eq_some_iff.mp added
  rw [← result]

theorem mmapLoop_totalMemory {tag : Nat} : ∀ {rounds mmap : Nat} {s s' : Boot},
    mmapLoop tag rounds mmap s = some s' → s'.totalMemory = s.totalMemory
  | 0, _, _, _, returned => nomatch returned
  | rounds + 1, mmap, s, s', returned => by
      rw [mmapLoop] at returned
      by_cases more : mmap < wrap (tag + tagSize s.kernel.mem tag)
      · rw [if_pos more] at returned
        rw [mmapLoop_totalMemory returned]
        split <;> rfl
      · rw [if_neg more] at returned
        rw [Option.some.inj returned]

/-- A tag sets the total to the memory it reports, in 32 bits, or leaves it. -/
theorem visitTag_totalMemory {rounds tag : Nat} {s s' : Boot} (visited : visitTag rounds tag s = some s') :
    s'.totalMemory = if tagType s.kernel.mem tag = tagTypeBasicMeminfo then
      reportedMemory (s.kernel.mem.load (tag + 12) 4) % 2 ^ 32 else s.totalMemory := by
  unfold visitTag at visited
  dsimp only at visited
  by_cases isModule : tagType s.kernel.mem tag = tagTypeModule
  · rw [if_pos isModule] at visited
    rw [if_neg (by rw [isModule]; decide), addModule_totalMemory visited]
  · rw [if_neg isModule] at visited
    by_cases isMeminfo : tagType s.kernel.mem tag = tagTypeBasicMeminfo
    · rw [if_pos isMeminfo] at visited ⊢
      rw [← Option.some.inj visited]
      unfold reportedMemory
      rfl
    · rw [if_neg isMeminfo] at visited ⊢
      split at visited
      · exact mmapLoop_totalMemory visited
      · rw [Option.some.inj visited]

/-- After the loop the total is that of the last report. -/
theorem tagLoop_totalMemory {rounds : Nat} : ∀ {left tag : Nat} {s s' : Boot}, tagLoop rounds left tag s = some s' →
    s'.totalMemory = (((memUppers rounds left tag s).getLast?.map fun upper =>
      reportedMemory upper % 2 ^ 32).getD s.totalMemory)
  | 0, _, _, _, returned => nomatch returned
  | left + 1, tag, s, s', returned => by
      rw [tagLoop] at returned
      rw [memUppers]
      by_cases isEnd : tagType s.kernel.mem tag = tagTypeEnd
      · rw [if_pos isEnd] at returned ⊢
        rw [Option.some.inj returned]
        rfl
      · rw [if_neg isEnd] at returned ⊢
        obtain ⟨next, visited, rest⟩ := Option.bind_eq_some_iff.mp returned
        have here := visitTag_totalMemory visited
        have later := tagLoop_totalMemory rest
        rw [visited]
        dsimp only at here ⊢
        rw [later, here, List.getLast?_append]
        cases (memUppers rounds left (nextTag next.kernel.mem tag) next).getLast? with
        | some upper => rw [Option.some_or, Option.map_some, Option.getD_some, Option.getD_some]
        | none =>
            rw [Option.none_or, Option.map_none, Option.getD_none]
            by_cases isMeminfo : tagType s.kernel.mem tag = tagTypeBasicMeminfo
            · rw [if_pos isMeminfo, if_pos isMeminfo, List.getLast?_singleton, Option.map_some, Option.getD_some]
            · rw [if_neg isMeminfo, if_neg isMeminfo, List.getLast?_nil, Option.map_none, Option.getD_none]

/-! ## The page array -/

/-- A total taken in 32 bits is enough exactly for less than four gigabytes. -/
theorem tracks_iff (upper : Nat) :
    Tracks upper (pmemInitialize (reportedMemory upper % 2 ^ 32)) ↔ upper + 1024 < 2 ^ 22 := by
  refine ⟨fun tracks => ?_, fun small => ?_⟩
  · have pages := tracks.pages
    simp only [pmemInitialize, reportedMemory, systemPageSize] at pages
    omega
  · have below : reportedMemory upper < 2 ^ 22 * 1024 := Nat.mul_lt_mul_of_pos_right small (by decide)
    rw [show 2 ^ 32 = 2 ^ 22 * 1024 from rfl, Nat.mod_eq_of_lt below]
    refine ⟨rfl, fun frame within => ?_⟩
    simp only [pmemInitialize, systemPageSize] at within ⊢
    omega

/-- In every run of the parser that accepts a block with a `BASIC_MEMINFO` tag, the page array has exactly the
reported memory if and only if that is less than four gigabytes. -/
theorem reported_memory_tracked_iff {rounds magic addr upper : Nat} {s parsed : Boot}
    (returned : multiboot2Parser rounds magic addr s = some (true, parsed))
    (reported : reportedUpper rounds addr s = some upper) :
    Tracks upper (pmemInitialize parsed.totalMemory) ↔ upper + 1024 < 2 ^ 22 := by
  rw [multiboot2Parser] at returned
  split at returned
  · cases returned
  · split at returned
    · cases returned
    · obtain ⟨s', looped, result⟩ := Option.map_eq_some_iff.mp returned
      obtain ⟨-, rfl⟩ := Prod.mk.inj result
      have total := tagLoop_totalMemory looped
      rw [reportedUpper] at reported
      rw [reported, Option.map_some, Option.getD_some] at total
      rw [total]
      exact tracks_iff upper

/-- A block with one `BASIC_MEMINFO` tag. -/
def meminfoBytes (upper : Nat) : List UInt8 := infoBytes (field 4 4 ++ field 4 16 ++ field 4 640 ++ field 4 upper)

/-- A boot with it. -/
def meminfoBoot (upper : Nat) : Boot := sampleBoot (bytesAt 0x9000 (meminfoBytes upper))

/-- The machine of one gigabyte has its pages. -/
theorem one_gigabyte_tracked : ∃ parsed,
    multiboot2Parser 32 bootloaderMagic 0x9000 (meminfoBoot 0xffc00) = some (true, parsed) ∧
    Tracks 0xffc00 (pmemInitialize parsed.totalMemory) := by
  have accepted : (multiboot2Parser 32 bootloaderMagic 0x9000 (meminfoBoot 0xffc00)).map Prod.fst = some true := by
    decide +kernel
  obtain ⟨⟨verdict, parsed⟩, returned, isTrue⟩ := Option.map_eq_some_iff.mp accepted
  obtain rfl : verdict = true := isTrue
  exact ⟨parsed, returned, (reported_memory_tracked_iff returned (by decide +kernel)).mpr (by decide)⟩

/-- The machine of four gigabytes has none. -/
theorem four_gigabytes_untracked :
    reportedUpper 32 0x9000 (meminfoBoot 0x3ffc00) = some 0x3ffc00 ∧
    ((multiboot2Parser 32 bootloaderMagic 0x9000 (meminfoBoot 0x3ffc00)).map fun result =>
      (result.1, result.2.totalMemory, (pmemInitialize result.2.totalMemory).totalOfPages)) = some (true, 0, 0) ∧
    reportedMemory 0x3ffc00 / systemPageSize = 0x100000 := by
  refine ⟨by decide +kernel, by decide +kernel, by decide⟩

end BubackOS.Multiboot
