import BubackOS.Core.VmemRuns

/-!
# The software lookup and the processor's walk

`vmem_get_physical_address` takes the first entry of the map for a page, the page
tables hold the last one.  Where no page is mapped twice the two agree, as long as
the tables follow the maps.
-/

namespace BubackOS

open Library

/-- Where the keys are distinct, the first entry for a key is the last one. -/
theorem find_reverse_of_nodup {entries : List VmemMap} {page : Nat}
    (unique : (entries.map (·.virtualAddr)).Nodup) :
    entries.reverse.find? (·.virtualAddr = page) = entries.find? (·.virtualAddr = page) := by
  induction entries with
  | nil => rfl
  | cons entry rest ih =>
      obtain ⟨new, unique'⟩ := List.nodup_cons.mp unique
      rw [List.reverse_cons, List.find?_append, ih unique', List.find?_cons]
      by_cases here : entry.virtualAddr = page
      · have absent : rest.find? (·.virtualAddr = page) = none := by
          rw [List.find?_eq_none]
          intro other member same
          exact new (List.mem_map.mpr ⟨other, member, (of_decide_eq_true same).trans here.symm⟩)
        simp [absent, here]
      · simp [here]

/-- The map entries of an address space, as its regions have them. -/
theorem entry_of_region {s : Space} (coherent : s.Coherent) {v : Nat} {entry : VmemMap}
    (member : entry ∈ s.map v) :
    v ∈ s.attached entry.region ∧ ∃ i, i < (s.pages entry.region).length ∧
      entry.virtualAddr = s.start entry.region + 4096 * i ∧
      entry.physicalAddr = (s.pages entry.region).getD i 0 := by
  have filtered : entry ∈ (s.map v).filter (·.region = entry.region) := by
    rw [List.mem_filter]
    exact ⟨member, by simp⟩
  by_cases attached : v ∈ s.attached entry.region
  · refine ⟨attached, ?_⟩
    rw [coherent.mapped v entry.region attached] at filtered
    obtain ⟨i, bound, same⟩ := List.mem_mapIdx.mp filtered
    refine ⟨i, bound, ?_, ?_⟩
    · rw [← congrArg VmemMap.virtualAddr same]
    · rw [← congrArg VmemMap.physicalAddr same, List.getD_eq_getElem?_getD, List.getElem?_eq_getElem bound,
        Option.getD_some]
  · rw [coherent.unmapped v entry.region attached] at filtered
    exact absurd filtered (List.not_mem_nil)

/-- The two translations of an address: nothing, or the page of an attached region. -/
def Agree (k : Kernel) (v a : Nat) : Prop :=
  (vmemGetPhysicalAddress k v a = 0 ∧ walk k v a = none) ∨
    ∃ r, v ∈ (k.region r).attached.items ∧ (k.region r).start ≤ a ∧
      (a - (k.region r).start) / 4096 < (k.region r).pages.items.length ∧
      vmemGetPhysicalAddress k v a =
        (k.region r).pages.items.getD ((a - (k.region r).start) / 4096) 0 + a % 4096 ∧
      (walk k v a).map (· + a % 4096) =
        some ((k.region r).pages.items.getD ((a - (k.region r).start) / 4096) 0 + a % 4096)

variable {P : Allocator → Prop} {kalloc : Kalloc} {k k₀ : Kernel} {pmem : Pmem} {v : Nat}

/-- The entries of an orderly state are whole pages. -/
theorem alignedMaps_of_orderly (orderly : Orderly k) : AlignedMaps k := by
  intro v bound entry member
  obtain ⟨attached, i, inside, virtual, physical⟩ := entry_of_region orderly.coherent member
  have known := (orderly.coherent.known v _ ((orderly.coherent.symmetric v _).mpr attached)).2
  have start := orderly.placed.start _ known
  have page : entry.physicalAddr ∈ k.space.pages entry.region := by
    rw [physical, List.getD_eq_getElem?_getD, List.getElem?_eq_getElem inside, Option.getD_some]
    exact List.getElem_mem inside
  refine ⟨?_, (orderly.placed.pages _ known _ page).2⟩
  rw [virtual]
  omega

/-- Where the tables follow the maps and no page is mapped twice, the translations agree. -/
theorem agree_of_mirror (orderly : Orderly k) (mirror : Mirror k) (known : v < k.core.vmems.count)
    (lowEntries : ∀ entry ∈ (k.vmem v).map.items, entry.virtualAddr < 2 ^ 48 ∧ entry.physicalAddr < 2 ^ 48)
    (unique : ((k.vmem v).map.items.map (·.virtualAddr)).Nodup) {a : Nat} (low : a < 2 ^ 48) :
    Agree k v a := by
  have walks := mirror.walks v known a low
  rw [map_cut_eq lowEntries, lastMapped, find_reverse_of_nodup unique] at walks
  cases found : (k.vmem v).map.items.find? (·.virtualAddr = memAlign a) with
  | none =>
      rw [found] at walks
      refine Or.inl ⟨?_, walks⟩
      rw [vmemGetPhysicalAddress, findMap, found]
  | some entry =>
      rw [found] at walks
      have member := List.mem_of_find?_eq_some found
      have page : entry.virtualAddr = memAlign a := by simpa using List.find?_some found
      obtain ⟨attached, i, inside, virtual, physical⟩ := entry_of_region orderly.coherent member
      have split := memAlign_add_mod a
      have start : k.space.start entry.region + 4096 * i + a % 4096 = a := by
        rw [← virtual, page]
        exact split
      have index : (a - k.space.start entry.region) / 4096 = i := by omega
      have lookup : vmemGetPhysicalAddress k v a = entry.physicalAddr + a % 4096 := by
        rw [vmemGetPhysicalAddress, findMap, found]
        have bound := (lowEntries entry member).2
        have offset : a - memAlign a = a % 4096 := by omega
        dsimp only
        rw [offset, wrap_of_lt (by omega)]
      refine Or.inr ⟨entry.region, attached, ?_, ?_, ?_, ?_⟩
      · have le : k.space.start entry.region ≤ a := by omega
        exact le
      · rw [show (k.region entry.region).start = k.space.start entry.region from rfl, index]
        exact inside
      · rw [show (k.region entry.region).start = k.space.start entry.region from rfl, index, lookup,
          physical]
        rfl
      · rw [show (k.region entry.region).start = k.space.start entry.region from rfl, index, walks]
        simp only [Option.map_some]
        rw [physical]
        rfl

/-- In every run whose allocator leaves the services alone, the lookup agrees with the walk in
every address space without doubly mapped pages. -/
theorem lookup_agrees_with_walk (quiet : Quiet P kalloc) (mode : P k₀.alloc)
    (blank : k₀.core = Core.blank pmem) (reached : Reached kalloc k₀ k) (sound : Sound k.alloc.blocks)
    (lowEntries : ∀ v, v < k.core.vmems.count → ∀ entry ∈ (k.vmem v).map.items,
      entry.virtualAddr < 2 ^ 48 ∧ entry.physicalAddr < 2 ^ 48) (known : v < k.core.vmems.count)
    (unique : ((k.vmem v).map.items.map (·.virtualAddr)).Nodup) (a : Nat) (low : a < 2 ^ 48) :
    Agree k v a := by
  have refines := reached.refines quiet mode blank sound.present
  have orderly := refines.orderly (blank_orderly blank)
  obtain ⟨⟨f, acts⟩, -⟩ := refines
  have mirror := acts.mirror sound (alignedMaps_of_orderly orderly) (blank_mirror blank)
  exact agree_of_mirror orderly mirror known (lowEntries v known) unique low

theorem sampleVmems_sound : Sound sampleVmems.alloc.blocks :=
  .of_ascending (by decide +kernel) (by decide +kernel)

theorem lookup_agrees_with_walk_sampleVmems : Agree sampleVmems 1 0x201234 := by
  have early : Early sampleKernel.alloc := rfl
  have blank : sampleKernel.core = Core.blank sampleKernel.core.pmem := rfl
  exact lookup_agrees_with_walk kalloc_quiet early blank sampleVmems_reached sampleVmems_sound
    (by decide +kernel) (by decide +kernel) (by decide +kernel) 0x201234 (by decide)

/-! ## Growth inside a mapping

Once it is initialised, `kalloc` maps pages itself.  When `set_entry` asks for a new
table and the kernel data grows across two megabytes meanwhile, the nested calls
fill the very slot the outer call has found empty, and the outer call overwrites it:
the pages mapped through the lost table stay in the map. -/

/-- A machine whose kernel data begins shortly before two megabytes. -/
def borderKernel : Kernel :=
  .start
    { kernel := { addrStart := 0x100000, addrEnd := 0x101000, size := 0x1000 }
      kernelData := { addrStart := 0x1E1000, addrEnd := 0x1E1000, size := 0 } }
    { totalOfPages := 17000, pages := fun _ => .free } (fun _ => 0)

/-- Its boot. -/
def borderBoot : Bool × Kernel :=
  memoryAllocatorInitialize (vmemStart BubackOS.kalloc (BubackOS.kalloc 2304 borderKernel).2)

/-- Two regions of the kernel address space, far from each other. -/
def borderRun : Kernel :=
  VmemOp.run BubackOS.kalloc (VmemOp.run BubackOS.kalloc borderBoot.2
    (.createRegion (some 0) (some "first") 0x8000000000 (58 * 4096) false true false))
    (.createRegion (some 0) (some "second") 0x10000000000 4096 false true false)

set_option maxRecDepth 100000 in
theorem borderRun_facts : borderBoot.1 = true ∧ (∀ block ∈ borderRun.alloc.blocks, block.addr ≠ 0) ∧
    (∀ entry ∈ (borderRun.vmem 0).map.items,
      entry.virtualAddr < 2 ^ 48 ∧ entry.physicalAddr < 2 ^ 48 ∧ entry.physicalAddr ≠ 0) ∧
    ((borderRun.vmem 0).map.items.map (·.virtualAddr)).Nodup ∧
    vmemGetPhysicalAddress borderRun 0 0x201000 ≠ 0 ∧ walk borderRun 0 0x201000 = none := by
  decide +kernel

/-- All allocations succeeded and no page is mapped twice, and still the lookup finds a page the
processor does not. -/
theorem lookup_disagrees_on_border : borderBoot.1 = true ∧ Served borderRun.alloc.blocks ∧
    ((borderRun.vmem 0).map.items.map (·.virtualAddr)).Nodup ∧ ¬ Agree borderRun 0 0x201000 := by
  obtain ⟨booted, served, -, unique, found, absent⟩ := borderRun_facts
  refine ⟨booted, served, unique, ?_⟩
  rintro (⟨nothing, -⟩ | ⟨r, -, -, -, -, present⟩)
  · exact found nothing
  · rw [absent] at present
    cases present

end BubackOS
