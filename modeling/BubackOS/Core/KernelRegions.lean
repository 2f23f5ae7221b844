import BubackOS.Core.LinkRuns

/-!
# The kernel's regions in the other address spaces

`vmem_create` attaches the regions the kernel's address space has at that moment.
Nothing hands a later one on, so the kernel's regions are everywhere exactly as long
as they are created before the other address spaces.
-/

namespace BubackOS

open Library

variable {P : Allocator → Prop} {kalloc : Kalloc} {k k' k₀ : Kernel} {v r : Nat} {pmem : Pmem}
  {existing : List Nat}

/-- The address space a call returned. -/
def VmemOp.created (kalloc : Kalloc) (k : Kernel) : VmemOp → List Nat
  | create => (vmemCreate kalloc k).1.toList
  | _ => []

/-- A call that attaches a region to the kernel's address space finds it attached to all others, or
there are no others. -/
def VmemOp.Spreads (existing : List Nat) (k : Kernel) : VmemOp → Prop
  | createRegion vmem _ _ _ _ _ _ =>
      ∀ v ∈ vmem, k.core.kernelVmem = some v → ∀ w ∈ existing, w = v
  | attach vmem region =>
      ∀ v ∈ vmem, ∀ r ∈ region, k.core.kernelVmem = some v → ∀ w ∈ existing, w = v ∨ r ∈ (k.vmem w).regions.items
  | _ => True

/-- Runs of such calls, with the address spaces returned so far. -/
inductive SpreadRun (kalloc : Kalloc) (k₀ : Kernel) : List Nat → Kernel → Prop where
  | start : SpreadRun kalloc k₀ (vmemCreate kalloc (idMapperCreate kalloc vmemIdMapper k₀)).1.toList
      (vmemStart kalloc k₀)
  | step {existing : List Nat} {k : Kernel} {op : VmemOp} (run : SpreadRun kalloc k₀ existing k)
      (proper : op.Proper k) (spreads : op.Spreads existing k) :
      SpreadRun kalloc k₀ (op.created kalloc k ++ existing) (op.run kalloc k)

theorem SpreadRun.reached (run : SpreadRun kalloc k₀ existing k) : Reached kalloc k₀ k := by
  induction run with
  | start => exact .start
  | step _ proper _ ih => exact ih.step proper

/-- Every region of the kernel is a region of all these address spaces. -/
def Space.Spread (kernel : Option Nat) (existing : List Nat) (s : Space) : Prop :=
  ∀ w ∈ kernel, ∀ r ∈ s.regions w, ∀ v ∈ existing, r ∈ s.regions v

theorem Space.Spread.of_same {s s' : Space} {kernel : Option Nat} (spread : s.Spread kernel existing)
    (same : Space.SameLinks s s') : s'.Spread kernel existing := by
  unfold Space.Spread
  rw [same.regions]
  exact spread

theorem Space.Spread.attach {s : Space} {kernel : Option Nat} (spread : s.Spread kernel existing)
    (reaches : kernel = some v → ∀ w ∈ existing, w = v ∨ r ∈ s.regions w) :
    (s.attach v r).Spread kernel existing := by
  intro w isKernel r' member w' exists'
  rw [Space.mem_attach] at member ⊢
  rcases member with before | ⟨rfl, rfl⟩
  · exact Or.inl (spread w isKernel r' before w' exists')
  · rcases reaches isKernel w' exists' with here | there
    · exact Or.inr ⟨here, rfl⟩
    · exact Or.inl there

theorem spread_of_relinks {f : Space → Space} (relinks : Relinks f k k')
    (spread : (f k.space).Spread k.core.kernelVmem existing) : k'.space.Spread k'.core.kernelVmem existing := by
  rw [relinks.kernelVmem]
  exact spread.of_same relinks.links

/-- A new address space gets all regions of the kernel. -/
theorem vmemCreate_spread (tame : Tame P kalloc) (well : WellLinked P k)
    (spread : k.space.Spread k.core.kernelVmem existing) :
    (vmemCreate kalloc k).2.space.Spread (vmemCreate kalloc k).2.core.kernelVmem
      ((vmemCreate kalloc k).1.toList ++ existing) := by
  obtain ⟨-, ⟨failed, same, -⟩ | ⟨done, isPrefix, success, new, -⟩⟩ :=
    vmemCreate_relinks tame well.mode well.linked well.kernel
  · rw [failed]
    exact spread_of_relinks same spread
  · refine spread_of_relinks new ?_
    intro w isKernel r' member w' exists'
    have old : ∀ {u r'}, r' ∈ k.space.regions u → r' ∈ k.space.newVmem.regions u := by
      intro u r' before
      have other : u ≠ k.space.vmemCount := Nat.ne_of_lt (well.linked.known u r' before).1
      rw [Space.newVmem]
      dsimp only
      rw [Function.update_of_ne other]
      exact before
    have kernel : w ≠ k.space.vmemCount := Nat.ne_of_lt (well.kernel w isKernel)
    rw [Space.mem_attachAll] at member ⊢
    have before : r' ∈ k.space.regions w := by
      rcases member with before | ⟨impossible, -⟩
      · rw [Space.newVmem] at before
        dsimp only at before
        rwa [Function.update_of_ne kernel] at before
      · exact absurd impossible kernel
    rcases List.mem_append.mp exists' with isNew | older
    · have returned : (vmemCreate kalloc k).1 ≠ none := by
        intro none
        rw [none] at isNew
        exact absurd isNew List.not_mem_nil
      obtain ⟨isCount, complete⟩ := success returned
      rw [isCount] at isNew
      refine Or.inr ⟨List.mem_singleton.mp isNew, ?_⟩
      rw [complete, kernelRegions_space, Option.mem_def.mp isKernel]
      exact before
    · exact Or.inl (old (spread w isKernel r' before w' older))

theorem VmemOp.spread {op : VmemOp} (tame : Tame P kalloc) (well : WellLinked P k)
    (spreads : op.Spreads existing k) (spread : k.space.Spread k.core.kernelVmem existing) :
    (op.run kalloc k).space.Spread (op.run kalloc k).core.kernelVmem (op.created kalloc k ++ existing) := by
  cases op with
  | create => exact vmemCreate_spread tame well spread
  | createRegion vmem name start size user writable executable =>
      cases vmem with
      | none => exact spread
      | some v =>
        cases name with
        | none => exact spread
        | some name =>
          have record : ∀ start, (k.space.newRegion start).Spread k.core.kernelVmem existing := fun _ => spread
          have nothing : (VmemOp.createRegion (some v) (some name) start size user writable executable).created
            kalloc k = [] := rfl
          rw [VmemOp.run, nothing, List.nil_append]
          obtain ⟨-, ⟨-, links⟩ | ⟨-, links⟩ | ⟨-, links⟩⟩ := vmemRegionCreate_relinks tame well.mode
            well.linked v name start size user writable executable rfl
          · exact spread_of_relinks links spread
          · exact spread_of_relinks links (record _)
          · refine spread_of_relinks links ((record _).attach fun isKernel w exists' => ?_)
            exact Or.inl (spreads v rfl isKernel w exists')
  | resize region newSize =>
      exact spread_of_relinks (tame.growth (vmemRegionResize_growthPath (T := Set.univ) region
        (fun r _ => Set.mem_univ r) newSize k) well.mode).2.relinks spread
  | mapPhysical region physicalStartAddr size =>
      exact spread_of_relinks (tame.growth (vmemRegionMapPhysicalAddress_growthPath (T := Set.univ) region
        (fun r _ => Set.mem_univ r) physicalStartAddr size k) well.mode).2.relinks spread
  | attach vmem region =>
      cases vmem with
      | none => exact spread
      | some v =>
        cases region with
        | none => exact spread
        | some r =>
          obtain ⟨-, ⟨-, links⟩ | ⟨-, links⟩⟩ := vmemAttach_relinks tame well.mode well.linked.symmetric v r
          · exact spread_of_relinks links (spread.attach fun isKernel => spreads v rfl r rfl isKernel)
          · exact spread_of_relinks links spread

theorem SpreadRun.spread (tame : Tame P kalloc) (mode : P k₀.alloc) (blank : k₀.core = Core.blank pmem)
    (run : SpreadRun kalloc k₀ existing k) : k.space.Spread k.core.kernelVmem existing := by
  induction run with
  | start =>
      intro w isKernel r member v exists'
      rw [(vmemStart_wellLinked tame mode blank).2, Option.mem_def] at isKernel
      rw [isKernel] at exists'
      rw [List.mem_singleton.mp exists']
      exact member
  | step run proper spreads ih =>
      exact VmemOp.spread tame (run.reached.run.wellLinked tame mode blank) spreads ih

/-- A mapping of the kernel belongs to a region of the kernel, whose pages are mapped wherever it is
attached. -/
theorem Space.Coherent.mapping_spread {s : Space} (coherent : s.Coherent) {kernel : Option Nat}
    (spread : s.Spread kernel existing) {w : Nat} (isKernel : w ∈ kernel) {entry : VmemMap}
    (member : entry ∈ s.map w) (exists' : v ∈ existing) : entry ∈ s.map v := by
  have inFilter : entry ∈ (s.map w).filter (·.region = entry.region) := by
    rw [List.mem_filter]
    exact ⟨member, by simp⟩
  have attached : w ∈ s.attached entry.region := by
    by_contra absent
    rw [coherent.unmapped w entry.region absent] at inFilter
    exact absurd inFilter List.not_mem_nil
  have there := spread w isKernel entry.region ((coherent.symmetric w _).mpr attached) v exists'
  rw [coherent.mapped w entry.region attached,
    ← coherent.mapped v entry.region ((coherent.symmetric v _).mp there)] at inFilter
  exact (List.mem_filter.mp inFilter).1

/-- In every run in which regions are attached to the kernel's address space only while no other one
lacks them, the kernel's regions and mappings are those of every address space. -/
theorem kernel_regions_everywhere (quiet : Quiet P kalloc) (mode : P k₀.alloc)
    (blank : k₀.core = Core.blank pmem) (run : SpreadRun kalloc k₀ existing k) (served : Served k.alloc.blocks)
    {kernel : Nat} (isKernel : k.core.kernelVmem = some kernel) :
    ∀ v ∈ existing, (∀ r ∈ (k.vmem kernel).regions.items, r ∈ (k.vmem v).regions.items) ∧
      ∀ entry ∈ (k.vmem kernel).map.items, entry ∈ (k.vmem v).map.items := by
  have spread := run.spread quiet.tame mode blank
  have orderly := (run.reached.refines quiet mode blank served).orderly (blank_orderly blank)
  intro v exists'
  exact ⟨fun r member => spread kernel isKernel r member v exists',
    fun entry member => orderly.coherent.mapping_spread spread isKernel member exists'⟩

theorem sampleVmems_spread : ∃ existing, SpreadRun BubackOS.kalloc sampleKernel existing sampleVmems ∧
    1 ∈ existing := by
  refine ⟨_, .step (.step (.step .start ?_ ?_) trivial trivial) ?_ ?_, ?_⟩
  · rintro v ⟨⟩
    exact ⟨by decide +kernel, ⟨by decide, by decide⟩⟩
  · rintro v ⟨⟩ -
    decide +kernel
  · exact ⟨by rintro v ⟨⟩; decide +kernel, by rintro r ⟨⟩; decide +kernel⟩
  · rintro v ⟨⟩ r ⟨⟩ isKernel
    exact absurd isKernel (by decide +kernel)
  · decide +kernel

theorem kernel_regions_everywhere_sampleVmems : 0 ∈ (sampleVmems.vmem 1).regions.items := by
  obtain ⟨existing, run, exists'⟩ := sampleVmems_spread
  have early : Early sampleKernel.alloc := rfl
  have blank : sampleKernel.core = Core.blank sampleKernel.core.pmem := rfl
  have served : Served sampleVmems.alloc.blocks := by
    unfold Served
    decide +kernel
  have isKernel : sampleVmems.core.kernelVmem = some 0 := by decide +kernel
  exact (kernel_regions_everywhere kalloc_quiet early blank run served isKernel 1 exists').1 0 (by decide +kernel)

/-- A region created in the kernel's address space after the first task's. -/
def lateRegion : Kernel :=
  VmemOp.run BubackOS.kalloc (VmemOp.run BubackOS.kalloc (vmemStart BubackOS.kalloc sampleKernel) .create)
    (.createRegion (some 0) (some "module") 0x200000 4096 false true false)

/-- It is attached to the kernel's address space only, and its page is mapped there only. -/
theorem late_region_missing : Reached BubackOS.kalloc sampleKernel lateRegion ∧
    Served lateRegion.alloc.blocks ∧ lateRegion.core.kernelVmem = some 0 ∧
    0 ∈ (lateRegion.vmem 0).regions.items ∧ 0 ∉ (lateRegion.vmem 1).regions.items ∧
    vmemGetPhysicalAddress lateRegion 0 0x200000 = 0x4000000 ∧
    vmemGetPhysicalAddress lateRegion 1 0x200000 = 0 := by
  refine ⟨.step (.step .start trivial) ?_, by unfold Served; decide +kernel, by decide +kernel, by decide +kernel,
    by decide +kernel, by decide +kernel, by decide +kernel⟩
  rintro v ⟨⟩
  exact ⟨by decide +kernel, ⟨by decide, by decide⟩⟩

end BubackOS
