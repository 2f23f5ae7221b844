import BubackOS.Core.Ample

/-!
# Runs of the kernel's memory services

`vmem_initialize` and `vmem_region_initialize`, then any calls of the allocator and of the
vmem services with valid references, `memory_allocator_initialize` among them.  The logs of
the requests only get longer, and no map loses an entry.
-/

namespace BubackOS

open Library

/-- One call. -/
inductive ServiceStep (k : Kernel) : Kernel → Prop where
  | call (size : Nat) : ServiceStep k (kalloc size k).2
  | service {op : VmemOp} (valid : op.Valid k) : ServiceStep k (op.run kalloc k)
  | initialise : ServiceStep k (memoryAllocatorInitialize k).2

/-- Any number of calls. -/
def ServiceRun : Kernel → Kernel → Prop := Relation.ReflTransGen ServiceStep

variable {k k' : Kernel} {v h : Nat}

/-! ## The boot of the allocator -/

/-- What `memory_allocator_initialize` is made of: services, and edits of the records beside them. -/
structure BootClosed (R : Kernel → Kernel → Prop) : Prop where
  trans : ∀ {k k' k''}, R k k' → R k' k'' → R k k''
  code : ∀ {name start k created},
    created = vmemRegionCreate kalloc k.core.kernelVmem (some name) start 0 false true true k →
      R k (created.2.setKernelCode created.1)
  data : ∀ {name start k created},
    created = vmemRegionCreate kalloc k.core.kernelVmem (some name) start 0 false true true k →
      R k (created.2.setKernelData created.1)
  map : ∀ r paddr size k, R k (vmemRegionMapPhysicalAddress kalloc r paddr size k).2
  setAlloc : ∀ (change : Allocator → Allocator), (∀ a, (change a).blocks = a.blocks) →
    ∀ k : Kernel, R k (k.setAlloc (change k.alloc))
  switch : ∀ v k, R k (nativeVmemSwitch v k)

theorem BootClosed.initialise {R : Kernel → Kernel → Prop} (closed : BootClosed R) (k : Kernel) :
    R k (memoryAllocatorInitialize k).2 := by
  have mapped : R k (vmemMapCurrentKernelMemoryAddress k).2 := by
    unfold vmemMapCurrentKernelMemoryAddress
    dsimp only
    generalize isCode : vmemRegionCreate kalloc k.core.kernelVmem (some "kernel-code")
      k.alloc.platform.kernel.addrStart 0 false true true k = code
    have coded := closed.code isCode.symm
    have codeMapped := closed.trans coded (closed.map code.1 k.alloc.platform.kernel.addrStart
      (alignNext k.alloc.platform.kernel.size systemPageSize) _)
    generalize vmemRegionMapPhysicalAddress kalloc code.1 k.alloc.platform.kernel.addrStart
      (alignNext k.alloc.platform.kernel.size systemPageSize) (code.2.setKernelCode code.1) = first
      at codeMapped ⊢
    split
    · exact codeMapped
    generalize isData : vmemRegionCreate kalloc first.2.core.kernelVmem (some "kernel-data")
      first.2.alloc.platform.kernelData.addrStart 0 false true true first.2 = data
    have dated := closed.trans codeMapped (closed.data isData.symm)
    generalize data.2.setKernelData data.1 = dataKernel at dated ⊢
    generalize isSize : alignNext (wrap (dataKernel.alloc.platform.kernelData.size + kernelMemoryPageReserve))
      systemPageSize = newSize
    have dataMapped := closed.trans dated (closed.map data.1 dataKernel.alloc.platform.kernelData.addrStart newSize
      dataKernel)
    generalize vmemRegionMapPhysicalAddress kalloc data.1 dataKernel.alloc.platform.kernelData.addrStart newSize
      dataKernel = second at dataMapped ⊢
    split
    · refine closed.trans dataMapped ?_
      exact closed.setAlloc (fun a => a.setSize newSize) (fun _ => rfl) second.2
    · exact dataMapped
  unfold memoryAllocatorInitialize
  dsimp only
  generalize vmemMapCurrentKernelMemoryAddress k = result at mapped ⊢
  have ready := closed.trans mapped
    (closed.setAlloc (fun a => { a with memAllocatorInitialised := true }) (fun _ => rfl) result.2)
  split
  · split
    · exact mapped
    · split
      · exact closed.trans ready (closed.switch _ _)
      · exact ready
  · exact mapped

/-- A relation kept by the services that looks at the address spaces only. -/
theorem Closed.boot {N : Nat} {R : Kernel → Kernel → Prop} (closed : Closed N 0 R)
    (still : ∀ {k k' : Kernel}, k'.core.vmems = k.core.vmems → R k k') : BootClosed R := by
  have calls := closed.growth.calls.kalloc
  refine ⟨closed.trans, ?_, ?_, fun r paddr size k => closed.path calls
    (vmemRegionMapPhysicalAddress_path r (fun s _ => Set.mem_univ s) paddr size k), fun _ _ _ => still rfl, ?_⟩
  · rintro name start k _ rfl
    exact closed.trans (closed.path calls (vmemRegionCreate_path _ _ _ _ _ _ _ k
      fun _ _ => ⟨Nat.zero_le _, Set.mem_univ _⟩)) (still rfl)
  · rintro name start k _ rfl
    exact closed.trans (closed.path calls (vmemRegionCreate_path _ _ _ _ _ _ _ k
      fun _ _ => ⟨Nat.zero_le _, Set.mem_univ _⟩)) (still rfl)
  · intro v k
    unfold nativeVmemSwitch
    split
    · exact closed.refl k
    · exact still rfl

/-! ## The logs -/

theorem vmemRegionCreate_later (vmem : Option Nat) (name : Option String) (start size : Nat)
    (user writable executable : Bool) (k : Kernel) :
    Later k (vmemRegionCreate kalloc vmem name start size user writable executable k).2 :=
  kalloc_reliable.laterOf (vmemRegionCreate_path vmem name start size user writable executable k
    fun _ _ => ⟨Nat.zero_le _, Set.mem_univ _⟩)

theorem later_boot : BootClosed Later where
  trans := Later.trans
  code := by
    rintro name start k _ rfl
    exact (vmemRegionCreate_later _ _ _ _ _ _ _ k).trans (.of_alloc rfl List.suffix_rfl)
  data := by
    rintro name start k _ rfl
    exact (vmemRegionCreate_later _ _ _ _ _ _ _ k).trans (.of_alloc rfl List.suffix_rfl)
  map := fun r paddr size k =>
    kalloc_reliable.laterOf (vmemRegionMapPhysicalAddress_path r (fun s _ => Set.mem_univ s) paddr size k)
  setAlloc := by
    intro change blocks k
    refine .of_core ?_ rfl
    rw [Kernel.setAlloc, blocks]
  switch := by
    intro v k
    unfold nativeVmemSwitch
    split
    · exact Later.refl k
    · exact .of_alloc rfl List.suffix_rfl

theorem ServiceRun.later (run : ServiceRun k k') : Later k k' := by
  induction run with
  | refl => exact Later.refl k
  | @tail middle _ _ step ih =>
      refine ih.trans ?_
      cases step with
      | call size => exact kalloc_reliable.later size middle
      | @service op valid => exact kalloc_reliable.laterOf (op.path kalloc middle)
      | initialise => exact later_boot.initialise middle

/-! ## Maps -/

/-- The map of an address space keeps its entries, in their order, and gets more at the end. -/
structure MapKept (h : Nat) (k k' : Kernel) : Prop where
  vmems : k.core.vmems.count ≤ k'.core.vmems.count
  map : h < k.core.vmems.count → ∃ more, (k'.vmem h).map = (k.vmem h).map.map (· ++ more)

namespace MapKept

theorem of_map (vmems : k.core.vmems.count ≤ k'.core.vmems.count)
    (map : h < k.core.vmems.count → (k'.vmem h).map = (k.vmem h).map) : MapKept h k k' := by
  refine ⟨vmems, fun known => ⟨[], ?_⟩⟩
  rw [map known]
  cases (k.vmem h).map with
  | none => rfl
  | some items => rw [Option.map_some, List.append_nil]

theorem of_vmems (vmems : k'.core.vmems = k.core.vmems) : MapKept h k k' :=
  .of_map (Nat.le_of_eq (by rw [vmems])) fun _ => by rw [Kernel.vmem, Kernel.vmem, vmems]

theorem refl (k : Kernel) : MapKept h k k := .of_vmems rfl

theorem trans {k'' : Kernel} (first : MapKept h k k') (second : MapKept h k' k'') : MapKept h k k'' := by
  refine ⟨Nat.le_trans first.vmems second.vmems, fun known => ?_⟩
  obtain ⟨more, grown⟩ := first.map known
  obtain ⟨further, grown'⟩ := second.map (Nat.lt_of_lt_of_le known first.vmems)
  refine ⟨more ++ further, ?_⟩
  rw [grown', grown, Option.map_map]
  exact congrArg (Option.map · _) (funext fun items => List.append_assoc items more further)

theorem modifyVmem {change : Vmem → Vmem} (map : v = h → (change (k.vmem v)).map = (k.vmem v).map) :
    MapKept h k (k.modifyVmem v change) := by
  refine .of_map (Nat.le_refl _) fun _ => ?_
  by_cases here : h = v
  · subst here
    rw [Kernel.vmem_modifyVmem_self]
    exact map rfl
  · rw [Kernel.vmem_modifyVmem_of_ne here]

theorem appendMap (v : Nat) (entry : VmemMap) (k : Kernel) : MapKept h k ((mapOf v).modify (· ++ [entry]) k) := by
  by_cases here : h = v
  · subst here
    refine ⟨Nat.le_refl _, fun _ => ⟨[entry], ?_⟩⟩
    rw [mapOf, Kernel.vmem_modifyVmem_self]
  · exact .modifyVmem fun same => absurd same.symm here

theorem isPrefix (kept : MapKept h k k') (known : h < k.core.vmems.count) :
    (k.vmem h).map.items <+: (k'.vmem h).map.items := by
  obtain ⟨more, grown⟩ := kept.map known
  rw [grown]
  cases (k.vmem h).map with
  | none => exact List.prefix_rfl
  | some items => exact List.prefix_append items more

theorem isSome (kept : MapKept h k k') (known : h < k.core.vmems.count) (map : (k.vmem h).map.isSome) :
    (k'.vmem h).map.isSome := by
  obtain ⟨more, grown⟩ := kept.map known
  rw [grown, Option.isSome_map]
  exact map

end MapKept

theorem mapKept_closed (h : Nat) : Closed (h + 1) 0 (MapKept h) where
  toHeapClosed := .of_core MapKept.trans fun core => .of_vmems (by rw [core])
  step := by
    intro nested calls k k' step
    cases step with
    | table step =>
        cases step with
        | call size => exact calls size k
        | write => exact .of_vmems rfl
        | native => exact .modifyVmem fun _ => rfl
    | appendMap v entry => exact .appendMap v entry k
    | grow found =>
        rw [pmemAllocate_of_success found]
        exact .of_vmems rfl
    | exhaust failed =>
        rw [pmemAllocate_of_failure failed]
        exact .of_vmems rfl
    | newVmem =>
        exact .of_map (Nat.le_succ _) fun known => congrArg Vmem.map (Store.new_get_of_ne (Nat.ne_of_lt known))
    | setMap fresh => exact .modifyVmem fun here => by omega
    | appendRegion => exact .modifyVmem fun _ => rfl
    | detach v r =>
        have unlisted : MapKept h k (linkedlistRemoveElement (regionsOf v) r k) := .modifyVmem fun _ => rfl
        exact unlisted.trans (.of_vmems rfl)
    | nextStart => exact .modifyVmem fun _ => rfl
    | setRegions => exact .modifyVmem fun _ => rfl
    | setVmemId => exact .modifyVmem fun _ => rfl
    | _ => exact .of_vmems rfl

theorem kalloc_mapKept (size : Nat) (k : Kernel) : MapKept h k (kalloc size k).2 :=
  (mapKept_closed h).growth.calls.kalloc size k

theorem MapKept.path (path : Path kalloc (h + 1) 0 Set.univ k k') : MapKept h k k' :=
  (mapKept_closed h).path kalloc_mapKept path

theorem vmemRegionCreate_mapKept (vmem : Option Nat) (name : Option String) (start size : Nat)
    (user writable executable : Bool) (k : Kernel) :
    MapKept h k (vmemRegionCreate kalloc vmem name start size user writable executable k).2 :=
  .path (vmemRegionCreate_path vmem name start size user writable executable k
    fun _ _ => ⟨Nat.zero_le _, Set.mem_univ _⟩)

theorem VmemOp.mapKept (op : VmemOp) (known : h < k.core.vmems.count) : MapKept h k (op.run kalloc k) := by
  cases op with
  | create =>
      rw [VmemOp.run_create]
      refine .path (vmemCreate_path k ?_)
      rw [(kalloc_reliable.frame sizeofVmem k).vmems]
      exact known
  | createRegion vmem name start size user writable executable =>
      exact vmemRegionCreate_mapKept vmem name start size user writable executable k
  | resize region newSize => exact .path (vmemRegionResize_path region (fun r _ => Set.mem_univ r) newSize k)
  | mapPhysical region physicalStartAddr size =>
      exact .path (vmemRegionMapPhysicalAddress_path region (fun r _ => Set.mem_univ r) physicalStartAddr size k)
  | attach vmem region => exact .path (vmemAttach_path vmem region k)

/-- In every run, the map of an address space there is keeps its entries. -/
theorem ServiceRun.mapKept (run : ServiceRun k k') (known : h < k.core.vmems.count) : MapKept h k k' := by
  induction run with
  | refl => exact MapKept.refl k
  | tail _ step ih =>
      refine ih.trans ?_
      have known' := Nat.lt_of_lt_of_le known ih.vmems
      cases step with
      | call size => exact kalloc_mapKept size _
      | @service op valid => exact op.mapKept known'
      | initialise => exact ((mapKept_closed h).boot .of_vmems).initialise _

/-! ## Automatic addresses -/

/-- Every automatic address is a word. -/
def NextWords (k : Kernel) : Prop := ∀ v, (k.vmem v).nextStartAddress < 2 ^ 64

/-- The step keeps them words. -/
def KeepsNext (k k' : Kernel) : Prop := NextWords k → NextWords k'

theorem KeepsNext.of_vmems (vmems : k'.core.vmems = k.core.vmems) : KeepsNext k k' := by
  intro words v
  rw [Kernel.vmem, vmems]
  exact words v

theorem KeepsNext.modifyVmem {change : Vmem → Vmem}
    (next : (k.vmem v).nextStartAddress < 2 ^ 64 → (change (k.vmem v)).nextStartAddress < 2 ^ 64) :
    KeepsNext k (k.modifyVmem v change) := by
  intro words w
  by_cases here : w = v
  · subst here
    rw [Kernel.vmem_modifyVmem_self]
    exact next (words w)
  · rw [Kernel.vmem_modifyVmem_of_ne here]
    exact words w

theorem keepsNext_closed : Closed 0 0 KeepsNext where
  toHeapClosed := .of_core (fun first second words => second (first words)) fun core => .of_vmems (by rw [core])
  step := by
    intro nested calls k k' step
    cases step with
    | table step =>
        cases step with
        | call size => exact calls size k
        | write => exact .of_vmems rfl
        | native => exact .modifyVmem id
    | appendMap => exact .modifyVmem id
    | appendRegion => exact .modifyVmem id
    | detach v r =>
        have unlisted : KeepsNext k (linkedlistRemoveElement (regionsOf v) r k) := .modifyVmem id
        exact fun words => unlisted words
    | grow found =>
        rw [pmemAllocate_of_success found]
        exact .of_vmems rfl
    | exhaust failed =>
        rw [pmemAllocate_of_failure failed]
        exact .of_vmems rfl
    | nextStart => exact .modifyVmem fun _ => wrap_lt _
    | newVmem =>
        intro words v
        by_cases new : v = k.core.vmems.count
        · rw [Kernel.vmem, new, Kernel.newVmem, Store.new_get_self]
          decide
        · have older : ∀ object, (k.newVmem object).vmem v = k.vmem v := fun _ => Store.new_get_of_ne new
          rw [older]
          exact words v
    | setRegions => exact .modifyVmem id
    | setMap => exact .modifyVmem id
    | setVmemId => exact .modifyVmem id
    | _ => exact .of_vmems rfl

theorem KeepsNext.path (path : AnyPath kalloc k k') : KeepsNext k k' :=
  keepsNext_closed.path keepsNext_closed.growth.calls.kalloc path

theorem ServiceRun.keepsNext (run : ServiceRun k k') : KeepsNext k k' := by
  induction run with
  | refl => exact keepsNext_closed.refl k
  | @tail middle _ _ step ih =>
      refine keepsNext_closed.trans ih ?_
      cases step with
      | call size => exact keepsNext_closed.growth.calls.kalloc size middle
      | @service op valid => exact .path (op.path kalloc middle)
      | initialise => exact (keepsNext_closed.boot .of_vmems).initialise middle

theorem KeepsNext.vmemStart (k : Kernel) : KeepsNext k (vmemStart kalloc k) := by
  have list : ∀ k, KeepsNext k (linkedlistCreate (α := Nat × Nat) kalloc k).2 :=
    fun k => KeepsNext.path (TablePath.path (linkedlistCreate_tablePath k))
  have create : ∀ k, KeepsNext k (vmemCreate kalloc k).2 :=
    fun k => KeepsNext.path (vmemCreate_path k (Nat.zero_le _))
  have vmemIds : ∀ change k, KeepsNext k (vmemIdMapper.modify change k) := fun _ _ => .of_vmems rfl
  have regionIds : ∀ change k, KeepsNext k (vmemRegionMapper.modify change k) := fun _ _ => .of_vmems rfl
  have setKernel : ∀ v k, KeepsNext k (k.setKernelVmem v) := fun _ _ => .of_vmems rfl
  exact vmemStart_steps KeepsNext keepsNext_closed.trans list vmemIds regionIds create setKernel k

/-- In every state of every run the automatic addresses are words. -/
theorem ServiceRun.nextWords {pmem : Pmem} {k₀ : Kernel} (blank : k₀.core = Core.blank pmem)
    (run : ServiceRun (vmemStart kalloc k₀) k) : NextWords k := by
  refine run.keepsNext (KeepsNext.vmemStart k₀ fun v => ?_)
  rw [blank_vmem blank]
  decide

end BubackOS
