import BubackOS.Core.Failures
import BubackOS.Core.Schedule
import BubackOS.Core.TaskArguments

/-!
# What `task_set_arguments` reports

`task_set_arguments` creates a region, attaches it to the kernel address space and copies the
arguments.  When one of the first two steps fails it returns `false`, and the region may stay in the
address space of the task; when the third fails it returns `true` and stores `0` as `userdata`.
-/

namespace BubackOS

open Library

variable {k k' : Kernel} {v h r t : Nat} {s : TaskSystem} {arguments : List (List UInt8)}

/-! ## The copy -/

/-- What `copy_arguments_to_task` asks of its arguments: both pages are mapped, every copy ends before the room for
the trailer, and the trailer is not at address `0`. -/
structure ArgumentsAccepted (k : Kernel) (v stack stackSize : Nat) (arguments : List (List UInt8)) : Prop where
  pointers : vmemGetPhysicalAddress k v stack ≠ 0
  strings : vmemGetPhysicalAddress k v (wrap (argumentsStart stack arguments)) ≠ 0
  room : ∀ i < arguments.length, wrap (argumentsStart stack arguments + totalSize (arguments.take (i + 1))) ≤
    wrapSub (wrap (stack + stackSize)) sizeofTaskUserdata
  trailer : wrap (argumentsStart stack arguments + totalSize arguments) ≠ 0

/-- The loop comes to its end when every copy ends in time. -/
theorem copyLoop_fst (stack stackSize ptrs : Nat) (arguments : List (List UInt8)) : ∀ i data dataPhys,
    (copyLoop stack stackSize ptrs i arguments (wrap data) dataPhys).1.map Prod.fst =
      if ∀ n < arguments.length, wrap (data + totalSize (arguments.take (n + 1))) ≤
          wrapSub (wrap (stack + stackSize)) sizeofTaskUserdata
        then some (wrap (data + totalSize arguments)) else none := by
  induction arguments with
  | nil =>
      intro i data dataPhys
      exact (if_pos fun n absent => absurd absent (Nat.not_lt_zero n)).symm
  | cons argument rest ih =>
      intro i data dataPhys
      have moved : wrap (wrap data + argument.length) = wrap (data + argument.length) := Nat.mod_add_mod _ _ _
      rw [copyLoop, moved]
      by_cases full : wrap (data + argument.length) > wrapSub (wrap (stack + stackSize)) sizeofTaskUserdata
      · rw [if_pos full, if_neg]
        · rfl
        · intro all
          have first := all 0 (Nat.succ_pos _)
          rw [List.take_succ_cons, List.take_zero, totalSize_cons] at first
          exact absurd first (Nat.not_le_of_lt full)
      · rw [if_neg full]
        dsimp only
        rw [ih, totalSize_cons, ← Nat.add_assoc]
        refine if_congr ⟨fun later n small => ?_, fun all n small => ?_⟩ rfl rfl
        · cases n with
          | zero =>
              rw [List.take_succ_cons, List.take_zero, totalSize_cons]
              exact Nat.le_of_not_lt full
          | succ n =>
              rw [List.take_succ_cons, totalSize_cons, ← Nat.add_assoc]
              exact later n (Nat.lt_of_succ_lt_succ small)
        · have next := all (n + 1) (Nat.succ_lt_succ small)
          rwa [List.take_succ_cons, totalSize_cons, ← Nat.add_assoc] at next

theorem copyArgumentsToTask_ne_zero {stack stackSize : Nat} :
    (copyArgumentsToTask v stack stackSize arguments k).1 ≠ 0 ↔ ArgumentsAccepted k v stack stackSize arguments := by
  have loop := copyLoop_fst stack stackSize (vmemGetPhysicalAddress k v stack) arguments 0
    (argumentsStart stack arguments) (vmemGetPhysicalAddress k v (wrap (argumentsStart stack arguments)))
  have unfolded : (copyArgumentsToTask v stack stackSize arguments k).1 =
      (layOutArguments k v stack stackSize arguments).1 := rfl
  rw [unfolded, layOutArguments, ← argumentsStart]
  dsimp only
  by_cases pointers : vmemGetPhysicalAddress k v stack = 0
  · rw [if_pos pointers]
    exact ⟨fun absent => absurd rfl absent, fun accepted => absurd pointers accepted.pointers⟩
  rw [if_neg pointers]
  by_cases strings : vmemGetPhysicalAddress k v (wrap (argumentsStart stack arguments)) = 0
  · rw [if_pos strings]
    exact ⟨fun absent => absurd rfl absent, fun accepted => absurd strings accepted.strings⟩
  rw [if_neg strings]
  generalize copyLoop stack stackSize (vmemGetPhysicalAddress k v stack) 0 arguments
    (wrap (argumentsStart stack arguments)) (vmemGetPhysicalAddress k v (wrap (argumentsStart stack arguments))) =
    copied at loop ⊢
  split at loop
  · rename_i room
    obtain ⟨last, isLast, address⟩ := Option.map_eq_some_iff.mp loop
    rw [isLast]
    dsimp only
    rw [address]
    exact ⟨fun trailer => ⟨pointers, strings, room, trailer⟩, ArgumentsAccepted.trailer⟩
  · rename_i full
    rw [Option.map_eq_none_iff.mp loop]
    exact ⟨fun absent => absurd rfl absent, fun accepted => absurd accepted.room full⟩

/-! ## The result -/

/-- The region `task_set_arguments` creates. -/
def argumentRegion (kalloc : Kalloc) (vmem : Option Nat) (k : Kernel) : Option Nat × Kernel :=
  vmemRegionCreate kalloc vmem (some "task-argument") 0 taskDefaultStackSize true true true k

/-- What `copy_arguments_to_task` returned in a call of `task_set_arguments`, if the call came so far. -/
def argumentsCopy (kalloc : Kalloc) (t : Nat) (arguments : List (List UInt8)) (s : TaskSystem) : Option Nat :=
  match (argumentRegion kalloc (s.task t).memoryHandler s.kernel).1, (s.task t).memoryHandler with
  | some r, some v =>
      let region := argumentRegion kalloc (s.task t).memoryHandler s.kernel
      let attached := vmemAttach kalloc region.2.core.kernelVmem (some r) region.2
      if attached.1 then
        some (copyArgumentsToTask v (attached.2.region r).start (attached.2.region r).size arguments attached.2).1
      else none
  | _, _ => none

/-- The result says whether the arguments are stored, and a failed call leaves nothing behind in the task and in
the regions of its address space. -/
structure Reported (kalloc : Kalloc) (t : Nat) (arguments : List (List UInt8)) (s : TaskSystem)
    (outcome : Bool × TaskSystem) : Prop where
  stored : outcome.1 = true ↔
    (outcome.2.task t).userdata ≠ 0 ∧ argumentsCopy kalloc t arguments s = some (outcome.2.task t).userdata
  failed : outcome.1 = false → outcome.2.task t = s.task t ∧
    ∀ v ∈ (s.task t).memoryHandler, (outcome.2.kernel.vmem v).regions.items = (s.kernel.vmem v).regions.items

section Cases

variable {kalloc : Kalloc} (created : (s.task t).status = .created) (unset : (s.task t).userdata = 0)

include unset in
/-- A failed call is reported as such; it is right when the regions are as before. -/
theorem reported_iff_restored :
    Reported kalloc t arguments s (false, s.setKernel k) ↔
      ∀ v ∈ (s.task t).memoryHandler, (k.vmem v).regions.items = (s.kernel.vmem v).regions.items := by
  refine ⟨fun reported => (reported.failed rfl).2, fun regions => ⟨⟨?_, fun stored => ?_⟩, fun _ => ⟨rfl, regions⟩⟩⟩
  · exact fun absent => (Bool.false_ne_true absent).elim
  · exact absurd unset stored.1

include created unset

theorem taskSetArguments_of_none {region : Option Nat × Kernel}
    (isRegion : region = argumentRegion kalloc (s.task t).memoryHandler s.kernel) (refused : region.1 = none) :
    taskSetArguments kalloc (some t) arguments s = (false, s.setKernel region.2) := by
  unfold taskSetArguments
  dsimp only
  rw [if_neg fun invalid => invalid.elim (fun other => other created) (fun set => set unset)]
  unfold argumentRegion at isRegion
  rw [← isRegion, refused]

/-- With a region: the call ends with the attachment or with the copy, and its result is right when the copy is
accepted or the attachment changed nothing. -/
theorem reported_of_some (handler : (s.task t).memoryHandler = some v) {region : Option Nat × Kernel}
    (isRegion : region = argumentRegion kalloc (some v) s.kernel) (made : region.1 = some r) {attached : Bool × Kernel}
    (isAttached : attached = vmemAttach kalloc region.2.core.kernelVmem (some r) region.2) :
    Reported kalloc t arguments s (taskSetArguments kalloc (some t) arguments s) ↔
      attached.1 = true ∧ ArgumentsAccepted attached.2 v (attached.2.region r).start (attached.2.region r).size arguments ∨
      attached.1 = false ∧ (attached.2.vmem v).regions.items = (s.kernel.vmem v).regions.items := by
  obtain ⟨copied, isCopied⟩ : ∃ copied, copied = copyArgumentsToTask v (attached.2.region r).start
    (attached.2.region r).size arguments attached.2 := ⟨_, rfl⟩
  have copy : argumentsCopy kalloc t arguments s = if attached.1 then some copied.1 else none := by
    unfold argumentsCopy
    rw [handler, ← isRegion, made]
    dsimp only
    rw [← isAttached, ← isCopied]
  have result : taskSetArguments kalloc (some t) arguments s =
      if attached.1 = true then
        (true, (s.setKernel copied.2).modifyTask t fun task => { task with userdata := copied.1 })
      else (false, s.setKernel attached.2) := by
    unfold taskSetArguments
    dsimp only
    rw [if_neg fun invalid => invalid.elim (fun other => other created) (fun set => set unset), handler]
    unfold argumentRegion at isRegion
    rw [← isRegion, made]
    dsimp only
    rw [← isAttached, ← isCopied]
  rw [result]
  by_cases done : attached.1 = true
  · have userdata : (((s.setKernel copied.2).modifyTask t fun task => { task with userdata := copied.1 }).task
        t).userdata = copied.1 := by rw [TaskSystem.modifyTask_task_self]
    rw [if_pos done] at copy
    rw [if_pos done, done, ← copyArgumentsToTask_ne_zero, ← isCopied]
    constructor
    · intro reported
      have stored := (reported.stored.mp rfl).1
      rw [userdata] at stored
      exact Or.inl ⟨rfl, stored⟩
    · rintro (⟨-, positive⟩ | ⟨absent, -⟩)
      · refine ⟨⟨fun _ => ⟨?_, ?_⟩, fun _ => rfl⟩, fun absent => absurd absent.symm Bool.false_ne_true⟩
        · rw [userdata]
          exact positive
        · rw [userdata]
          exact copy
      · exact absurd absent.symm Bool.false_ne_true
  · rw [if_neg done, reported_iff_restored unset, handler]
    rw [Bool.not_eq_true] at done
    rw [done]
    constructor
    · exact fun regions => Or.inr ⟨rfl, regions v rfl⟩
    · rintro (⟨absent, -⟩ | ⟨-, same⟩)
      · exact absurd absent Bool.false_ne_true
      · rintro w ⟨⟩
        exact same

end Cases

theorem ne_of_appended {before after : List Nat} {n : Nat} (appended : after = before ++ [n]) : after ≠ before := by
  rw [appended]
  exact fun same => List.cons_ne_nil _ _ (List.append_right_eq_self.mp same)

/-- A `vmem_attach` that fails leaves the regions of all address spaces. -/
theorem attach_refused_regions {kalloc : Kalloc} (tame : Tame (fun _ => True) kalloc)
    (symmetric : ∀ v r, r ∈ k.space.regions v ↔ v ∈ k.space.attached r) {vmem : Option Nat} {attached : Bool × Kernel}
    (isAttached : attached = vmemAttach kalloc vmem (some r) k) (refused : attached.1 = false) (w : Nat) :
    (attached.2.vmem w).regions.items = (k.vmem w).regions.items := by
  cases vmem with
  | none =>
      rw [isAttached]
      rfl
  | some h =>
      obtain ⟨-, ⟨done, -⟩ | ⟨-, same⟩⟩ := vmemAttach_relinks tame (k := k) trivial symmetric h r
      · rw [← isAttached, refused] at done
        cases done
      · rw [isAttached]
        exact congrFun same.links.regions w

/-- The links after a region was created. -/
theorem created_linked {kalloc : Kalloc} (tame : Tame (fun _ => True) kalloc) (linked : k.space.Linked)
    (known : v < k.core.vmems.count) {name : String} {start size : Nat} {user writable executable : Bool}
    {region : Option Nat × Kernel}
    (isRegion : region = vmemRegionCreate kalloc (some v) (some name) start size user writable executable k)
    (made : region.1 = some r) : region.2.space.Linked := by
  rcases (vmemRegionCreate_relinks tame trivial linked v name start size user writable executable isRegion).2 with
    ⟨absent, -⟩ | ⟨absent, -⟩ | ⟨-, links⟩
  · rw [made] at absent
    cases absent
  · rw [made] at absent
    cases absent
  · exact links.links.linked ((linked.newRegion _).attach known (Nat.lt_succ_self _))

/-- For every task that was created and has no userdata, all arguments, and whichever requests are refused: the result
is right exactly when the task has no address space, its next start address is refused or the region could not be
attached to it, or when the region was created and attached to the kernel and `copy_arguments_to_task` accepts the
arguments. -/
theorem arguments_reported_iff (fails : Nat → Kernel → Bool) (created : (s.task t).status = .created)
    (unset : (s.task t).userdata = 0) (linked : s.kernel.space.Linked)
    (known : ∀ v ∈ (s.task t).memoryHandler, v < s.kernel.core.vmems.count) {region : Option Nat × Kernel}
    (isRegion : region = argumentRegion (refuseWhen fails kalloc) (s.task t).memoryHandler s.kernel)
    {attached : Nat → Bool × Kernel} (isAttached : ∀ r, attached r =
      vmemAttach (refuseWhen fails kalloc) region.2.core.kernelVmem (some r) region.2) :
    Reported (refuseWhen fails kalloc) t arguments s (taskSetArguments (refuseWhen fails kalloc) (some t) arguments s) ↔
      (∀ v ∈ (s.task t).memoryHandler, memAlign (placeRegion v 0 s.kernel).1 ≠ (placeRegion v 0 s.kernel).1 ∨
        (openRegion (refuseWhen fails kalloc) v "task-argument" (placeRegion v 0 s.kernel).1 true true true
          (placeRegion v 0 s.kernel).2).1 = none) ∨
      ∃ v ∈ (s.task t).memoryHandler, ∃ r ∈ region.1, (attached r).1 = true ∧
        ArgumentsAccepted (attached r).2 v ((attached r).2.region r).start ((attached r).2.region r).size arguments := by
  have tame := refuseWhen_tame fails
  cases handler : (s.task t).memoryHandler with
  | none =>
      have absent : region = (none, s.kernel) := by
        rw [isRegion, handler]
        rfl
      rw [taskSetArguments_of_none created unset isRegion (by rw [absent]), reported_iff_restored unset, handler]
      exact iff_of_true (fun v isNone => absurd isNone (Option.not_mem_none v))
        (Or.inl fun v isNone => absurd isNone (Option.not_mem_none v))
  | some v =>
      rw [handler] at isRegion
      have refused := @taskSetArguments_of_none t s arguments (refuseWhen fails kalloc) created unset region
        (handler ▸ isRegion)
      unfold argumentRegion at isRegion
      rcases vmemRegionCreate_listed tame trivial linked rfl rfl isRegion with
        ⟨unaligned, ends⟩ | ⟨aligned, ⟨absent, ends, regions⟩ | ⟨isSome, regions⟩⟩
      · rw [refused (by rw [ends]), reported_iff_restored unset, handler]
        refine iff_of_true ?_ (Or.inl ?_)
        · rintro w ⟨⟩
          rw [ends]
          exact (placeRegion_untouched v v 0 s.kernel).regions
        · rintro w ⟨⟩
          exact Or.inl unaligned
      · rw [refused (by rw [ends]), reported_iff_restored unset, handler]
        refine iff_of_true ?_ (Or.inl ?_)
        · rintro w ⟨⟩
          exact regions
        · rintro w ⟨⟩
          exact Or.inr absent
      · -- the region is in the list of the task's address space, and stays there
        have notFirst : ¬ ∀ w ∈ some v, memAlign (placeRegion w 0 s.kernel).1 ≠ (placeRegion w 0 s.kernel).1 ∨
            (openRegion (refuseWhen fails kalloc) w "task-argument" (placeRegion w 0 s.kernel).1 true true true
              (placeRegion w 0 s.kernel).2).1 = none := fun all =>
          (all v rfl).elim (fun unaligned => unaligned aligned) isSome
        rw [or_iff_right notFirst]
        cases made : region.1 with
        | none =>
            rw [refused made, reported_iff_restored unset, handler]
            refine iff_of_false (fun same => ?_) ?_
            · exact ne_of_appended regions (same v rfl)
            · rintro ⟨w, -, r, absent, -⟩
              cases absent
        | some r =>
            have symmetric := (created_linked tame linked (known v handler) isRegion made).symmetric
            have stays := attach_refused_regions tame symmetric (isAttached r)
            have notSecond : ¬ ((attached r).1 = false ∧
                ((attached r).2.vmem v).regions.items = (s.kernel.vmem v).regions.items) := fun failed =>
              ne_of_appended regions ((stays failed.1 v).symm.trans failed.2)
            rw [reported_of_some created unset handler isRegion made (isAttached r), or_iff_left notSecond]
            constructor
            · exact fun accepted => ⟨v, rfl, r, rfl, accepted⟩
            · rintro ⟨w, ⟨⟩, q, ⟨⟩, accepted⟩
              exact accepted

/-- A task of the address space `v`, as `task_create` leaves it. -/
def waitingTask (v : Nat) (k : Kernel) : TaskSystem :=
  { TaskSystem.start k with tasks := (TaskSystem.start k).tasks.new { Task.zero with memoryHandler := some v } }

/-- A second address space on the machine of `sampleKernel`. -/
def sampleSpace : Kernel := (vmemCreate kalloc (vmemStart kalloc sampleKernel)).2

theorem sampleSpace_linked : sampleSpace.space.Linked := by
  have reached : Reached kalloc sampleKernel sampleSpace := @Reached.step _ _ _ .create .start trivial
  have early : Early sampleKernel.alloc := rfl
  have blank : sampleKernel.core = Core.blank sampleKernel.core.pmem := rfl
  exact ((reached.refines kalloc_quiet early blank (by decide +kernel)).orderly (blank_orderly blank)).coherent.linked

/-- With all requests served the argument is stored. -/
theorem arguments_reported_iff_waitingTask :
    Reported (refuseWhen (fun _ _ => false) kalloc) 0 [[65, 0]] (waitingTask 1 sampleSpace)
      (taskSetArguments (refuseWhen (fun _ _ => false) kalloc) (some 0) [[65, 0]] (waitingTask 1 sampleSpace)) := by
  refine (arguments_reported_iff _ rfl rfl sampleSpace_linked ?_ rfl (fun _ => rfl)).mpr (Or.inr ⟨1, rfl, 0, ?_, ?_, ?_⟩)
  · rintro v ⟨⟩
    decide +kernel
  · decide +kernel
  · decide +kernel
  · exact ⟨by decide +kernel, by decide +kernel, by decide +kernel, by decide +kernel⟩

/-- The arguments are too long: the call succeeds and stores nothing.  Physical memory ends after two pages: the
call fails, and the region stays. -/
theorem arguments_misreported :
    ((taskSetArguments kalloc (some 0) [List.replicate 40960 65] (waitingTask 1 sampleSpace)).1 = true ∧
      ((taskSetArguments kalloc (some 0) [List.replicate 40960 65] (waitingTask 1 sampleSpace)).2.task 0).userdata = 0) ∧
    (taskSetArguments kalloc (some 0) [[65, 0]] (waitingTask 1 (vmemCreate kalloc scantStart).2)).1 = false ∧
    ((waitingTask 1 (vmemCreate kalloc scantStart).2).kernel.vmem 1).regions = some [] ∧
    ((taskSetArguments kalloc (some 0) [[65, 0]] (waitingTask 1 (vmemCreate kalloc scantStart).2)).2.kernel.vmem
      1).regions = some [0] := by
  decide +kernel

end BubackOS
