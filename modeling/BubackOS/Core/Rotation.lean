import BubackOS.Core.Schedule
import BubackOS.Core.VmemRuns

/-!
# A round of the scheduler

As long as the list node for the task that loses the processor is allocated, a switch turns
the line of the current task and the ready queue by one place; when it is not, the task is
in neither place any more and the line stays shorter.
-/

namespace BubackOS

open Library TaskSystem

variable {kalloc : Kalloc} {s : TaskSystem} {c : Nat} {ts : List Nat}

/-- The system after a number of calls of `scheduler_switch_task`. -/
def afterSwitches (kalloc : Kalloc) : Nat → TaskSystem → TaskSystem
  | 0, s => s
  | count + 1, s => (schedulerSwitchTask kalloc (afterSwitches kalloc count s)).2

/-! ## The line -/

/-- A queue in order: nothing is in two places, and the list exists. -/
structure Rotating (s : TaskSystem) : Prop where
  exclusive : s.dispatcher.Exclusive
  listed : s.scheduledTasks.isSome

theorem Rotating.switch (rotating : Rotating s) : Rotating (schedulerSwitchTask kalloc s).2 where
  exclusive := by
    rw [schedulerSwitchTask_dispatcher]
    exact rotating.exclusive.switch
  listed := schedulerSwitchTask_listed rotating.listed

theorem Rotating.afterSwitches (rotating : Rotating s) (kalloc : Kalloc) (count : Nat) :
    Rotating (afterSwitches kalloc count s) := by
  induction count with
  | zero => exact rotating
  | succ count ih => exact ih.switch

theorem Rotating.nodeServed (rotating : Rotating s) :
    s.nodeServed kalloc = decide ((kalloc sizeofLinkedlistNode s.kernel).1 ≠ 0) := by
  unfold TaskSystem.nodeServed
  rw [rotating.listed, Bool.true_and]

/-- The line never gets longer. -/
theorem Rotating.line_antitone (rotating : Rotating s) {early late : Nat} (later : early ≤ late) :
    (BubackOS.afterSwitches kalloc late s).dispatcher.line.length ≤
      (BubackOS.afterSwitches kalloc early s).dispatcher.line.length := by
  induction later with
  | refl => exact le_rfl
  | @step late _ ih =>
      refine le_trans ?_ ih
      have now := rotating.afterSwitches kalloc late
      have next : BubackOS.afterSwitches kalloc (late + 1) s =
          (schedulerSwitchTask kalloc (BubackOS.afterSwitches kalloc late s)).2 := rfl
      rw [next, schedulerSwitchTask_dispatcher]
      exact now.exclusive.switch_line_length_le

/-- A line that kept its length lost no task on the way. -/
theorem Rotating.served_of_line (rotating : Rotating s) {count : Nat}
    (whole : (BubackOS.afterSwitches kalloc count s).dispatcher.line.length = s.dispatcher.line.length)
    {i : Nat} (before : i < count) (running : (BubackOS.afterSwitches kalloc i s).currentTask.isSome) :
    (kalloc sizeofLinkedlistNode (BubackOS.afterSwitches kalloc i s).kernel).1 ≠ 0 := by
  intro failed
  have now := rotating.afterSwitches kalloc i
  obtain ⟨c, current⟩ := Option.isSome_iff_exists.mp running
  have lost : (BubackOS.afterSwitches kalloc i s).nodeServed kalloc = false := by
    rw [now.nodeServed]
    exact decide_eq_false (not_not.mpr failed)
  have shorter := now.exclusive.switch_line_length_lt current
  rw [← lost, ← schedulerSwitchTask_dispatcher] at shorter
  have start : (BubackOS.afterSwitches kalloc i s).dispatcher.line.length ≤ s.dispatcher.line.length :=
    rotating.line_antitone (Nat.zero_le i)
  have rest : (BubackOS.afterSwitches kalloc count s).dispatcher.line.length ≤
      (BubackOS.afterSwitches kalloc (i + 1) s).dispatcher.line.length := rotating.line_antitone before
  have next : BubackOS.afterSwitches kalloc (i + 1) s =
      (schedulerSwitchTask kalloc (BubackOS.afterSwitches kalloc i s)).2 := rfl
  rw [next] at rest
  omega

/-- A line of at least two whose head runs. -/
theorem line_cases {line : List Nat} (long : 2 ≤ s.dispatcher.line.length) (isLine : s.dispatcher.line = line)
    (running : s.currentTask.isSome) :
    ∃ c, s.currentTask = some c ∧ s.queue ≠ [] ∧ line = c :: s.queue := by
  obtain ⟨c, current⟩ := Option.isSome_iff_exists.mp running
  have shape : s.dispatcher.line = c :: s.queue := by
    unfold Dispatcher.line
    rw [show s.dispatcher.current = some c from current]
    rfl
  refine ⟨c, current, fun empty => ?_, isLine.symm.trans shape⟩
  rw [shape, empty] at long
  simp at long

/-- While every node is allocated, each switch turns the line by one place. -/
theorem Rotating.line_rotate (rotating : Rotating s) (running : s.currentTask = some c) (queue : s.queue = ts)
    (waiting : ts ≠ []) (count : Nat)
    (served : ∀ i < count, (kalloc sizeofLinkedlistNode (BubackOS.afterSwitches kalloc i s).kernel).1 ≠ 0) :
    (BubackOS.afterSwitches kalloc count s).currentTask.isSome ∧
      (BubackOS.afterSwitches kalloc count s).dispatcher.line = (c :: ts).rotate count := by
  induction count with
  | zero =>
      refine ⟨by rw [BubackOS.afterSwitches, running]; rfl, ?_⟩
      rw [List.rotate_zero]
      unfold BubackOS.afterSwitches Dispatcher.line TaskSystem.dispatcher
      rw [running, queue]
      rfl
  | succ count ih =>
      obtain ⟨current, line⟩ := ih fun i before => served i (Nat.lt_succ_of_lt before)
      have now := rotating.afterSwitches kalloc count
      have node := served count (Nat.lt_succ_self count)
      generalize isNow : BubackOS.afterSwitches kalloc count s = present at current line now node
      have long : 2 ≤ present.dispatcher.line.length := by
        have positive := List.length_pos_iff.mpr waiting
        rw [line, List.length_rotate, List.length_cons]
        omega
      obtain ⟨c', isCurrent, nonempty, -⟩ := line_cases long rfl current
      have kept : present.nodeServed kalloc = true := by
        rw [now.nodeServed]
        exact decide_eq_true node
      have turned := now.exclusive.switch_line isCurrent nonempty
      rw [← kept, ← schedulerSwitchTask_dispatcher, line, List.rotate_rotate] at turned
      have next : BubackOS.afterSwitches kalloc (count + 1) s = (schedulerSwitchTask kalloc present).2 := by
        rw [← isNow]
        rfl
      rw [next]
      refine ⟨?_, turned⟩
      obtain ⟨first, rest, isQueue⟩ := List.exists_cons_of_ne_nil nonempty
      have switched : (schedulerSwitchTask kalloc present).2.dispatcher.current = some first := by
        rw [schedulerSwitchTask_dispatcher, now.exclusive.switch_of_cons isQueue]
      have taken : (schedulerSwitchTask kalloc present).2.currentTask = some first := switched
      rw [taken]
      rfl

/-- Whoever runs is the head of the line. -/
theorem currentTask_of_line {line : List Nat} (running : s.currentTask.isSome) (isLine : s.dispatcher.line = line) :
    s.currentTask = line.head? ∧ s.queue = line.tail := by
  obtain ⟨c, current⟩ := Option.isSome_iff_exists.mp running
  have shape : line = c :: s.queue := by
    rw [← isLine]
    unfold Dispatcher.line
    rw [show s.dispatcher.current = some c from current]
    rfl
  rw [current, shape]
  exact ⟨rfl, rfl⟩

theorem head_rotate_succ (c : Nat) (ts : List Nat) {i : Nat} (inside : i ≤ ts.length) :
    ((c :: ts).rotate (i + 1)).head? = (ts ++ [c])[i]? := by
  have turn : (c :: ts).rotate (i + 1) = (ts ++ [c]).rotate i := by
    rw [List.rotate_cons_succ]
  have bound : i < (ts ++ [c]).length := by
    simp
    omega
  rw [turn, List.head?_rotate bound]

/-- `n + 1` switches from a ready task and a queue of `n` other ready tasks make the queued tasks
and the first task current, once each in that order, and restore the current task and the queue,
exactly if each of them gets the list node for the task that loses the processor. -/
theorem round_restores_iff (running : s.currentTask = some c) (queue : s.queue = ts) (waiting : ts ≠ [])
    (distinct : ts.Nodup) (other : c ∉ ts) (ready : ∀ t ∈ c :: ts, (s.task t).status = .ready) :
    ((∀ i ≤ ts.length, (afterSwitches kalloc (i + 1) s).currentTask = (ts ++ [c])[i]?) ∧
      (afterSwitches kalloc (ts.length + 1) s).currentTask = some c ∧
      (afterSwitches kalloc (ts.length + 1) s).queue = ts) ↔
    ∀ i ≤ ts.length, (kalloc sizeofLinkedlistNode (afterSwitches kalloc i s).kernel).1 ≠ 0 := by
  have listed : s.scheduledTasks.isSome := by
    cases list : s.scheduledTasks with
    | none =>
        unfold TaskSystem.queue at queue
        rw [list] at queue
        exact absurd queue.symm waiting
    | some items => rfl
  have exclusive : s.dispatcher.Exclusive := by
    rw [← queue] at distinct other ready
    refine ⟨distinct, fun t waits runs => ?_, ?_⟩
    · have same : c = t := Option.some.inj (running.symm.trans runs)
      rw [same] at other
      exact other waits
    · rintro t (runs | waits)
      · have same : c = t := Option.some.inj (running.symm.trans runs)
        exact decide_eq_true (ready t (same ▸ List.mem_cons_self))
      · exact decide_eq_true (ready t (List.mem_cons_of_mem c waits))
  have rotating : Rotating s := ⟨exclusive, listed⟩
  have start : s.dispatcher.line = c :: ts := by
    unfold Dispatcher.line TaskSystem.dispatcher
    rw [running, queue]
    rfl
  constructor
  · rintro ⟨currents, last, restored⟩ i inside
    have whole : (afterSwitches kalloc (ts.length + 1) s).dispatcher.line.length = s.dispatcher.line.length := by
      rw [start]
      unfold Dispatcher.line TaskSystem.dispatcher
      rw [last, restored]
      rfl
    refine rotating.served_of_line whole (Nat.lt_succ_of_le inside) ?_
    cases i with
    | zero =>
        rw [afterSwitches, running]
        rfl
    | succ i =>
        rw [currents i (by omega), Option.isSome_iff_ne_none]
        simp
        omega
  · intro served
    have line : ∀ count ≤ ts.length + 1, (afterSwitches kalloc count s).currentTask.isSome ∧
        (afterSwitches kalloc count s).dispatcher.line = (c :: ts).rotate count := fun count few =>
      rotating.line_rotate running queue waiting count fun i before => served i (by omega)
    refine ⟨fun i inside => ?_, ?_⟩
    · obtain ⟨current, isLine⟩ := line (i + 1) (by omega)
      rw [(currentTask_of_line current isLine).1, head_rotate_succ c ts inside]
    · obtain ⟨current, isLine⟩ := line (ts.length + 1) le_rfl
      rw [show ts.length + 1 = (c :: ts).length from rfl, List.rotate_length] at isLine
      exact currentTask_of_line current isLine

/-- Two ready tasks in the kernel's address space, the first one running. -/
def pairOfTasks (k : Kernel) : TaskSystem :=
  let initialised := taskServiceInitialize BubackOS.kalloc
    (schedulerInitialise BubackOS.kalloc (TaskSystem.start k)).2
  let first := (taskCreate BubackOS.kalloc "init" (some 0) initialised).2
  let second := (taskCreate BubackOS.kalloc "shell" (some 0) first).2
  let ready := (schedulerTaskReady BubackOS.kalloc (some 1) (schedulerTaskReady BubackOS.kalloc (some 0) second).2).2
  (schedulerSwitchTask BubackOS.kalloc ready).2

theorem round_restores_iff_pair :
    (afterSwitches BubackOS.kalloc 2 (pairOfTasks (vmemStart BubackOS.kalloc sampleKernel))).currentTask = some 0 ∧
    (afterSwitches BubackOS.kalloc 2 (pairOfTasks (vmemStart BubackOS.kalloc sampleKernel))).queue = [1] := by
  have queue : (pairOfTasks (vmemStart BubackOS.kalloc sampleKernel)).queue = [1] := by decide +kernel
  exact ((round_restores_iff (c := 0) (by decide +kernel) queue (by decide) (by decide) (by decide)
    (by decide +kernel)).mpr (by decide +kernel)).2

/-- The kernel image as the linker script places it, on a machine without a page above 64 MB. -/
def lowMemoryKernel : Kernel :=
  .start
    { kernel := { addrStart := 0x2000, addrEnd := 0x3000, size := 0x1000 }
      kernelData := { addrStart := 0x4000, addrEnd := 0x4000, size := 0 } }
    { totalOfPages := 16384, pages := fun _ => .free } (fun _ => 0)

/-- The machine started, with two tasks and a request that leaves no room for a list node. -/
def exhaustedPair : TaskSystem :=
  let pair := pairOfTasks (memoryAllocatorInitialize (vmemStart BubackOS.kalloc lowMemoryKernel)).2
  pair.setKernel (BubackOS.kalloc 42500 pair.kernel).2

theorem exhaustedPair_facts :
    (exhaustedPair.currentTask = some 0 ∧ exhaustedPair.queue = [1] ∧
      (exhaustedPair.task 0).status = .ready ∧ (exhaustedPair.task 1).status = .ready) ∧
    (afterSwitches BubackOS.kalloc 1 exhaustedPair).currentTask = some 1 ∧
    (afterSwitches BubackOS.kalloc 1 exhaustedPair).queue = [] ∧
    (afterSwitches BubackOS.kalloc 2 exhaustedPair).currentTask = none := by
  decide +kernel

/-- With the memory used up, the running task gets no list node at the first switch and is lost. -/
theorem exhausted_switch_loses_task :
    (exhaustedPair.currentTask = some 0 ∧ exhaustedPair.queue = [1] ∧
      (exhaustedPair.task 0).status = .ready ∧ (exhaustedPair.task 1).status = .ready) ∧
    (afterSwitches BubackOS.kalloc 1 exhaustedPair).currentTask = some 1 ∧
    (afterSwitches BubackOS.kalloc 1 exhaustedPair).queue = [] ∧
    (afterSwitches BubackOS.kalloc 2 exhaustedPair).currentTask = none :=
  exhaustedPair_facts

end BubackOS
